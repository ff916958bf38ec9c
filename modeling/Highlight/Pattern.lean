import Highlight.Pattern.Engine

/-!
# The patterns of a grammar

A grammar's patterns are matched against a document one line at a time, and that shows in their
anchors.

- `\A` is the start of the document, so it matches on the first line only.
- `\z` and `\Z` are the end of the document, which a line never is: in the pattern that ends a
  region they do not match.
- `\G` is the place where the last match ended, where the search begins. A pattern that uses it has
  to match right there.

An anchor that must not match is replaced by a character that stands for no text.

- `Pattern`: a pattern, as it was written and as it is matched.
- `Pattern.ofText`, `Pattern.ofEndText`: the pattern for a text, by itself and as the end of a
  region.
- `Pattern.fault?`: why the text is no pattern. Such a pattern does not match.
- `Pattern.findFrom?`, `Pattern.findAt?`, `Pattern.find?`: the first match of a pattern.
-/

namespace Highlight

variable [Engine]

/-- A pattern of a grammar. The programs are those for the first line of a document and for the
other lines. -/
structure Pattern where
  /-- The pattern as it was written. -/
  text : List Char
  /-- The pattern after replacing the anchors that never match. -/
  source : List Char
  firstLine : Except PatternFault Engine.Program
  otherLines : Except PatternFault Engine.Program

namespace Pattern

/-- What takes the place of an anchor that must not match. -/
def neverMatches : List Char := [Char.ofNat 0xFFFF]

/-- The pattern that is matched as `source`. -/
def ofSource (text source : List Char) : Pattern :=
  ⟨text, source, Engine.read source, Engine.read (replaceEscapes ['A'] neverMatches source)⟩

/-- The pattern that a text stands for. -/
def ofText (text : List Char) : Pattern := ofSource text text

/-- The pattern that a text stands for as the end of a region. -/
def ofEndText (text : List Char) : Pattern :=
  ofSource text (replaceEscapes ['z', 'Z'] neverMatches text)

/-- Why the text is no pattern. -/
def fault? (p : Pattern) : Option PatternFault :=
  match p.firstLine with
  | .ok _ => none
  | .error fault => some fault

/-- Whether the pattern has a numbered back-reference. -/
def hasBackReferences (p : Pattern) : Bool := hasBackReference p.text

/-- Whether the pattern asks where the search began. -/
def asksSearchStart (p : Pattern) : Bool := hasEscape ['G'] p.source

/-- The program for a line. -/
def program? (p : Pattern) (firstLine : Bool) : Option Engine.Program :=
  (if firstLine then p.firstLine else p.otherLines).toOption

/-- The first match that begins at a place of a line or after it. A pattern that does not ask where
the search began has no use for that place. -/
def findFrom? (p : Pattern) (line : IndexedText) (place : Nat) (firstLine : Bool) : Option Found :=
  match p.program? firstLine with
  | none => none
  | some program =>
    if p.asksSearchStart then
      match Engine.search? program line place place with
      | some m => if m.start = place then some (m.found line) else none
      | none => none
    else (Engine.search? program line 0 place).map fun m => m.found line

/-- The first match that begins at an offset of a line or after it. -/
def findAt? (p : Pattern) (line : IndexedText) (offset : Nat) (firstLine : Bool) : Option Found :=
  (line.place? offset).bind fun place => p.findFrom? line place firstLine

/-- The first match that begins at an offset of a text or after it. -/
def find? (p : Pattern) (text : List Char) (offset : Nat) (firstLine : Bool) : Option Found :=
  p.findAt? (.ofText text) offset firstLine

end Pattern

end Highlight
