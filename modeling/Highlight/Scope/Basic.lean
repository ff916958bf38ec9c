import Highlight.Text.Pieces
import Highlight.Text.Decimal

/-!
# Scopes

A scope such as `string.quoted.double.js` is a dotted name for a kind of text. A part of it can be
a placeholder (`$1`), which a match fills in with the text that a capture group took. A scope name
is what a rule carries: one scope or several, all pushed together.

The types hold only what can be written: names are made of name characters and are not empty,
scopes have a part, scope names have a scope.

- `Name`, `Part`, `Scope`, `ScopeName`: the types.
- `Scope.chars`, `Scope.text`, `ScopeName.text`: the written form.
-/

namespace Highlight

/-- Whether a character can stand in a name: an ASCII letter or digit, `-` or `_`. -/
def isNameChar (c : Char) : Bool := c.isAlphanum || c == '-' || c == '_'

/-- A part of a scope that stands for itself. -/
@[ext] structure Name where
  chars : List Char
  nonempty : chars ≠ [] := by decide
  valid : chars.all isNameChar = true := by decide
deriving DecidableEq

/-- A part of a scope. A placeholder holds the number of its capture group. -/
inductive Part where
  | name (name : Name)
  | capture (group : UInt64)
deriving DecidableEq

/-- A dotted name. -/
@[ext] structure Scope where
  parts : List Part
  nonempty : parts ≠ [] := by simp
deriving DecidableEq

/-- One scope or several, pushed together. -/
@[ext] structure ScopeName where
  scopes : List Scope
  nonempty : scopes ≠ [] := by simp
deriving DecidableEq

namespace Name

/-- The name as a text. -/
def text (n : Name) : String := String.ofList n.chars

end Name

namespace Part

/-- The written form of a part; a placeholder is written without braces. -/
def chars : Part → List Char
  | .name n => n.chars
  | .capture group => '$' :: Text.ofNat group.toNat

/-- The written form of a part. -/
def text (p : Part) : String := String.ofList p.chars

/-- Whether a part is a placeholder. -/
def isCapture : Part → Bool
  | .name _ => false
  | .capture _ => true

/-- The name that a part is, unless it is a placeholder. -/
def name? : Part → Option Name
  | .name n => some n
  | .capture _ => none

end Part

namespace Scope

/-- The written form of a scope: its parts with dots between them. -/
def chars (s : Scope) : List Char := Text.joined '.' (s.parts.map Part.chars)

/-- The written form of a scope. -/
def text (s : Scope) : String := String.ofList s.chars

/-- The scope as it is shown to a programmer. -/
def debugText (s : Scope) : String := "Scope(\"" ++ s.text ++ "\")"

/-- Whether any part is a placeholder. -/
def hasCaptures (s : Scope) : Bool := s.parts.any Part.isCapture

/-- The last part, which names the language of a grammar's own scope. -/
def language? (s : Scope) : Option Name := s.parts.getLast?.bind Part.name?

/-- The first part, which says what kind of scope this is. -/
def kind? (s : Scope) : Option Name := s.parts.head?.bind Part.name?

/-- The scope with one part. -/
def ofPart (p : Part) : Scope := ⟨[p], by simp⟩

end Scope

namespace ScopeName

/-- The written form of a scope name: its scopes with spaces between them. -/
def chars (n : ScopeName) : List Char := Text.joined ' ' (n.scopes.map Scope.chars)

/-- The written form of a scope name. -/
def text (n : ScopeName) : String := String.ofList n.chars

/-- The scope name as it is shown to a programmer. -/
def debugText (n : ScopeName) : String := "ScopeName(\"" ++ n.text ++ "\")"

/-- Whether any scope holds a placeholder. -/
def hasCaptures (n : ScopeName) : Bool := n.scopes.any Scope.hasCaptures

/-- The scope name with one scope. -/
def ofScope (s : Scope) : ScopeName := ⟨[s], by simp⟩

end ScopeName

end Highlight
