import Highlight.Pattern.CharClass
import Highlight.Text.CaseFold

/-!
# Sets of characters

What a character class of a pattern describes. A set is given by codes, so that a pattern can also
name codes that no character has.

- `CharSet`: ranges and named classes, joined by union, intersection and complement.
- `CharSet.contains`: which characters are in a set.
- `CharSet.single`, `CharSet.ofCodes`, `CharSet.negatedIf`, `CharSet.inLine`, `CharSet.all`: sets.
-/

namespace Highlight

/-- A set of characters. -/
inductive CharSet where
  | empty
  /-- The characters from one code to another, ends included. -/
  | range (first last : Nat)
  | named (cls : CharClass)
  | union (a b : CharSet)
  | inter (a b : CharSet)
  | complement (a : CharSet)
  /-- The characters that fold like one of the set. -/
  | anyCase (a : CharSet)
  /-- The characters of the set, and the ASCII letters that differ in case alone from one of it. -/
  | anyCaseAscii (a : CharSet)
deriving DecidableEq

namespace CharSet

/-- Whether a character is in a set. -/
def contains : CharSet → Char → Bool
  | .empty, _ => false
  | .range first last, c => first ≤ c.toNat && c.toNat ≤ last
  | .named cls, c => cls.contains c
  | .union a b, c => a.contains c || b.contains c
  | .inter a b, c => a.contains c && b.contains c
  | .complement a, c => !a.contains c
  | .anyCase a, c =>
    a.contains c || (Text.wholeMates c.toNat).any fun code => a.contains (Char.ofNat code)
  | .anyCaseAscii a, c =>
    a.contains c || (c.isUpper && a.contains c.toLower) || (c.isLower && a.contains c.toUpper)

/-- The set with one code. -/
def single (code : Nat) : CharSet := .range code code

/-- The set with the given codes. -/
def ofCodes : List Nat → CharSet
  | [] => .empty
  | [code] => single code
  | code :: codes => .union (single code) (ofCodes codes)

/-- The set or its complement. -/
def negatedIf (negated : Bool) (s : CharSet) : CharSet := if negated then .complement s else s

/-- All characters. -/
def all : CharSet := .named .any

/-- All characters but the newline. -/
def inLine : CharSet := .complement (single 10)

end CharSet

end Highlight
