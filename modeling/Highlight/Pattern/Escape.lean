import Highlight.Match
import Highlight.Text.Decimal
import Highlight.Text.Pieces

/-!
# Escapes in a pattern

Before a pattern is read as one, some of its escapes are replaced as text. For that the pattern is
read from left to right as plain characters and pairs of a backslash with the character after it, so
that `\\A` is the pair `\\` and a letter.

- `Item`, `items`, `spell`: a pattern as characters and pairs, and back.
- `hasEscape`: whether some pair has a letter of a given set.
- `replaceEscapes`: the pattern with such pairs replaced.
- `quoted`: a pattern that matches a given text and nothing else.
- `fillBackReferences`: the pattern with numbered back-references replaced by captured text.
-/

namespace Highlight

namespace Pattern

/-- A part of a pattern: a character by itself, or a backslash with the character after it. -/
inductive Item where
  | plain (c : Char)
  | pair (c : Char)
deriving DecidableEq

/-- The characters of an item. -/
def Item.chars : Item → List Char
  | .plain c => [c]
  | .pair c => ['\\', c]

/-- The character of an item, without the backslash of a pair. -/
def Item.char : Item → Char
  | .plain c => c
  | .pair c => c

/-- A pattern as items. A backslash at the very end stands by itself. -/
def items : List Char → List Item
  | [] => []
  | '\\' :: c :: rest => .pair c :: items rest
  | c :: rest => .plain c :: items rest

/-- The pattern that items spell. -/
def spell (is : List Item) : List Char := is.flatMap Item.chars

/-- Whether some pair of the pattern has one of the letters. -/
def hasEscape (letters : List Char) : List Char → Bool
  | [] => false
  | '\\' :: c :: rest => letters.contains c || hasEscape letters rest
  | _ :: rest => hasEscape letters rest

/-- The pattern with each pair that has one of the letters replaced. -/
def replaceEscapes (letters replacement : List Char) : List Char → List Char
  | [] => []
  | '\\' :: c :: rest =>
    if letters.contains c then replacement ++ replaceEscapes letters replacement rest
    else '\\' :: c :: replaceEscapes letters replacement rest
  | c :: rest => c :: replaceEscapes letters replacement rest

/-- The characters that have to be escaped to stand for themselves. -/
def isSpecial (c : Char) : Bool := "-\\\x7b\x7d*+?|^$.,[]()#".toList.contains c || Text.isBlank c

/-- A pattern for a text: the text with its special characters escaped. -/
def quoted : List Char → List Char
  | [] => []
  | c :: cs => if isSpecial c then '\\' :: c :: quoted cs else c :: quoted cs

/-- Whether a character begins the number of a back-reference. -/
def beginsReference (c : Char) : Bool := Text.isDigit c && c != '0'

/-- Whether the pattern has a numbered back-reference. -/
def hasBackReference : List Char → Bool
  | [] => false
  | '\\' :: c :: rest => beginsReference c || hasBackReference rest
  | _ :: rest => hasBackReference rest

/-- The pattern with its back-references filled in; while `skip` is set, digits belong to a
reference that has been filled in already. -/
def fillFrom (text : List Char) (groups : Groups) (skip : Bool) : List Char → List Char
  | [] => []
  | '\\' :: c :: rest =>
    let group := Text.digitsValue (c :: rest.takeWhile Text.isDigit)
    if beginsReference c && group < UInt64.size then
      quoted ((groups.text? text group).getD []) ++ fillFrom text groups true rest
    else '\\' :: c :: fillFrom text groups false rest
  | c :: rest =>
    if skip && Text.isDigit c then fillFrom text groups true rest
    else c :: fillFrom text groups false rest

/-- The pattern with each numbered back-reference replaced by a pattern for the text that its group
took, or by nothing when it took none. A number too large for any group is left alone. -/
def fillBackReferences (text : List Char) (groups : Groups) (pattern : List Char) : List Char :=
  fillFrom text groups false pattern

end Pattern

end Highlight
