import Highlight.Pattern.Escape
import Highlight.Pattern.Fault

/-!
# Engines

An engine reads the texts of patterns and searches for their matches. Tokenizing uses any engine, and
what is proved about it holds for any engine: of the matches that are found it takes only that their
ends are places in order, and of patterns only that a pattern which is a text finds that text.

- `Item.isLiteral`: the parts of a pattern that stand for their characters.
- `FindsText`: a search that finds the first occurrence of a text, and nothing else.
- `Engine`: what reads and searches, with what has to be known about it.
-/

namespace Highlight

namespace Pattern

/-- The characters that say something of their own outside of a class. -/
def operators : List Char := "\\.^$|)*+?[(\x7b".toList

/-- Whether an item stands for its character: a character that says nothing of its own, or a pair whose
character is no letter or digit. -/
def Item.isLiteral : Item → Bool
  | .plain c => !operators.contains c
  | .pair c => !c.isAlphanum

/-- Escaped letters and digits never stand for themselves. -/
theorem isAlphanum_of_pair {c : Char} (hc : (Item.pair c).isLiteral = true) : c.isAlphanum = false := by
  rwa [Item.isLiteral, Bool.not_eq_true'] at hc

/-- A backslash by itself is no literal. -/
theorem ne_backslash_of_plain {c : Char} (hc : (Item.plain c).isLiteral = true) : c ≠ '\\' := by
  rintro rfl
  exact absurd hc (by decide)

/-- A search that finds the first occurrence of a text from a place on, and nothing else, wherever the
search began. Its arguments are a text, the place where the search began, and the place from which on a
match is asked for. -/
def FindsText (search? : IndexedText → Nat → Nat → Option Match) (part : List Char) : Prop :=
  ∀ (text : IndexedText) (origin place : Nat), place ≤ text.size →
    ∀ m, search? text origin place = some m ↔ m.IsFirst part text place

end Pattern

/-- What reads patterns and finds their matches. -/
class Engine where
  /-- A pattern that is ready to be matched. -/
  Program : Type
  /-- The program for the text of a pattern. -/
  read : List Char → Except PatternFault Program
  /-- The match that is found in a text from a place on; the first place is where the search began. -/
  search? : Program → IndexedText → Nat → Nat → Option Match
  /-- Items that stand for their characters are a pattern for the text of these characters. -/
  read_literal : ∀ items : List Pattern.Item, (∀ i ∈ items, i.isLiteral = true) →
    ∃ program, read (Pattern.spell items) = .ok program ∧
      Pattern.FindsText (search? program) (items.map Pattern.Item.char)

end Highlight
