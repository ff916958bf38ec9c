import Highlight.Text.Indexed

/-!
# Matches

A match tells for each capture group which bytes of the text the group took. Group zero is the
whole match, and a group that did not take part has no span. Spans also come from outside, so
nothing is assumed about them: one that is out of order, out of range or cuts a character names no
text. A search finds a match by its places, which are numbers of characters; no place cuts a character.

- `Span`, `Groups`: byte ranges, and one or none for each group.
- `Groups.text?`: the text that a group took.
- `Found`: a match, by its span and its groups.
- `Match`, `Match.found`: a match by places, and by the offsets of its places.
- `Match.IsFirst`: the match is the first occurrence of a text.
-/

namespace Highlight

/-- A range of bytes, from `start` up to `stop`. -/
structure Span where
  start : Nat
  stop : Nat
deriving DecidableEq, Inhabited

/-- For each capture group the span that it took, if it took part. -/
abbrev Groups := List (Option Span)

/-- The text that a span names. -/
def Span.text? (s : Span) (text : List Char) : Option (List Char) :=
  Text.slice? text s.start s.stop

namespace Groups

/-- The span that a group took. -/
def span? (groups : Groups) (group : Nat) : Option Span := (groups[group]?).join

/-- The text that a group took. -/
def text? (groups : Groups) (text : List Char) (group : Nat) : Option (List Char) :=
  (groups.span? group).bind fun s => s.text? text

end Groups

/-- A match that was found: where it begins and ends, and what its groups took. -/
structure Found where
  start : Nat
  stop : Nat
  groups : Groups
deriving DecidableEq

/-- A match by places: where it begins and ends, and where its groups did, the whole match not counted.
A match does not begin after its end. -/
structure Match where
  start : Nat
  stop : Nat
  groups : List (Option (Nat × Nat))
  start_le_stop : start ≤ stop

namespace Match

/-- The match by its offsets. The whole match is group zero. -/
def found (m : Match) (text : IndexedText) : Found :=
  let span : Nat × Nat → Span := fun (start, stop) => ⟨text.offset start, text.offset stop⟩
  ⟨text.offset m.start, text.offset m.stop,
    some (span (m.start, m.stop)) :: m.groups.map (Option.map span)⟩

/-- A match of some characters without groups. -/
def whole (start length : Nat) : Match := ⟨start, start + length, [], Nat.le_add_right ..⟩

/-- The match is the first occurrence of `part` in a text from a place on, and has no groups. -/
structure IsFirst (m : Match) (part : List Char) (text : IndexedText) (place : Nat) : Prop where
  le_start : place ≤ m.start
  start_le : m.start ≤ text.size
  occurs : part <+: text.text.drop m.start
  first : ∀ earlier, place ≤ earlier → earlier < m.start → ¬ part <+: text.text.drop earlier
  eq_whole : m = .whole m.start part.length

end Match

end Highlight
