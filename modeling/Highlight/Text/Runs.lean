import Highlight.Text.Pieces

/-!
# Sets of codes as runs

The tables of this library are lists of runs of codes. A run is written by its first and last code
in upper case hexadecimal digits, such as `41-5A`; `100-136/2` is every other code, and `AA` is one
code alone. The runs of a table are in ascending order, so that a code is found by halving.

- `Run`, `Runs`: every code of a range, or every other one, and several of these.
- `Runs.ofLines`: the runs that lines of a table spell.
- `Runs.contains`: whether a code is in one of the runs.
- `lastAtMost`: the search by halving, for any table with ascending keys.
-/

namespace Highlight

namespace Text

/-- The value of an upper case hexadecimal digit. -/
def hexValue? (c : Char) : Option Nat :=
  if '0' ≤ c && c ≤ '9' then some (c.toNat - 48)
  else if 'A' ≤ c && c ≤ 'F' then some (c.toNat - 55)
  else none

/-- The number that upper case hexadecimal digits stand for. -/
def hexNumber (digits : List Char) : Nat :=
  digits.foldl (fun n c => 16 * n + (hexValue? c).getD 0) 0

/-- Finds the last index from `low` up to `high` whose key is at most a code, if the first one's is,
halving the range at each step. -/
@[specialize] def lastAtMost (key : Nat → Nat) (code : Nat) : Nat → Nat → Nat → Nat
  | 0, low, _ => low
  | steps + 1, low, high =>
    if high ≤ low + 1 then low
    else
      let middle := (low + high) / 2
      if key middle ≤ code then lastAtMost key code steps middle high
      else lastAtMost key code steps low middle

end Text

/-- Every `step`-th code from `first` to `last`. -/
structure Run where
  first : Nat
  last : Nat
  step : Nat
deriving DecidableEq, Inhabited

namespace Run

/-- The run that a text spells. -/
def ofText (cs : List Char) : Run :=
  let range := cs.takeWhile (· != '/')
  let first := range.takeWhile (· != '-')
  let last := if first.length < range.length then range.drop (first.length + 1) else first
  ⟨Text.hexNumber first, Text.hexNumber last, if range.length < cs.length then 2 else 1⟩

/-- Whether a code is in a run. -/
def contains (r : Run) (code : Nat) : Bool :=
  r.first ≤ code && code ≤ r.last && (code - r.first) % r.step == 0

end Run

/-- Runs in ascending order. -/
abbrev Runs := Array Run

namespace Runs

/-- The runs that the words of some lines spell. -/
def ofLines (lines : List String) : Runs :=
  (lines.flatMap fun line => (Text.words line.toList).map Run.ofText).toArray

/-- Whether a code is in one of the runs. -/
def contains (runs : Runs) (code : Nat) : Bool :=
  let index := Text.lastAtMost (fun i => (runs.getD i default).first) code 32 0 runs.size
  match runs[index]? with
  | some r => r.contains code
  | none => false

end Runs

end Highlight
