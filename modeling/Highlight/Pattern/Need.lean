import Highlight.Pattern.Code

/-!
# What a match needs

Where a match can begin is narrowed down beforehand: by the characters that it can begin with, and by
characters that it has to take somewhere. A place that is passed over for this reason has no match.

- `Lead`, `Code.lead`: the characters that a match can begin with.
- `Need`, `Code.needs`: characters in a row that a match has to take.
- `Need.lastStart?`: the last place at which a match can begin.
-/

namespace Highlight

namespace Pattern

/-- The characters that a match of a code can begin with. -/
structure Lead where
  set : CharSet
  /-- Whether there can be a match that takes no characters. -/
  passes : Bool

namespace Lead

/-- A match of any kind. -/
def anything : Lead := ⟨.all, true⟩

/-- A match that takes no characters. -/
def nothing : Lead := ⟨.empty, true⟩

/-- A match of one code and then of another. -/
def andThen (a b : Lead) : Lead := if a.passes then ⟨.union a.set b.set, b.passes⟩ else a

/-- A match of one code or another. -/
def orElse (a b : Lead) : Lead := ⟨.union a.set b.set, a.passes || b.passes⟩

end Lead

namespace Code

/-- The characters that a match can begin with. -/
def lead : Code → Lead
  | .never => ⟨.empty, false⟩
  | .text [] => .nothing
  | .text (c :: _) => ⟨.single c.toNat, false⟩
  | .one set => ⟨set, false⟩
  | .many times set => ⟨set, times.least = 0⟩
  | .seq a b => a.lead.andThen b.lead
  | .alt a b => a.lead.orElse b.lead
  | .loop _ entered _ body => if entered then body.lead else { body.lead with passes := true }
  | .counted times _ body =>
    if times.least = 0 then { body.lead with passes := true } else body.lead
  | .group _ _ body => body.lead
  | .atomic body => body.lead
  | .conditional c yes no => (c.lead.andThen yes.lead).orElse no.lead
  | .reference _ | .call _ | .bookmark _ => .anything
  | .nothing | .ahead _ _ | .behind _ _ _ | .taken _ | .anchor _ | .keep => .nothing

/-- The least number of characters that a match takes, as far as it is known. -/
def leastLength : Code → Nat
  | .text chars => chars.length
  | .one _ => 1
  | .many times _ => times.least
  | .seq a b => a.leastLength + b.leastLength
  | .alt a b => min a.leastLength b.leastLength
  | .loop _ entered _ body => if entered then body.leastLength else 0
  | .counted times _ body => if times.least = 0 then 0 else body.leastLength
  | .group _ _ body => body.leastLength
  | .atomic body => body.leastLength
  | _ => 0

/-- Whether a code has a loop, so that matching it can take long. -/
def hasLoop : Code → Bool
  | .loop _ _ _ _ | .counted _ _ _ => true
  | .seq a b => a.hasLoop || b.hasLoop
  | .alt a b => a.hasLoop || b.hasLoop
  | .group _ _ body => body.hasLoop
  | .atomic body => body.hasLoop
  | .ahead _ body => body.hasLoop
  | .behind _ _ body => body.hasLoop
  | .conditional c yes no => c.hasLoop || yes.hasLoop || no.hasLoop
  | _ => false

/-- Whether a match moves on without turning back: it calls no group and keeps no place. -/
def isForward : Code → Bool
  | .call _ | .bookmark _ => false
  | .seq a b => a.isForward && b.isForward
  | .alt a b => a.isForward && b.isForward
  | .loop _ _ _ body => body.isForward
  | .counted _ _ body => body.isForward
  | .group _ _ body => body.isForward
  | .atomic body => body.isForward
  | .ahead _ body => body.isForward
  | .behind _ _ body => body.isForward
  | .conditional c yes no => c.isForward && yes.isForward && no.isForward
  | _ => true

end Code

/-- Characters in a row that a match has to take. -/
structure Need where
  /-- The least number of characters that it takes before them. -/
  distance : Nat
  row : List CharSet
deriving DecidableEq

/-- Needs while they are collected: the finished ones, and the row that can be continued, last
character first. -/
structure Needs where
  finished : List Need
  /-- The least number of characters so far. -/
  length : Nat
  row : List CharSet

namespace Needs

/-- No needs. -/
def none : Needs := ⟨[], 0, []⟩

/-- Ends the row. -/
def finish (n : Needs) : Needs :=
  if n.row.isEmpty then n
  else { n with finished := ⟨n.length - n.row.length, n.row.reverse⟩ :: n.finished, row := [] }

/-- Adds a character of a set. -/
def add (n : Needs) (set : CharSet) : Needs :=
  { n with length := n.length + 1, row := set :: n.row }

/-- The most characters of a row that are the same. -/
def mostAlike : Nat := 16

/-- Adds a number of characters of a set. -/
def addMany (n : Needs) (set : CharSet) (count : Nat) : Needs :=
  if count ≤ mostAlike then (List.replicate count set).foldl add n
  else
    let n := ((List.replicate mostAlike set).foldl add n).finish
    { n with length := n.length + (count - mostAlike) }

end Needs

/-- Collects what a match of a code needs, after other needs. -/
def Code.collect : Code → Needs → Needs
  | .text chars, n => chars.foldl (fun n c => n.add (.single c.toNat)) n
  | .one set, n => n.add set
  | .many times set, n =>
    let n := n.addMany set times.least
    if times.most = some times.least then n else n.finish
  | .seq a b, n => b.collect (a.collect n)
  | .alt a b, n =>
    let n := n.finish
    let heads := (Code.alt a b).lead
    let least := (Code.alt a b).leastLength
    if heads.passes then n
    else
      let n := (n.add heads.set).finish
      { n with length := n.length + (least - 1) }
  | .loop _ entered _ body, n => if entered then (body.collect n).finish else n.finish
  | .counted times _ body, n => if times.least = 0 then n.finish else (body.collect n).finish
  | .group _ _ body, n => body.collect n
  | .atomic body, n => body.collect n
  | .conditional _ _ _, n => n.finish
  | .reference _, n => n.finish
  | .nothing, n | .never, n | .ahead _ _, n | .behind _ _ _, n | .taken _, n | .anchor _, n
  | .keep, n | .call _, n | .bookmark _, n => n

/-- What a match of a code needs, if it can take long to find out whether there is one. -/
def Code.needs (code : Code) : List Need :=
  if code.hasLoop && code.isForward then (code.collect .none).finish.finished else []

/-- Whether characters in a row are at a place. -/
def rowAt (chars : Array Char) : List CharSet → Nat → Bool
  | [], _ => true
  | set :: row, place =>
    match chars[place]? with
    | some c => set.contains c && rowAt chars row (place + 1)
    | none => false

namespace Need

/-- The last of the given number of first places at which the characters are. -/
def lastPlace? (need : Need) (chars : Array Char) : Nat → Option Nat
  | 0 => none
  | place + 1 => if rowAt chars need.row place then some place else need.lastPlace? chars place

/-- The last place at which a match with the need can begin. -/
def lastStart? (need : Need) (chars : Array Char) : Option Nat :=
  match need.lastPlace? chars chars.size with
  | some place => if need.distance ≤ place then some (place - need.distance) else none
  | none => none

end Need

end Pattern

end Highlight
