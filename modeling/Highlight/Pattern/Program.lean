import Highlight.Match
import Highlight.Pattern.LookBehind
import Highlight.Pattern.Need
import Highlight.Pattern.Step

/-!
# Programs

A program is a pattern that is ready to be matched.

- `Program`, `Program.read`: the program for a text.
- `Program.matchAt?`, `Program.search?`: the match that begins at a place, and the first one that
  begins at a place or after it.
-/

namespace Highlight

namespace Pattern

/-- A pattern that is ready to be matched. -/
structure Program where
  code : Code
  /-- The codes of the groups that are called, by number. -/
  called : Array Code
  /-- The number of capture groups, the whole match not counted. -/
  groupCount : Nat
  /-- Whether the longest match is searched for instead of the first one. -/
  longest : Bool
  /-- The characters that a match begins with, unless it can be empty. -/
  lead : Option CharSet
  needs : List Need
deriving DecidableEq

namespace Program

/-- The program for a pattern in which all that is referred to exists. -/
def ofResolved (r : Resolved) : Except PatternFault Program := do
  let node ← r.prepare
  let context := CodeContext.ofNode r.table node
  let code := Code.ofNode context node
  let called := node.groups.foldl (fun called (number, body) =>
    if r.table.called.contains number then
      called.setIfInBounds number
        (.group number (context.journal number) (Code.ofNode context body))
    else called) (Array.replicate (r.groupCount + 1) .never)
  let lead := code.lead
  return ⟨code, called, r.groupCount, r.longest, if lead.passes then none else some lead.set,
    code.needs⟩

/-- The program for a text. -/
def read (cs : List Char) : Except PatternFault Program := do
  ofResolved (← (← Draft.read cs).resolve)

/-- A bound on the steps of the machine. -/
def mostSteps : Nat := 4611686018427387904

/-- The match that a state of the machine without tasks stands for. A match does not begin after its
end. -/
def matchOf (s : State) : Match :=
  ⟨min s.keep s.place, s.place, (s.taken.toList.drop 1).map Taken.places?, Nat.min_le_right ..⟩

/-- The longest match among those that the machine comes to, if it is longer than the given one. The
match begins at `start`. -/
def longestFrom (m : Matcher) (start : Nat) :
    Nat → State → Option (Nat × Match) → Option (Nat × Match)
  | 0, _, best => best
  | rounds + 1, s, best =>
    match m.run mostSteps s with
    | none => best
    | some s =>
      let length := s.place - start
      let best :=
        if best.all fun (other, _) => other < length then some (length, matchOf s) else best
      match s.goBack m.text with
      | none => best
      | some s => longestFrom m start rounds s best

/-- The machine at a place. -/
def initial (p : Program) (m : Matcher) (place : Nat) : State :=
  .initial p.code p.groupCount m.text.size place

/-- Whether a match can begin at a place. -/
def canBegin (p : Program) (text : IndexedText) (place : Nat) : Bool :=
  match p.lead with
  | none => true
  | some set => if h : place < text.chars.size then set.contains text.chars[place] else false

/-- The match that begins at a place. -/
def matchAt? (p : Program) (m : Matcher) (place : Nat) : Option Match :=
  (m.run mostSteps (p.initial m place)).map matchOf

/-- The match that begins at a place, if one can begin there. -/
def tryAt? (p : Program) (m : Matcher) (place : Nat) : Option Match :=
  if p.canBegin m.text place then p.matchAt? m place else none

/-- The first match that begins at a place or at one of the `steps` places after it. -/
def searchFrom? (p : Program) (m : Matcher) : Nat → Nat → Option Match
  | steps, place =>
    match p.tryAt? m place with
    | some found => some found
    | none =>
      match steps with
      | 0 => none
      | steps + 1 => searchFrom? p m steps (place + 1)

/-- With no steps left, a search tries one place. -/
theorem searchFrom?_zero (p : Program) (m : Matcher) (place : Nat) :
    p.searchFrom? m 0 place = p.tryAt? m place := by
  unfold searchFrom?
  cases p.tryAt? m place <;> rfl

/-- A search tries a place, and the next one only if there is no match. -/
theorem searchFrom?_succ (p : Program) (m : Matcher) (steps place : Nat) :
    p.searchFrom? m (steps + 1) place =
      (p.tryAt? m place).or (p.searchFrom? m steps (place + 1)) := by
  rw [searchFrom?]
  cases p.tryAt? m place <;> rfl

/-- The longest of the matches that begin at a place or at one of the `steps` places after it; the
first of them. -/
def longestOf (p : Program) (m : Matcher) : Nat → Nat → Option (Nat × Match) → Option (Nat × Match)
  | steps, place, best =>
    let best :=
      if p.canBegin m.text place then
        longestFrom m place mostSteps (p.initial m place) best
      else best
    match steps with
    | 0 => best
    | steps + 1 => longestOf p m steps (place + 1) best

/-- The last place at which a match can begin. -/
def lastStart? (p : Program) (text : IndexedText) : Option Nat :=
  p.needs.foldlM (fun last need => (need.lastStart? text.chars).map (min last)) text.size

/-- The match that is found from a place on, for a search that began at the place `origin`. -/
def search? (p : Program) (text : IndexedText) (origin place : Nat) : Option Match :=
  match p.lastStart? text with
  | none => none
  | some last =>
    if last < place then none
    else
      let m : Matcher := ⟨text, origin, p.called⟩
      if p.longest then (p.longestOf m (last - place) place none).map (·.2)
      else p.searchFrom? m (last - place) place

end Program

end Pattern

end Highlight
