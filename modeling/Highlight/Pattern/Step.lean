import Highlight.Pattern.Machine
import Highlight.Text.Cluster

/-!
# The steps of the machine

- `Anchor.holds`: whether a condition holds at a place.
- `State.afterReference?`, `State.tookPart`: what references match.
- `State.roundEnd`: whether a round of a loop took no text.
- `Matcher.carryOut`, `Matcher.step`, `Matcher.run`: carrying out codes and tasks.
-/

namespace Highlight

namespace Pattern

/-! ## Anchors -/

/-- Whether a character belongs to a word. -/
def besideWord (ascii : Bool) : Option Char → Bool
  | some c => Text.isWord c && (!ascii || c.toNat < 128)
  | none => false

/-- Whether a condition holds at a place, for a search that began at the place `origin`. A newline
that ends the text begins no line. -/
def Anchor.holds (text : IndexedText) (origin place : Nat) : Anchor → Bool
  | .lineStart => place = 0 || (text.charBefore? place == some '\n' && place < text.size)
  | .lineEnd => text.size ≤ place || text.charAt? place == some '\n'
  | .textStart => place = 0
  | .textEnd => text.size ≤ place
  | .lastLineEnd =>
    text.size ≤ place || (place + 1 == text.size && text.charAt? place == some '\n')
  | .searchStart => place = origin
  | .wordEdge ascii negated =>
    (besideWord ascii (text.charBefore? place) != besideWord ascii (text.charAt? place)) != negated
  | .clusterEdge negated =>
    Text.isClusterBoundary (text.text.take place).reverse (text.text.drop place) != negated

/-! ## References -/

/-- Where a text ends that follows at a place and is equal, in at most the given number of
characters, to the text from `start` to `stop`. -/
def sameText? (text : IndexedText) (limit : Nat) : Nat → Nat → Nat → Nat → Option Nat
  | 0, _, _, _ => none
  | steps + 1, start, stop, place =>
    if stop ≤ start then some place
    else if place < limit && text.charAt? start == text.charAt? place then
      sameText? text limit steps (start + 1) stop (place + 1)
    else none

/-- The same for texts that are equal where case does not count. Not more bytes than in the first
text are taken, up to the offset `bound`. -/
def foldedText? (text : IndexedText) (rule : CaseRule) (bound : Nat) :
    Nat → Nat → Nat → Nat → Option Nat
  | 0, _, _, _ => none
  | steps + 1, start, stop, place =>
    if stop ≤ start then some place
    else
      match text.charAt? start, text.charAt? place with
      | some a, some b =>
        if text.offset (place + 1) ≤ bound && rule.foldWhole a.toNat == rule.foldWhole b.toNat then
          foldedText? text rule bound steps (start + 1) stop (place + 1)
        else none
      | _, _ => none

/-- What comparing with the text of a group tells. -/
inductive Comparison where
  | equal (stop : Nat)
  | different
  /-- The text that is left is shorter. -/
  | tooShort

/-- Compares the text from `start` to `stop` with the one that follows at a place. -/
def compareAt (text : IndexedText) (rule : CaseRule) (limit start stop place : Nat) : Comparison :=
  let length := text.offset stop - text.offset start
  if stop ≤ start then .equal place
  else if text.offset limit < text.offset place + length then .tooShort
  else
    let steps := stop - start + 1
    let found :=
      if rule = .exact then sameText? text limit steps start stop place
      else foldedText? text rule (text.offset place + length) steps start stop place
    match found with
    | some stop => .equal stop
    | none => .different

namespace State

/-- Where the text ends that one of several groups took and that follows; the groups are tried one
after the other. -/
def afterGroups? (s : State) (text : IndexedText) (rule : CaseRule) : List Nat → Option Nat
  | [] => none
  | g :: groups =>
    match (s.takenBy g).places? with
    | none => s.afterGroups? text rule groups
    | some (start, stop) =>
      match compareAt text rule s.limit start stop s.place with
      | .equal stop => some stop
      | .tooShort => none
      | .different => s.afterGroups? text rule groups

/-- Where a group began and ended last at a level of calls, counted from the one that the stack is
at, with the place where it ended if that is known already. -/
def placesAtLevel? (groups : List Nat) (wanted : Int) :
    List Entry → Int → Option Nat → Option (Nat × Nat)
  | [], _, _ => none
  | .called :: stack, level, stop => placesAtLevel? groups wanted stack (level - 1) stop
  | .returned :: stack, level, stop => placesAtLevel? groups wanted stack (level + 1) stop
  | .opened group place _ :: stack, level, stop =>
    match stop with
    | some stop =>
      if level = wanted && groups.contains group then some (place, stop)
      else placesAtLevel? groups wanted stack level (some stop)
    | none => placesAtLevel? groups wanted stack level none
  | .closed group place _ :: stack, level, stop =>
    placesAtLevel? groups wanted stack level
      (if level = wanted && groups.contains group then some place else stop)
  | _ :: stack, level, stop => placesAtLevel? groups wanted stack level stop

/-- Whether a group ended at a level of calls, counted from the one that the stack is at. -/
def endedAtLevel (groups : List Nat) (wanted : Int) : List Entry → Int → Bool
  | [], _ => false
  | .called :: stack, level => endedAtLevel groups wanted stack (level - 1)
  | .returned :: stack, level => endedAtLevel groups wanted stack (level + 1)
  | .closed group _ _ :: stack, level =>
    (level = wanted && groups.contains group) || endedAtLevel groups wanted stack level
  | _ :: stack, level => endedAtLevel groups wanted stack level

/-- Where the text ends that a reference stands for. -/
def afterReference? (s : State) (text : IndexedText) (r : BackReference) : Option Nat :=
  match r.level with
  | none => s.afterGroups? text r.rule r.groups
  | some level =>
    match placesAtLevel? r.groups level s.stack 0 none with
    | some (start, stop) =>
      match compareAt text r.rule s.limit start stop s.place with
      | .equal stop => some stop
      | _ => none
    | none => none

/-- Whether one of the groups that a reference names took part. -/
def tookPart (s : State) (r : BackReference) : Bool :=
  match r.level with
  | none => r.groups.any fun g => (s.takenBy g).places?.isSome
  | some level => endedAtLevel r.groups level s.stack 0

end State

/-! ## Rounds -/

/-- How a round of a loop went. -/
inductive RoundEnd where
  | goOn
  /-- It changed nothing. -/
  | last
  | fail
deriving DecidableEq

/-- How a round went that took no text and ends at a place, from the groups that were entered in it,
in their order. -/
def groupsEnd (watched : List Nat) (place : Nat) : RoundEnd → List Entry → RoundEnd
  | sofar, [] => sofar
  | sofar, .opened group _ before :: later =>
    if watched.contains group then
      match before.stop with
      | none => .goOn
      | some stop =>
        if before.start != some stop then .goOn
        else if stop != place then groupsEnd watched place .fail later
        else groupsEnd watched place sofar later
    else groupsEnd watched place sofar later
  | sofar, _ :: later => groupsEnd watched place sofar later

/-- How a round went that began at a place, at a height of the stack. -/
def State.roundEnd (s : State) (place height : Nat) : EmptyCheck → RoundEnd
  | .none => .goOn
  | .place => if s.place = place then .last else .goOn
  | .groups watched =>
    if s.place = place then
      groupsEnd watched s.place .last (s.stack.take (s.height - height)).reverse
    else .goOn

/-! ## Steps -/

/-- What a match depends on besides its code: the text, the place where the search began and the
codes of the groups that are called. -/
structure Matcher where
  text : IndexedText
  origin : Nat
  called : Array Code

namespace Matcher

/-- How many calls there can be one in the other. -/
def mostCalls : Nat := 24

/-- The place behind the characters of a set that follow, at most as many as are given. -/
def placeAfter (m : Matcher) (set : CharSet) (limit : Nat) : Nat → Nat → Nat
  | 0, place => place
  | n + 1, place =>
    if h : place < m.text.chars.size then
      if place < limit && set.contains m.text.chars[place] then placeAfter m set limit n (place + 1)
      else place
    else place

/-- The place behind a text that follows. -/
def placeAfterText? (m : Matcher) (limit : Nat) : List Char → Nat → Option Nat
  | [], place => some place
  | c :: cs, place =>
    if h : place < m.text.chars.size then
      if place < limit && m.text.chars[place] == c then placeAfterText? m limit cs (place + 1)
      else none
    else none

/-- Characters of a set, as many times as a repetition says. -/
def takeMany (m : Matcher) (times : Repetition) (set : CharSet) (tasks : List Task) (s : State) :
    Option State :=
  let least := s.place + times.least
  if times.lazy then
    if m.placeAfter set s.limit times.least s.place = least then
      let s := { s with tasks := tasks, place := least }
      let left := times.most.map (· - times.least)
      some (if left = some 0 then s else s.push (.longer tasks set least left))
    else s.goBack m.text
  else
    let most := m.placeAfter set s.limit (times.most.getD (s.limit - s.place)) s.place
    if most < least then s.goBack m.text
    else
      let s := { s with tasks := tasks, place := most }
      some (if least < most then s.push (.shorter tasks least (most - 1)) else s)

/-- Begins a round of a loop. -/
def startRound (isLazy : Bool) (check : EmptyCheck) (body : Code) (tasks : List Task) (s : State) :
    State :=
  { s with tasks := .code body :: .endRound isLazy check body s.place s.height :: tasks }

/-- The loop from the start of an optional round on. -/
def goRound (isLazy : Bool) (check : EmptyCheck) (body : Code) (tasks : List Task) (s : State) :
    State :=
  if isLazy then
    { s with tasks := tasks }.push (.choice (.startRound isLazy check body :: tasks) s.place)
  else startRound isLazy check body tasks (s.push (.choice tasks s.place))

/-- Begins a counted round. -/
def startCount (times : Repetition) (check : EmptyCheck) (body : Code) (done : Nat)
    (tasks : List Task) (s : State) : State :=
  { s with tasks := .code body :: .endCount times check body done s.place s.height :: tasks }

/-- The counted rounds when a number of them are done. -/
def goCount (times : Repetition) (check : EmptyCheck) (body : Code) (done : Nat)
    (tasks : List Task) (s : State) : State :=
  if times.most.any (· ≤ done) then { s with tasks := tasks }
  else if done < times.least then startCount times check body done tasks s
  else if times.lazy then
    { s with tasks := tasks }.push (.choice (.startCount times check body done :: tasks) s.place)
  else startCount times check body done tasks (s.push (.choice tasks s.place))

/-- A look-behind. One that can begin at several places ends where it was asked, which is where the
text ends for its body. -/
def goBehind (m : Matcher) (negated : Bool) (reach : Reach) (body : Code) (tasks : List Task)
    (s : State) : Option State :=
  let place := s.place
  let height := s.height
  let fixed := reach.most == some reach.least
  let s :=
    if negated then
      s.push (.choice (if fixed then tasks else .limit s.limit :: tasks) place)
    else if fixed then s
    else s.push (.unlimit s.limit)
  let s :=
    if fixed then
      let last := if negated then Task.refuse height else .resume height place
      { s with tasks := .code body :: last :: tasks }
    else
      let last := if negated then [Task.limit s.limit, .refuse height]
        else .cut height :: .limit s.limit :: tasks
      { s with tasks := .code body :: .atLimit :: last, limit := place }
  if place < reach.least then s.goBack m.text
  else
    let s := { s with place := place - reach.least }
    some (if fixed then s
      else s.push (.farther s.tasks s.place (reach.most.map (· - reach.least))))

/-- Moves the end of the text, or keeps a place. -/
def mark (b : Bookmark) (m : Matcher) (s : State) : State :=
  let saved (slot : Nat) (instead : Nat) : Nat := (State.savedIn slot s.stack).getD instead
  match b with
  | .saveLimit slot => s.push (.saved slot s.limit)
  | .savePlace slot => s.push (.saved slot s.place)
  | .restoreLimit slot => { s with limit := saved slot s.limit }
  | .limitToPlace slot => { s with limit := saved slot s.limit }
  | .restorePlace slot => { s with place := saved slot s.place }
  | .clearLimit => { s with limit := m.text.size }

/-- Carries out a code and then other tasks. -/
def carryOut (m : Matcher) (tasks : List Task) (s : State) : Code → Option State
  | .nothing => some { s with tasks := tasks }
  | .never => s.goBack m.text
  | .text chars =>
    match m.placeAfterText? s.limit chars s.place with
    | some place => some { s with tasks := tasks, place := place }
    | none => s.goBack m.text
  | .one set =>
    if h : s.place < m.text.chars.size then
      if s.place < s.limit && set.contains m.text.chars[s.place] then
        some { s with tasks := tasks, place := s.place + 1 }
      else s.goBack m.text
    else s.goBack m.text
  | .many times set => m.takeMany times set tasks s
  | .seq a b => some { s with tasks := .code a :: .code b :: tasks }
  | .alt a b => some ({ s with tasks := .code a :: tasks }.push (.choice (.code b :: tasks) s.place))
  | .loop isLazy entered check body =>
    some (if entered then startRound isLazy check body tasks s
      else goRound isLazy check body tasks s)
  | .counted times check body => some (goCount times check body 0 tasks s)
  | .group number journal body =>
    let before := s.takenBy number
    let s := { s with tasks := .code body :: .close number journal s.place :: tasks }
    some (if journal.start then
        (s.push (.opened number s.place before)).setTaken number ⟨some s.place, none⟩
      else s.setTaken number ⟨some s.place, before.stop⟩)
  | .atomic body => some { s with tasks := .code body :: .cut s.height :: tasks }
  | .ahead false body => some { s with tasks := .code body :: .resume s.height s.place :: tasks }
  | .ahead true body =>
    some ({ s with tasks := [.code body, .refuse s.height] }.push (.choice tasks s.place))
  | .behind negated reach body => m.goBehind negated reach body tasks s
  | .conditional condition yes no =>
    some ({ s with tasks := .code condition :: .cut s.height :: .code yes :: tasks }.push
      (.choice (.code no :: tasks) s.place))
  | .reference r =>
    match s.afterReference? m.text r with
    | some place => some { s with tasks := tasks, place := place }
    | none => s.goBack m.text
  | .taken r => if s.tookPart r then some { s with tasks := tasks } else s.goBack m.text
  | .call group =>
    if mostCalls ≤ s.level then s.goBack m.text
    else
      some ({ s with
        tasks := .code (m.called.getD group .never) :: .comeBack :: tasks
        level := s.level + 1 }.push .called)
  | .anchor a =>
    if a.holds m.text m.origin s.place then some { s with tasks := tasks } else s.goBack m.text
  | .keep => some ({ s with tasks := tasks, keep := s.place }.push (.kept s.keep))
  | .bookmark b => some (mark b m { s with tasks := tasks })

/-- Carries out a task and then other tasks. -/
def step (m : Matcher) (tasks : List Task) (s : State) : Task → Option State
  | .code c => m.carryOut tasks s c
  | .startRound isLazy check body => some (startRound isLazy check body tasks s)
  | .endRound isLazy check body place height =>
    match s.roundEnd place height check with
    | .goOn => some (goRound isLazy check body tasks s)
    | .last => some { s with tasks := tasks }
    | .fail => s.goBack m.text
  | .startCount times check body done => some (startCount times check body done tasks s)
  | .endCount times check body done place height =>
    match s.roundEnd place height check with
    | .goOn => some (goCount times check body (done + 1) tasks s)
    | .last => some { s with tasks := tasks }
    | .fail => s.goBack m.text
  | .close number journal start =>
    let before := s.takenBy number
    let s := { s with tasks := tasks }
    let s := if journal.stop then s.push (.closed number s.place before) else s
    some (s.setTaken number
      ⟨if journal.recursive then some start else before.start, some s.place⟩)
  | .cut height => some { s.cutTo height with tasks := tasks }
  | .resume height place => some { s.cutTo height with tasks := tasks, place := place }
  | .refuse height => (s.undoTo height).goBack m.text
  | .atLimit => if s.place = s.limit then some { s with tasks := tasks } else s.goBack m.text
  | .limit place => some { s with tasks := tasks, limit := place }
  | .comeBack => some ({ s with tasks := tasks, level := s.level - 1 }.push .returned)

/-- Carries out all tasks, in at most the given number of steps. -/
def run (m : Matcher) : Nat → State → Option State
  | 0, _ => none
  | steps + 1, s =>
    match s.tasks with
    | [] => some s
    | task :: tasks =>
      match m.step tasks s task with
      | some s => run m steps s
      | none => none

end Matcher

end Pattern

end Highlight
