import Highlight.Pattern.GroupTable

/-!
# How repetitions are carried out

A repetition is carried out by copies of what is repeated, by a loop or by counting, and which of
them it is shows when a round takes no text. It depends on the size of what is repeated, which is
measured in steps.

- `Rounds`, `Repetition.rounds`: the ways to carry out a repetition.
- `Node.fixedText?`: a repeated text that is itself a text.
- `Node.stepCount`: the size of a tree.
-/

namespace Highlight

namespace Pattern

/-- How a repetition is carried out. -/
inductive Rounds where
  /-- There is nothing to match. -/
  | none
  /-- A number of copies and then a loop. `entered` says that the first round is not optional. -/
  | loop (copies : Nat) (entered : Bool)
  /-- A number of copies and then optional ones, one in the other. -/
  | copies (needed optional : Nat)
  /-- The rest of the pattern, and if that fails one copy. -/
  | option
  | counted
deriving DecidableEq

/-- The number of steps up to which copies are made. -/
def mostCopied : Nat := 10

/-- How a repetition of something of the given size is carried out. -/
def Repetition.rounds (times : Repetition) (size : Nat) : Rounds :=
  if size = 0 || times.most = some 0 then .none
  else
    match times.most with
    | .none =>
      if times.least = 1 && mostCopied < size then .loop 0 true
      else if times.least ≤ 1 || size * times.least ≤ mostCopied then .loop times.least false
      else .counted
    | some most =>
      if !times.lazy && (most = 1 || (size + 1) * most ≤ mostCopied) then
        .copies times.least (most - times.least)
      else if times.lazy && most = 1 && times.least = 0 then .option
      else .counted

/-- The number of bytes of a character by its code. -/
def codeSize (code : Nat) : Nat :=
  if code < 0x80 then 1 else if code < 0x800 then 2 else if code < 0x10000 then 3 else 4

/-- The number of bytes of a text by its codes. -/
def codesSize (codes : List Nat) : Nat := codes.foldl (fun size code => size + codeSize code) 0

/-- The most bytes of a text that stands for a repeated one. -/
def mostRepeatedText : Nat := 100

namespace Node

/-- The text that a text repeated a fixed number of times is, if it is short. -/
def fixedText? (times : Repetition) : Node → Option (List Nat)
  | .text .exact codes =>
    match times.fixed? with
    | some n =>
      if 1 < n && n ≤ mostRepeatedText && codesSize codes * n ≤ mostRepeatedText then
        some (List.replicate n codes).flatten
      else none
    | none => none
  | _ => none

/-- The number of runs of characters with equally many bytes. -/
def runCount : List Nat → Nat
  | [] => 0
  | [_] => 1
  | a :: b :: rest => (if codeSize a = codeSize b then 0 else 1) + runCount (b :: rest)

/-- Whether a tree is a character that nothing but a newline can be excepted from. -/
def isAnyChar : Node → Bool
  | .one set => set = .all || set = .inLine
  | _ => false

/-- Whether a tree is a text or one character of a set. -/
def isText : Node → Bool
  | .text _ codes => !codes.isEmpty
  | .one _ => true
  | _ => false

/-- The steps for a repetition of something of the given size, `checked` saying that its rounds are
checked for text. -/
def roundSteps (times : Repetition) (size : Nat) (checked : Bool) : Nat :=
  let round := if checked then size + 2 else size
  match times.rounds size with
  | .none => 0
  | .loop copies entered => (if entered then 1 else copies * size) + round + 2
  | .copies needed optional => needed * size + optional * (size + 1)
  | .option => size + 2
  | .counted => round + 2

/-- The steps of a repeated tree, given its own. -/
def repeatedSteps (table : GroupTable) (times : Repetition) (body : Node) (size : Nat) : Nat :=
  match fixedText? times body with
  | some codes => runCount codes
  | none =>
    if body.isAnyChar && !times.lazy && times.most.isNone
        && (times.least ≤ 1 || times.least ≤ mostCopied) then times.least + 1
    else roundSteps times size (!table.takesText body)

/-- The size of a tree in steps. -/
def stepCount (table : GroupTable) : Node → Nat
  | .text _ codes => runCount codes
  | .one _ => 1
  | .seq a b => a.stepCount table + b.stepCount table
  | .alt a b => a.stepCount table + b.stepCount table + 2
  | .plain body => body.stepCount table
  | .repeated times body => repeatedSteps table times body (body.stepCount table)
  | .group number body =>
    body.stepCount table + (if table.called.contains number then 5 else 2)
  | .atomic (.repeated times body) =>
    let size := body.stepCount table
    if times.most.isNone && times.least ≤ 1 && !times.lazy && body.isText then
      times.least * size + size + 3
    else repeatedSteps table times body size + 2
  | .atomic body => body.stepCount table + 2
  | .ahead negated body => body.stepCount table + (if negated then 5 else 2)
  | .behind negated reach body =>
    let fixed := reach.most == some reach.least
    body.stepCount table +
      (match negated, fixed with
      | false, true => 3
      | false, false => 12
      | true, true => 6
      | true, false => 14)
  | .conditional c yes no =>
    c.stepCount table + yes.stepCount table + no.stepCount table + 5
  | .reference _ | .taken _ | .call _ | .anchor _ | .keep | .bookmark _ _ | .pass | .never => 1

end Node

end Pattern

end Highlight
