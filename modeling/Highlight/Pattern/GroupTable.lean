import Highlight.Pattern.Node

/-!
# The groups of a pattern

References and calls make a part of a pattern depend on groups elsewhere in it. A table keeps what
has to be known of each group.

- `Node.takesText`: whether a tree takes text whenever it matches, given the groups that do.
- `GroupTable`, `GroupTable.ofNode`: what is known of the groups of a pattern.
- `GroupTable.isRecursive`, `GroupTable.leadsBack`: groups that lead back to themselves.
-/

namespace Highlight

namespace Pattern

namespace Node

/-- The bodies of the capture groups of a tree by their numbers. -/
def groups (n : Node) : List (Nat × Node) :=
  n.nodes.filterMap fun
    | .group number body => some (number, body)
    | _ => none

/-- The groups that a tree calls. -/
def calledGroups (n : Node) : List Nat :=
  n.nodes.filterMap fun
    | .call (.number callee _) => some callee
    | _ => none

/-- The groups that a tree refers to, once for each reference. -/
def referredGroups (n : Node) : List Nat :=
  n.nodes.flatMap fun
    | .reference r => r.groups
    | .taken r => r.groups
    | _ => []

/-- The groups that can be entered when a tree is matched, without those that other groups enter. -/
def enteredGroups (n : Node) : List Nat := n.groups.map (·.1) ++ n.calledGroups

/-- Whether a tree takes text whenever it matches, given whether groups do. -/
def takesText (taking : Nat → Bool) : Node → Bool
  | .text _ codes => !codes.isEmpty
  | .one _ => true
  | .seq a b => a.takesText taking || b.takesText taking
  | .alt a b => a.takesText taking && b.takesText taking
  | .plain body => body.takesText taking
  | .repeated times body => times.least != 0 && body.takesText taking
  | .group _ body => body.takesText taking
  | .atomic body => body.takesText taking
  | .conditional c yes no =>
    (c.takesText taking || yes.takesText taking) && no.takesText taking
  | .reference r => !r.inside && r.groups.all taking
  | .call (.number callee _) => taking callee
  | .never => true
  | _ => false

end Node

/-- What is known of the groups of a pattern. -/
structure GroupTable where
  bodies : Array (Option Node)
  /-- Whether a group takes text whenever it matches. -/
  taking : Array Bool
  /-- The groups that are called. -/
  called : List Nat
  /-- The groups that are referred to, once for each reference. -/
  referred : List Nat
  /-- The groups that can be entered while one is matched. -/
  entered : Array (List Nat)

namespace GroupTable

/-- The groups that take text, from those of which it is known so far. -/
def takingRound (groups : List (Nat × Node)) (taking : Array Bool) : Array Bool :=
  groups.foldl (fun taking (number, body) =>
    taking.setIfInBounds number (body.takesText fun g => taking.getD g false)) taking

/-- Goes on in rounds until nothing new is known, at most a given number of times. -/
def takingGroups (groups : List (Nat × Node)) : Nat → Array Bool → Array Bool
  | 0, taking => taking
  | rounds + 1, taking =>
    let next := takingRound groups taking
    if next == taking then taking else takingGroups groups rounds next

/-- The groups that can be entered from those of `front`, besides those that have been `seen`, in at
most a given number of steps. -/
def enteredFrom (bodies : Array (Option Node)) : Nat → List Nat → List Nat → List Nat
  | 0, seen, _ => seen
  | steps + 1, seen, front =>
    let all := front.flatMap fun g => (bodies.getD g none).elim [] Node.enteredGroups
    let next := all.eraseDups.filter fun g => !seen.contains g
    if next.isEmpty then seen else enteredFrom bodies steps (seen ++ next) next

/-- The table for a pattern with the given number of groups. -/
def ofNode (n : Node) (count : Nat) : GroupTable :=
  let groups := n.groups
  let called := n.calledGroups.eraseDups
  let referred := n.referredGroups
  let bodies := groups.foldl (fun bodies (number, body) => bodies.setIfInBounds number (some body))
    (Array.replicate (count + 1) none)
  let unknown := Array.replicate (count + 1) false
  let taking :=
    if called.isEmpty && referred.isEmpty then unknown
    else takingGroups groups.reverse (count + 1) unknown
  let entered :=
    if called.isEmpty then #[]
    else ((List.range (count + 1)).map fun g => enteredFrom bodies (count + 1) [] [g]).toArray
  ⟨bodies, taking, called, referred, entered⟩

/-- The body of a group. -/
def body? (t : GroupTable) (group : Nat) : Option Node := t.bodies.getD group none

/-- Whether a tree takes text whenever it matches. -/
def takesText (t : GroupTable) (n : Node) : Bool := n.takesText fun g => t.taking.getD g false

/-- Whether a group can be entered while it is matched itself. -/
def isRecursive (t : GroupTable) (group : Nat) : Bool := (t.entered.getD group []).contains group

/-- Whether a call of a group leads back to it, the call being in the body of another group or in
none. -/
def leadsBack (t : GroupTable) (within : Option Nat) (group : Nat) : Bool :=
  within.any fun g => g == group || (t.entered.getD group []).contains g

end GroupTable

end Pattern

end Highlight
