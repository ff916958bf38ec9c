import Highlight.Pattern.GroupTable
import Highlight.Pattern.Reader

/-!
# Patterns that contain themselves

A call stands for the pattern of a group, which can contain the call. That is a pattern only if there
is a way not to go on forever.

- `Reentry`, `Node.reentry`: whether matching a tree leads back to a group.
- `Resolved`, `Draft.resolve`: a pattern in which all that is referred to exists.
-/

namespace Highlight

namespace Pattern

/-- Whether matching a tree leads back to a group. -/
inductive Reentry where
  /-- Some way does not lead back. -/
  | avoidable
  /-- Each way leads back. -/
  | certain
  /-- Some way leads back before any text was taken. -/
  | immediate
deriving DecidableEq

namespace Reentry

/-- For one tree after another. -/
def both : Reentry → Reentry → Reentry
  | .immediate, _ | _, .immediate => .immediate
  | .certain, _ | _, .certain => .certain
  | .avoidable, .avoidable => .avoidable

/-- For one tree or another. -/
def either : Reentry → Reentry → Reentry
  | .immediate, _ | _, .immediate => .immediate
  | .certain, .certain => .certain
  | _, _ => .avoidable

/-- For a tree that can be left out. -/
def optional : Reentry → Reentry
  | .immediate => .immediate
  | _ => .avoidable

end Reentry

/-- Whether matching a tree leads back to a group. `head` says that no text has been taken so far,
`follow` answers for the groups that are called, and `visited` are the groups gone into. -/
def Node.reentry (table : GroupTable) (target : Nat) (follow : List Nat → Bool → Nat → Reentry)
    (visited : List Nat) (head : Bool) : Node → Reentry
  | .seq a b =>
    (a.reentry table target follow visited head).both
      (b.reentry table target follow visited (head && !table.takesText a))
  | .alt a b =>
    (a.reentry table target follow visited head).either
      (b.reentry table target follow visited head)
  | .plain body => body.reentry table target follow visited head
  | .repeated times body =>
    if times.most = some 0 then .avoidable
    else
      let r := body.reentry table target follow visited head
      if times.least = 0 then r.optional else r
  | .group number body =>
    if visited.contains number then .avoidable
    else if number = target then if head then .immediate else .certain
    else body.reentry table target follow (number :: visited) head
  | .atomic body => body.reentry table target follow visited head
  | .ahead _ body => body.reentry table target follow visited head
  | .behind _ _ body => body.reentry table target follow visited head
  | .conditional c yes no =>
    ((c.reentry table target follow visited head).both
      (yes.reentry table target follow visited (head && !table.takesText c))).either
      (no.reentry table target follow visited head)
  | .call (.number callee _) => follow visited head callee
  | _ => .avoidable

namespace GroupTable

/-- Whether entering a group leads back to another one, by at most the given number of calls one in
the other. -/
def reentryOf (t : GroupTable) (target : Nat) : Nat → List Nat → Bool → Nat → Reentry
  | 0, _, _, _ => .avoidable
  | calls + 1, visited, head, group =>
    if visited.contains group then .avoidable
    else if group = target then if head then .immediate else .certain
    else
      match t.body? group with
      | some body => body.reentry t target (reentryOf t target calls) (group :: visited) head
      | none => .avoidable

/-- Whether matching a group goes on forever. -/
def isEndless (t : GroupTable) (group : Nat) : Bool :=
  match t.body? group with
  | some body =>
    body.reentry t group (t.reentryOf group t.bodies.size) [] true != .avoidable
  | none => false

end GroupTable

/-- A pattern in which all that is referred to exists. -/
structure Resolved where
  /-- The tree. Its calls are by number; if the whole pattern is called, it is group zero. -/
  node : Node
  table : GroupTable
  groupCount : Nat
  longest : Bool

namespace Draft

/-- What a call calls. -/
def callee (d : Draft) : CallTarget → Except PatternFault Node
  | .number group written =>
    if d.groupCount < group then .error (.undefinedGroup written)
    else .ok (.call (.number group written))
  | .name name =>
    match (d.names.filter fun (other, _) => other == name).map (·.2) with
    | [] => .error (.undefinedName name)
    | [group] => .ok (.call (.number group name))
    | _ => .error (.ambiguousCall name)

/-- Looks up what is referred to. -/
def resolve (d : Draft) : Except PatternFault Resolved := do
  if d.node.referredGroups.any (d.groupCount < ·) then throw .invalidBackReference
  let node ← d.node.substCalls d.callee
  let node := if node.calledGroups.contains 0 then .group 0 node else node
  let table := GroupTable.ofNode node d.groupCount
  if (List.range (d.groupCount + 1)).any fun g => table.isRecursive g && table.isEndless g then
    throw .endlessRecursion
  return ⟨node, table, d.groupCount, d.longest⟩

end Draft

end Pattern

end Highlight
