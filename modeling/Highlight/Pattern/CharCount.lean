import Highlight.Pattern.GroupTable

/-!
# How many characters a tree takes

A look-behind begins as far back as its tree is long, so the least and the most characters that the
tree takes are counted beforehand.

- `CharCount`: a range of numbers of characters.
- `Node.charCount`: the characters that a tree takes.
- `countChars`: the same, following references and calls into the groups of a pattern.
-/

namespace Highlight

namespace Pattern

/-- How many characters a tree takes. -/
structure CharCount where
  least : Nat
  /-- The most characters, or none if there is no bound. -/
  most : Option Nat
  /-- Whether nothing but the number of characters tells how the tree matches. -/
  sure : Bool

namespace CharCount

/-- A given number of characters. -/
def exactly (n : Nat) : CharCount := ⟨n, some n, true⟩

/-- Any number of characters. -/
def any : CharCount := ⟨0, none, false⟩

/-- No character, for a tree that depends on something else. -/
def unsureZero : CharCount := ⟨0, some 0, false⟩

/-- Whether there is a single number of characters. -/
def isFixed (c : CharCount) : Bool := c.most == some c.least

/-- A number that counts as a bound; larger ones count as none. -/
def bounded (n : Nat) : Option Nat := if n < 4294967295 then some n else none

/-- One tree after another. -/
def add (a b : CharCount) : CharCount :=
  ⟨a.least + b.least, do bounded ((← a.most) + (← b.most)), a.sure && b.sure⟩

/-- A repeated tree. -/
def repeated (c : CharCount) (times : Repetition) : CharCount :=
  ⟨c.least * times.least, do bounded ((← c.most) * (← times.most)), c.sure⟩

/-- One tree or another. -/
def merge (a b : CharCount) : CharCount :=
  ⟨min a.least b.least, do return max (← a.most) (← b.most),
    if b.least < a.least then b.sure else if a.least = b.least then a.sure || b.sure else a.sure⟩

end CharCount

/-- The characters that a tree takes. `ofGroup` answers for a group after some groups have been gone
into, which are `visited`; `within` is the innermost group around the tree. -/
def Node.charCount (table : GroupTable)
    (ofGroup : List Nat → Nat → Except PatternFault CharCount) (visited : List Nat)
    (within : Option Nat) : Node → Except PatternFault CharCount
  | .text .exact codes => .ok (.exactly codes.length)
  | .text _ [] => .ok (.exactly 0)
  | .text _ _ => .error .invalidLookBehind
  | .one _ => .ok (.exactly 1)
  | .seq a b => do
    return (← a.charCount table ofGroup visited within).add
      (← b.charCount table ofGroup visited within)
  | .alt a b => do
    return (← a.charCount table ofGroup visited within).merge
      (← b.charCount table ofGroup visited within)
  | .plain body => body.charCount table ofGroup visited within
  | .repeated times body =>
    if times.most = some 0 then .ok (.exactly 0)
    else do return (← body.charCount table ofGroup visited within).repeated times
  | .group number body =>
    if visited.contains number then .ok .any
    else do
      let c ← body.charCount table ofGroup (number :: visited) (some number)
      return { c with sure := false }
  | .atomic body => body.charCount table ofGroup visited within
  | .conditional c yes no => do
    let met := (← c.charCount table ofGroup visited within).add
      (← yes.charCount table ofGroup visited within)
    return met.merge (← no.charCount table ofGroup visited within)
  | .reference r =>
    if r.inside then .ok (if r.level.isSome then .any else .unsureZero)
    else
      match r.groups with
      | [] => .ok .unsureZero
      | g :: groups => do
        groups.foldlM (fun c g => do return c.merge (← ofGroup visited g)) (← ofGroup visited g)
  | .call (.number callee _) =>
    if table.leadsBack within callee then .ok .any else ofGroup visited callee
  | .taken _ | .anchor _ | .ahead _ _ | .behind _ _ _ => .ok .unsureZero
  | .call (.name _) | .keep | .bookmark _ _ | .pass | .never => .ok (.exactly 0)

/-- The characters that a group takes, going into at most the given number of groups one in the
other. The groups in `ready` have been prepared for matching. -/
def countGroup (table : GroupTable) (ready : Array (Option Node)) :
    Nat → List Nat → Nat → Except PatternFault CharCount
  | 0, _, _ => .ok .any
  | steps + 1, visited, g =>
    if visited.contains g then .ok .any
    else
      match (ready.getD g none).or (table.body? g) with
      | some body => do
        let c ← body.charCount table (countGroup table ready steps) (g :: visited) (some g)
        return { c with sure := false }
      | none => .ok .any

/-- The characters that a tree takes, in the innermost of the groups around it. -/
def countChars (table : GroupTable) (ready : Array (Option Node)) (within : Option Nat) (n : Node) :
    Except PatternFault CharCount :=
  n.charCount table (countGroup table ready (table.bodies.size + 1)) [] within

end Pattern

end Highlight
