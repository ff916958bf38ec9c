import Highlight.Pattern.CaseVariant
import Highlight.Pattern.CharCount
import Highlight.Pattern.Recursion

/-!
# Look-behinds

A look-behind goes back as many characters as its tree takes and matches the tree from there. Not
every tree is allowed in it, and one that takes several numbers of characters is tried from each of
the places in turn, the nearest first.

- `Node.usesGroups`: whether a tree is allowed in a look-behind, and whether it has to do with groups.
- `settleBehind`: a look-behind with the numbers of characters that it goes back.
- `Node.prepare`, `Resolved.prepare`: a tree with all its texts expanded and its look-behinds settled.
-/

namespace Highlight

namespace Pattern

/-- The most characters that a look-behind can go back if there is a bound. -/
def mostBehind : Nat := 65535

/-- Whether a tree in a look-behind, a negated one or not, has groups that are referred to or calls
that lead back. A tree is at fault if it asks what follows, and in a negated look-behind if it has
groups. `ofGroup` answers for groups that are called; `within` is the innermost group around. -/
def Node.usesGroups (table : GroupTable) (negated : Bool)
    (ofGroup : Nat → Except PatternFault Bool) (within : Option Nat) :
    Node → Except PatternFault Bool
  | .seq a b => do
    let first ← a.usesGroups table negated ofGroup within
    return (← b.usesGroups table negated ofGroup within) || first
  | .alt a b => do
    let first ← a.usesGroups table negated ofGroup within
    return (← b.usesGroups table negated ofGroup within) || first
  | .plain body => body.usesGroups table negated ofGroup within
  | .repeated _ body => body.usesGroups table negated ofGroup within
  | .group number body =>
    if negated then .error .invalidLookBehind
    else do
      let uses ← body.usesGroups table negated ofGroup (some number)
      return uses || table.called.contains number || table.referred.contains number
  | .atomic body => body.usesGroups table negated ofGroup within
  | .ahead _ _ => .error .invalidLookBehind
  | .behind inner _ body =>
    if inner && !negated then .error .invalidLookBehind
    else body.usesGroups table negated ofGroup within
  | .conditional c yes no => do
    let first ← c.usesGroups table negated ofGroup within
    let second ← yes.usesGroups table negated ofGroup within
    return (← no.usesGroups table negated ofGroup within) || second || first
  | .anchor .textEnd | .anchor .lastLineEnd | .bookmark true _ => .error .invalidLookBehind
  | .call (.number callee _) =>
    if table.leadsBack within callee then .ok true else ofGroup callee
  | _ => .ok false

/-- What `Node.usesGroups` says of a group, with at most the given number of calls one in the
other. -/
def groupUses (table : GroupTable) (negated : Bool) : Nat → Nat → Except PatternFault Bool
  | 0, _ => .ok true
  | calls + 1, g =>
    match table.body? g with
    | some body =>
      if negated then .error .invalidLookBehind
      else do
        let _ ← body.usesGroups table negated (groupUses table negated calls) (some g)
        return true
    | none => .ok false

/-- What `Node.usesGroups` says of a tree in the innermost of the groups around it. -/
def behindUses (table : GroupTable) (negated : Bool) (within : Option Nat) (n : Node) :
    Except PatternFault Bool :=
  n.usesGroups table negated (groupUses table negated table.bodies.size) within

/-- Whether a tree is such that the first repetitions of it in a look-behind need not be more than
the least. -/
def isPlainStep : Node → Bool
  | .text _ _ | .one _ | .reference _ | .taken _ => true
  | _ => false

/-- A sequence with its first repetitions reduced to the least. What is repeated more often can begin
later as well. -/
def reduceLeading : Node → Node
  | .seq (.repeated times body) rest =>
    if !isPlainStep body then .seq (.repeated times body) rest
    else if times.least = 0 then
      .seq (.repeated { times with most := some 0 } body) (reduceLeading rest)
    else .seq (.repeated { times with most := some times.least } body) rest
  | .repeated times body =>
    if isPlainStep body then .repeated { times with most := some times.least } body
    else .repeated times body
  | n => n

/-- The alternatives of a look-behind with their first repetitions reduced. -/
def reduceAlternatives : Node → Node
  | .alt a b => .alt (reduceLeading a) (reduceAlternatives b)
  | n => reduceLeading n

/-- Whether each of the alternatives but the first takes a single number of characters. -/
def laterFixed (count : Node → Except PatternFault CharCount) : Node → Except PatternFault Bool
  | .alt a b => do
    let fixed := (← count a).isFixed
    return (← laterFixed count b) && fixed
  | n => do return (← count n).isFixed

/-- The look-behind for a tree that is not taken apart; none if it has to be, since its alternatives
take different but single numbers of characters. One that takes no characters and has nothing to do
with groups holds anywhere. -/
def settleWhole? (count : Node → Except PatternFault CharCount)
    (uses : Node → Except PatternFault Bool) (negated : Bool) (body : Node) :
    Except PatternFault (Option Node) := do
  let body := reduceAlternatives body
  let c ← count body
  if mostBehind < c.least || c.most.any (mostBehind < ·) then throw .invalidLookBehind
  else if c.least = 0 && c.sure && !(← uses body) then
    return some (if negated then .never else .empty)
  else
    let apart ←
      match body with
      | .alt _ b => if c.isFixed then pure false else laterFixed count b
      | _ => pure false
    return if apart then none else some (.behind negated ⟨c.least, c.most⟩ body)

/-- The look-behind for a tree. `chained` says that the tree is the rest of alternatives that are
being taken apart. -/
def settleBehind (count : Node → Except PatternFault CharCount)
    (uses : Node → Except PatternFault Bool) (negated chained : Bool) :
    Node → Except PatternFault Node
  | .alt a b => do
    let whole ← if chained then pure none else settleWhole? count uses negated (.alt a b)
    match whole with
    | some node => return node
    | none =>
      let first ← settleBehind count uses negated false a
      let rest ← settleBehind count uses negated true b
      return if negated then .seq first rest else .alt first rest
  | n => do return (← settleWhole? count uses negated n).getD .never

/-- The bodies of the groups that have been prepared so far. -/
abbrev Preparing := StateT (Array (Option Node)) (Except PatternFault)

/-- The tree with all its texts expanded and its look-behinds settled. `behind` says that the tree is
in a look-behind; `within` is the innermost group around it. -/
def Node.prepare (table : GroupTable) (behind : Bool) (within : Option Nat) :
    Node → Preparing Node
  | .text rule codes => pure (expandText rule behind codes)
  | .seq a b => do
    let a ← a.prepare table behind within
    return .seq a (← b.prepare table behind within)
  | .alt a b => do
    let a ← a.prepare table behind within
    return .alt a (← b.prepare table behind within)
  | .plain body => do return .plain (← body.prepare table behind within)
  | .repeated times body => do return .repeated times (← body.prepare table behind within)
  | .group number body => do
    let body ← body.prepare table behind (some number)
    modify fun ready => ready.setIfInBounds number (some body)
    return .group number body
  | .atomic body => do return .atomic (← body.prepare table behind within)
  | .ahead negated body => do return .ahead negated (← body.prepare table behind within)
  | .behind negated _ body => do
    let _ ← behindUses table negated within body
    let body ← body.prepare table true within
    let ready ← get
    settleBehind (countChars table ready within) (behindUses table negated within) negated false
      body
  | .conditional c yes no => do
    let c ← c.prepare table behind within
    let yes ← yes.prepare table behind within
    return .conditional c yes (← no.prepare table behind within)
  | n => pure n

namespace Resolved

/-- The tree of a pattern, prepared for matching. -/
def prepare (r : Resolved) : Except PatternFault Node := do
  let (node, _) ← (r.node.prepare r.table false none).run
    (Array.replicate r.table.bodies.size none)
  return node

end Resolved

end Pattern

end Highlight
