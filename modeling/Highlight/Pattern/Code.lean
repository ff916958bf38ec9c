import Highlight.Pattern.Rounds

/-!
# Codes for the machine

A prepared tree is laid out for the machine that matches it: repetitions become copies and loops, and
for each group it is settled what of it is undone when the machine goes back.

- `EmptyCheck`, `Journal`: what is done after a round of a loop, and what is undone.
- `Code`: what the machine carries out.
- `CodeContext`, `Code.ofNode`: the code for a tree.
-/

namespace Highlight

namespace Pattern

/-- What is done after a round of a loop that may have taken no text. -/
inductive EmptyCheck where
  /-- Each round takes text. -/
  | none
  /-- A round that took no text is the last. -/
  | place
  /-- Such a round is not the last if some of these groups took another text in it. -/
  | groups (watched : List Nat)
deriving DecidableEq

/-- What is kept on the stack of a group that was entered, so that it can be undone. -/
structure Journal where
  start : Bool
  stop : Bool
  /-- Whether the group can be entered again before it is left. -/
  recursive : Bool
deriving DecidableEq

/-- What the machine carries out. -/
inductive Code where
  | nothing
  | never
  | text (chars : List Char)
  | one (set : CharSet)
  /-- Characters of a set. -/
  | many (times : Repetition) (set : CharSet)
  | seq (first rest : Code)
  | alt (first rest : Code)
  /-- Any number of rounds, the first of which is not optional if `entered` says so. -/
  | loop (isLazy entered : Bool) (check : EmptyCheck) (body : Code)
  /-- Rounds that are counted. -/
  | counted (times : Repetition) (check : EmptyCheck) (body : Code)
  | group (number : Nat) (journal : Journal) (body : Code)
  | atomic (body : Code)
  | ahead (negated : Bool) (body : Code)
  | behind (negated : Bool) (reach : Reach) (body : Code)
  | conditional (condition yes no : Code)
  | reference (r : BackReference)
  | taken (r : BackReference)
  | call (group : Nat)
  | anchor (a : Anchor)
  | keep
  | bookmark (b : Bookmark)
deriving DecidableEq

/-! ## Groups -/

/-- The groups in a tree to which the machine can go back, or that are matched several times, `varied`
saying this of the tree itself. -/
def Node.variedGroups (table : GroupTable) (varied : Bool) : Node → List Nat
  | .seq a b => a.variedGroups table varied ++ b.variedGroups table varied
  | .alt a b => a.variedGroups table true ++ b.variedGroups table true
  | .plain body => body.variedGroups table varied
  | .repeated times body => body.variedGroups table (varied || times.most != some times.least)
  | .group number body =>
    let varied := varied || table.called.contains number
    if varied || table.isRecursive number then number :: body.variedGroups table varied
    else body.variedGroups table varied
  | .atomic body => body.variedGroups table varied
  | .ahead negated body => body.variedGroups table (varied || negated)
  | .behind negated _ body => body.variedGroups table (varied || negated)
  | .conditional c yes no =>
    c.variedGroups table true ++ yes.variedGroups table true ++ no.variedGroups table true
  | _ => []

/-- The number of groups that are kept apart in the journal. All later ones count as one. -/
def journaledApart : Nat := 32

/-- The place of a group in the journal. -/
def journalSlot (group : Nat) : Nat := if group < journaledApart then group else 0

/-- The groups of a tree that can tell whether a round of a loop changed anything. A loop in the tree
watches its own groups. -/
def Node.tellingGroups (table : GroupTable) : Node → List Nat
  | .seq a b => a.tellingGroups table ++ b.tellingGroups table
  | .alt a b => a.tellingGroups table ++ b.tellingGroups table
  | .plain body => body.tellingGroups table
  | .repeated times body =>
    if times.most != some 0 && !table.takesText body then [] else body.tellingGroups table
  | .group number body => number :: body.tellingGroups table
  | .atomic body => body.tellingGroups table
  | .ahead true body => body.tellingGroups table
  | .behind true _ body => body.tellingGroups table
  | .conditional c yes no =>
    c.tellingGroups table ++ yes.tellingGroups table ++ no.tellingGroups table
  | _ => []

/-- Whether a tree has a group apart from its look-arounds, or calls one. -/
def Node.entersGroup : Node → Bool
  | .group _ _ | .call _ => true
  | .seq a b => a.entersGroup || b.entersGroup
  | .alt a b => a.entersGroup || b.entersGroup
  | .plain body => body.entersGroup
  | .repeated times body => times.most != some 0 && body.entersGroup
  | .atomic body => body.entersGroup
  | .conditional c yes no => c.entersGroup || yes.entersGroup || no.entersGroup
  | _ => false

/-- The groups of a repeated tree that are referred to outside of it. -/
def watchedGroups (table : GroupTable) (body : Node) : List Nat :=
  if body.entersGroup then
    let inner := body.referredGroups
    (body.tellingGroups table).filter fun g =>
      g < journaledApart && inner.count g < table.referred.count g
  else []

/-- The check for a repeated tree. -/
def emptyCheck (table : GroupTable) (body : Node) : EmptyCheck :=
  if table.takesText body then .none
  else
    match watchedGroups table body with
    | [] => .place
    | watched => .groups watched

/-! ## Laying out -/

/-- What the code for a part of a tree depends on. -/
structure CodeContext where
  table : GroupTable
  /-- The places in the journal where starts are kept. -/
  starts : List Nat
  /-- The places in the journal where ends are kept. -/
  stops : List Nat

namespace CodeContext

/-- The context for the parts of a prepared tree. -/
def ofNode (table : GroupTable) (n : Node) : CodeContext :=
  let stops := (table.referred.map journalSlot).eraseDups
  ⟨table, ((n.variedGroups table false).map journalSlot ++ stops).eraseDups, stops⟩

/-- The journal of a group. -/
def journal (c : CodeContext) (group : Nat) : Journal :=
  ⟨c.starts.contains (journalSlot group), c.stops.contains (journalSlot group),
    c.table.isRecursive group⟩

end CodeContext

namespace Code

/-- The code for a text. A code that no character has makes it impossible. -/
def ofCodes (codes : List Nat) : Code :=
  match codes.mapM fun code => if code.isValidChar then some (Char.ofNat code) else none with
  | some [] => .nothing
  | some chars => .text chars
  | none => .never

/-- A number of copies. -/
def copies (body : Code) : Nat → Code
  | 0 => .nothing
  | 1 => body
  | n + 2 => .seq body (copies body (n + 1))

/-- Optional copies, one in the other. -/
def options (body : Code) : Nat → Code
  | 0 => .nothing
  | 1 => .alt body .nothing
  | n + 2 => .alt (.seq body (options body (n + 1))) .nothing

/-- One after the other. -/
def andThen : Code → Code → Code
  | .nothing, b => b
  | a, .nothing => a
  | a, b => .seq a b

/-- The code for a repetition of what has a code. -/
def ofRounds (times : Repetition) (check : EmptyCheck) (body : Code) : Rounds → Code
  | .none => .nothing
  | .loop n entered => (copies body n).andThen (.loop times.lazy entered check body)
  | .copies needed optional => (copies body needed).andThen (options body optional)
  | .option => .alt .nothing body
  | .counted => .counted times check body

/-- The code for a repeated tree, given its own. -/
def ofRepeated (table : GroupTable) (times : Repetition) (body : Node) (code : Code) : Code :=
  if times.most = some 0 then .nothing
  else
    match code with
    | .one set => .many times set
    | .text [c] => .many times (.single c.toNat)
    | code =>
      match body.fixedText? times with
      | some codes => ofCodes codes
      | none =>
        ofRounds times (emptyCheck table body) code (times.rounds (body.stepCount table))

/-- The code for a tree. A group that is called is matched by a call wherever it stands. -/
def ofNode (c : CodeContext) : Node → Code
  | .text _ codes => ofCodes codes
  | .one set => .one set
  | .seq a b => (ofNode c a).andThen (ofNode c b)
  | .alt a b => .alt (ofNode c a) (ofNode c b)
  | .plain body => ofNode c body
  | .repeated times body => ofRepeated c.table times body (ofNode c body)
  | .group number body =>
    if c.table.called.contains number then .call number
    else .group number (c.journal number) (ofNode c body)
  | .atomic body => .atomic (ofNode c body)
  | .ahead negated body => .ahead negated (ofNode c body)
  | .behind negated reach body => .behind negated reach (ofNode c body)
  | .conditional condition yes no =>
    .conditional (ofNode c condition) (ofNode c yes) (ofNode c no)
  | .reference r => .reference r
  | .taken r => .taken r
  | .call (.number callee _) => .call callee
  | .call (.name _) => .never
  | .anchor a => .anchor a
  | .keep => .keep
  | .bookmark _ b => .bookmark b
  | .pass => .nothing
  | .never => .never

end Code

end Pattern

end Highlight
