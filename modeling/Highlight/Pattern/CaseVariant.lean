import Highlight.Pattern.Node

/-!
# Texts in which case does not count

Where case does not count a text stands for several texts, since some characters fold to two or three
others: `ß` also for `ss`, and `ss` also for `ß`.

- `Node.ofVariants`: a character in all its cases.
- `classNode`: a class with the sequences that its characters stand for.
- `expandText`: a text with all that it stands for.
-/

namespace Highlight

namespace Pattern

/-- One of several characters; a single one stands for itself. -/
def Node.ofVariants (codes : List Nat) : Node :=
  match codes.eraseDups with
  | [code] => .code code
  | codes => .one (.ofCodes codes)

/-- Characters one after the other, each in all its cases. -/
def Node.ofMates (rule : CaseRule) (codes : List Nat) : Node :=
  .ofSequence (codes.map fun code => .ofVariants (rule.mates code))

/-- The sequences of several characters that characters fold to, where they count. -/
def CaseRule.longFolds (rule : CaseRule) : List (List Nat) :=
  if rule = .folded then Text.longFolds else []

/-- A class. Where case does not count, a class that is not negated also takes the sequences that
its characters fold to. -/
def classNode (rule : CaseRule) (negated : Bool) (set : CharSet) : Node :=
  let one := Node.one (.negatedIf negated (rule.closure set))
  if negated then one
  else
    let sequences := rule.longFolds.filter fun sequence =>
      (Text.unfolds sequence).any fun code => set.contains (Char.ofNat code)
    .ofAlternatives (one :: sequences.map (Node.ofMates rule))

/-- The sequence that a text begins with and that single characters fold to, if there is one; the
longest of them. -/
def longFoldAt? (rule : CaseRule) (codes : List Nat) : Option (List Nat) :=
  let folded (n : Nat) : List Nat := (codes.take n).flatMap fun code =>
    (rule.mates code).head?.toList
  (rule.longFolds.find? fun sequence => sequence.length = 3 && folded 3 = sequence).or
    (rule.longFolds.find? fun sequence => sequence.length = 2 && folded 2 = sequence)

/-- What a character stands for by itself. -/
def expandCode (rule : CaseRule) (code : Nat) : Node :=
  match rule.foldWhole code with
  | [_] => .ofVariants (code :: rule.mates code)
  | image => .alt (.ofVariants (rule.wholeMates code)) (.ofMates rule image)

/-- The parts of what a text stands for, in at most the given number of parts. -/
def expandParts (rule : CaseRule) : Nat → List Nat → List Node
  | 0, _ => []
  | _, [] => []
  | steps + 1, code :: codes =>
    match longFoldAt? rule (code :: codes) with
    | some sequence =>
      .alt (.ofMates rule sequence) (.ofVariants (Text.unfolds sequence))
        :: expandParts rule steps (codes.drop (sequence.length - 1))
    | none => expandCode rule code :: expandParts rule steps codes

/-- What a text stands for. Within a look-behind no character stands for several. -/
def expandText (rule : CaseRule) (behind : Bool) (codes : List Nat) : Node :=
  if rule = .exact then .text .exact codes
  else if behind then
    .ofSequence (joinCodes (codes.map fun code => .ofVariants (code :: rule.wholeMates code)))
  else .ofSequence (joinCodes (expandParts rule codes.length codes))
where
  /-- Puts neighbouring characters together. -/
  joinCodes : List Node → List Node
    | [] => []
    | n :: rest =>
      match n, joinCodes rest with
      | .text .exact as, .text .exact bs :: rest' => .text .exact (as ++ bs) :: rest'
      | n, rest' => n :: rest'

end Pattern

end Highlight
