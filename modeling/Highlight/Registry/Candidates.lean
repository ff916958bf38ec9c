import Highlight.Registry

/-!
# Candidates

The rules that can match inside of a rule: its patterns, with groups replaced by the patterns in
them and includes by what they are bound to. Rules are met in the order of their declaration, each
only once.

- `Candidates`: the rules met so far and those found among them.
- `Registry.expand`: adds what a rule stands for, following at most the given number of steps.
- `Registry.candidates`: the rules that can match inside of a rule.
-/

namespace Highlight

variable [Engine]

/-- The rules met so far, and the candidates found among them, last first. -/
structure Candidates where
  met : List RuleRef
  found : List RuleRef

namespace Registry

/-- The rules that a rule leads to: those of its pattern list for a group, and what it is bound to
for an include. -/
def successors (r : Registry) (base : String) (ref : RuleRef) (rule : Rule) : List RuleRef :=
  match rule.kind with
  | .group g => g.patterns.map fun id => ⟨ref.grammar, id⟩
  | .link _ =>
    match (r.find? ref.grammar).bind fun g => g.target? ref.rule with
    | some (.rule target) => [target]
    | some .base => [⟨base, rootRule⟩]
    | none => []
  | _ => []

/-- Whether a rule has a pattern of its own that can match. -/
def isCandidate (rule : Rule) : Bool :=
  match rule.kind with
  | .single _ | .region _ | .guarded _ => true
  | .group _ | .link _ => false

/-- Adds what a rule stands for, unless it has been met. A disabled rule stands for nothing. -/
def expand (r : Registry) (base : String) : Nat → Candidates → RuleRef → Candidates
  -- the rule does not count as met, so a shorter way may still lead to it
  | 0, c, _ => c
  | steps + 1, c, ref =>
    if ref ∈ c.met then c
    else
      let c := { c with met := ref :: c.met }
      match r.rule? ref with
      | none => c
      | some rule =>
        if rule.disabled then c
        else if isCandidate rule then { c with found := ref :: c.found }
        else (r.successors base ref rule).foldl (expand r base steps) c

/-- The rules that can match inside of a rule, in the order of their declaration, following at most
the given number of steps. `base` is the path of the grammar that `$base` names. A group counts as
met from the beginning, while a region can stand inside of itself. -/
def candidates (r : Registry) (base : String) (steps : Nat) (ref : RuleRef) : List RuleRef :=
  match r.rule? ref with
  | none => []
  | some rule =>
    let met :=
      match rule.kind with
      | .group _ => [ref]
      | _ => []
    let patterns := rule.kind.patterns.map fun id => ⟨ref.grammar, id⟩
    (patterns.foldl (r.expand base steps) ⟨met, []⟩).found.reverse

end Registry

end Highlight
