import Highlight.Proofs.Walk
import Mathlib.Data.Finset.Card
import Mathlib.Order.Interval.Finset.Nat

/-!
# The walk as a loop

The walk through a grammar's rules goes down from owner to owned. It can as well be done by a loop that
keeps the rules still to be met on a stack and the rules that it has met in a set. The set is what makes
the loop end: each turn takes a rule off the stack, and puts rules on it only if the rule is met for the
first time.

- `Walker`, `Walker.step?`: where such a loop stands, and one turn of it.
- `Walker.run`: the loop. Each turn leaves fewer rules to be met, or as many and a lower stack.
- `Walker.run_visit`: what comes of one visit on the stack.
- `visitsByStack_eq`: on the rules of a grammar the loop makes the visits of the walk, in their order.
-/

namespace Highlight

/-- Where a walk with a stack stands: the visits still to be made, of which the last is the next one;
the rules that were met; the visits made. -/
structure Walker where
  stack : List Visit
  met : List RuleId
  visits : List Visit

variable [Engine]

namespace Walker

variable {rules : Array Rule}

/-- The visits of the rules that a rule owns. -/
def ownedVisits (id : RuleId) (rule : Rule) : List Visit :=
  rule.children.map fun (child, key) => ⟨child, some id, key⟩

/-- The visits of what a rule owns are to the rules that it owns. -/
theorem map_rule_ownedVisits (id : RuleId) (rule : Rule) :
    (ownedVisits id rule).map Visit.rule = rule.owned := by
  rw [ownedVisits, List.map_map, ← Rule.map_children]
  rfl

/-- One turn: takes the last visit off the stack. A rule that was met before is passed over, and one
that does not exist is only noted as met. -/
def step? (rules : Array Rule) (w : Walker) : Option Walker :=
  match w.stack.getLast? with
  | none => none
  | some visit =>
    let rest := w.stack.dropLast
    if visit.rule ∈ w.met then some { w with stack := rest }
    else
      match rules[visit.rule]? with
      | none => some { w with stack := rest, met := visit.rule :: w.met }
      | some rule =>
        -- what was put on the stack is turned round, so that the first owned rule is the next one
        let grown := rest ++ ownedVisits visit.rule rule
        some ⟨grown.take rest.length ++ (grown.drop rest.length).reverse, visit.rule :: w.met,
          w.visits ++ [visit]⟩

theorem step?_of_met {rest : List Visit} {visit : Visit} {met : List RuleId} {visits : List Visit}
    (h : visit.rule ∈ met) :
    step? rules ⟨rest ++ [visit], met, visits⟩ = some ⟨rest, met, visits⟩ := by
  simp [step?, h]

theorem step?_of_missing {rest : List Visit} {visit : Visit} {met : List RuleId} {visits : List Visit}
    (hmet : visit.rule ∉ met) (hrule : rules[visit.rule]? = none) :
    step? rules ⟨rest ++ [visit], met, visits⟩ = some ⟨rest, visit.rule :: met, visits⟩ := by
  simp [step?, hmet, hrule]

/-- A rule that is met for the first time is visited, and what it owns is put on the stack in
reverse. -/
theorem step?_of_new {rest : List Visit} {visit : Visit} {met : List RuleId} {visits : List Visit}
    {rule : Rule} (hmet : visit.rule ∉ met) (hrule : rules[visit.rule]? = some rule) :
    step? rules ⟨rest ++ [visit], met, visits⟩ = some ⟨rest ++ (ownedVisits visit.rule rule).reverse,
      visit.rule :: met, visits ++ [visit]⟩ := by
  simp [step?, hmet, hrule]

/-- How many rules were not met yet. -/
def unmet (rules : Array Rule) (w : Walker) : Nat :=
  {id ∈ Finset.range rules.size | id ∉ w.met}.card

/-- Each turn leaves fewer rules to be met, or as many and a lower stack. -/
theorem step?_decreases {w w' : Walker} (h : step? rules w = some w') :
    Prod.Lex (· < ·) (· < ·) (unmet rules w', w'.stack.length) (unmet rules w, w.stack.length) := by
  obtain ⟨stack, met, visits⟩ := w
  rcases List.eq_nil_or_concat stack with rfl | ⟨rest, visit, rfl⟩
  · cases h
  rw [List.concat_eq_append] at h ⊢
  have hlower : rest.length < (rest ++ [visit]).length := by simp
  by_cases hmet : visit.rule ∈ met
  · rw [step?_of_met hmet] at h
    cases h
    exact .right _ hlower
  · cases hrule : rules[visit.rule]? with
    | none =>
      rw [step?_of_missing hmet hrule] at h
      cases h
      -- a rule that does not exist was not among those to be met
      have hsame : unmet rules ⟨rest, visit.rule :: met, visits⟩
          = unmet rules ⟨rest ++ [visit], met, visits⟩ := by
        refine congrArg Finset.card (Finset.filter_congr fun id hid => ?_)
        have hne : id ≠ visit.rule := by
          rintro rfl
          exact absurd (Finset.mem_range.1 hid) (Nat.not_lt.2 (Array.getElem?_eq_none_iff.1 hrule))
        simp [hne]
      rw [hsame]
      exact .right _ hlower
    | some rule =>
      rw [step?_of_new hmet hrule] at h
      cases h
      refine .left _ _ (Finset.card_lt_card ?_)
      rw [Finset.ssubset_iff_of_subset]
      · refine ⟨visit.rule, ?_, ?_⟩
        · simpa [hmet] using (Array.getElem?_eq_some_iff.1 hrule).1
        · simp
      · intro id hid
        simp only [Finset.mem_filter, List.mem_cons, not_or] at hid ⊢
        exact ⟨hid.1, hid.2.2⟩

/-- The loop: turns until the stack is empty, and then the visits made. -/
def run (rules : Array Rule) (w : Walker) : List Visit :=
  match _h : step? rules w with
  | none => w.visits
  | some w' => run rules w'
termination_by (unmet rules w, w.stack.length)
decreasing_by exact step?_decreases _h

/-- A turn of the loop goes on where it leads. -/
theorem run_of_step {w w' : Walker} (h : step? rules w = some w') : run rules w = run rules w' := by
  rw [run]
  split
  · rename_i hnone
    rw [h] at hnone
    cases hnone
  · rename_i next hnext
    rw [h] at hnext
    cases hnext
    rfl

/-- With nothing on the stack the loop is over. -/
theorem run_of_empty (met : List RuleId) (visits : List Visit) :
    run rules ⟨[], met, visits⟩ = visits := by
  rw [run]
  rfl

/-! ## The loop on the rules of a grammar -/

/-- The rules that the walk meets from a visit on. -/
def metFrom (rules : Array Rule) (levels : Nat) (visit : Visit) : List RuleId :=
  (visitsFrom rules levels visit).map Visit.rule

/-- The walk makes a visit and goes on below it. -/
theorem visitsFrom_succ {visit : Visit} {rule : Rule} (hrule : rules[visit.rule]? = some rule)
    (levels : Nat) : visitsFrom rules (levels + 1) visit =
      visit :: (ownedVisits visit.rule rule).flatMap (visitsFrom rules levels) := by
  rw [visitsFrom, hrule, ownedVisits, List.flatMap_map]

theorem metFrom_succ {visit : Visit} {rule : Rule} (hrule : rules[visit.rule]? = some rule)
    (levels : Nat) : metFrom rules (levels + 1) visit =
      visit.rule :: (ownedVisits visit.rule rule).flatMap (metFrom rules levels) := by
  rw [metFrom, visitsFrom_succ hrule, List.map_cons, List.map_flatMap]
  rfl

/-- From a visit on the stack the loop makes the visits of the walk, if none of the rules that they
meet was met before, and goes on with what lies under it. -/
def Passes (rules : Array Rule) (levels : Nat) (visit : Visit) : Prop :=
  ∀ (rest : List Visit) (met : List RuleId) (visits : List Visit),
    (∀ id ∈ metFrom rules levels visit, id ∉ met) →
    run rules ⟨rest ++ [visit], met, visits⟩ = run rules
      ⟨rest, (metFrom rules levels visit).reverse ++ met, visits ++ visitsFrom rules levels visit⟩

/-- Several visits are on the stack in reverse, so that they are made in their order. -/
theorem run_visits {levels : Nat} {owned : List Visit} (h : ∀ visit ∈ owned, Passes rules levels visit)
    (hnodup : (owned.flatMap (metFrom rules levels)).Nodup) (rest : List Visit) (met : List RuleId)
    (visits : List Visit) (hnew : ∀ id ∈ owned.flatMap (metFrom rules levels), id ∉ met) :
    run rules ⟨rest ++ owned.reverse, met, visits⟩ = run rules
      ⟨rest, (owned.flatMap (metFrom rules levels)).reverse ++ met,
        visits ++ owned.flatMap (visitsFrom rules levels)⟩ := by
  induction owned generalizing met visits with
  | nil => simp
  | cons visit owned ih =>
    rw [List.flatMap_cons] at hnodup hnew
    obtain ⟨-, hrest, hapart⟩ := List.nodup_append.1 hnodup
    rw [List.reverse_cons, ← List.append_assoc,
      h visit List.mem_cons_self (rest ++ owned.reverse) met visits
        fun id hid => hnew id (List.mem_append_left _ hid),
      ih (fun v hv => h v (List.mem_cons_of_mem _ hv)) hrest]
    · simp
    · -- what comes after is met neither before nor below the first
      intro id hid hmem
      rcases List.mem_append.1 hmem with hmem | hmem
      · exact hapart id (List.mem_reverse.1 hmem) id hid rfl
      · exact hnew id (List.mem_append_right _ hid) hmem

/-- **A visit on the stack is followed by the walk below it.** -/
theorem run_visit {roots : List RuleId} (h : Forest 0 rules.toList roots) (levels : Nat)
    {visit : Visit} (hrule : visit.rule < rules.size)
    (hlevels : rules.size ≤ levels + visit.rule) : Passes rules levels visit := by
  induction levels generalizing visit with
  | zero =>
    rw [Nat.zero_add] at hlevels
    exact absurd hrule (Nat.not_lt.2 hlevels)
  | succ levels ih =>
    intro rest met visits hnew
    have hget : rules[visit.rule]? = some rules[visit.rule] := Array.getElem?_eq_getElem hrule
    have hnodup : (metFrom rules (levels + 1) visit).Nodup := visitsFrom_nodup h (levels + 1) visit
    rw [metFrom_succ hget] at hnew hnodup ⊢
    rw [visitsFrom_succ hget]
    obtain ⟨hself, hnodup⟩ := List.nodup_cons.1 hnodup
    rw [run_of_step (step?_of_new (hnew _ List.mem_cons_self) hget), run_visits ?_ hnodup]
    · simp
    · -- the rules below were not met before, and the rule itself is not among them
      intro id hid hmem
      rcases List.mem_cons.1 hmem with rfl | hmem
      · exact hself hid
      · exact hnew id (List.mem_cons_of_mem _ hid) hmem
    · intro owned howned
      have hid : owned.rule ∈ rules[visit.rule].owned := by
        rw [← map_rule_ownedVisits visit.rule]
        exact List.mem_map_of_mem howned
      have hlist : rules.toList[visit.rule]? = some rules[visit.rule] := by
        rwa [Array.getElem?_toList]
      have hlt := h.owned_lt hlist hid
      refine ih ?_ (by omega)
      simpa using (h.owned_range hlist hid).2

end Walker

/-- The visits that a walk with a stack makes, beginning with the first rule. -/
def visitsByStack (rules : Array Rule) : List Visit :=
  Walker.run rules ⟨[⟨rootRule, none, none⟩], [], []⟩

/-- **The loop is the walk**: on the rules of a grammar it makes the same visits in the same order. -/
theorem visitsByStack_eq {rules : Array Rule} (h : Forest 0 rules.toList [rootRule]) :
    visitsByStack rules = visitsOf rules := by
  have hroot : rootRule < rules.size := by simpa using (h.root_range List.mem_cons_self).2
  have hpass : Walker.Passes rules rules.size ⟨rootRule, none, none⟩ :=
    Walker.run_visit h rules.size hroot (Nat.le_add_right _ _)
  have hrun := hpass [] [] [] (by simp)
  rw [Walker.run_of_empty] at hrun
  exact hrun

end Highlight
