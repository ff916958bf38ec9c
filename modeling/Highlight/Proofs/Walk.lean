import Highlight.Grammar.Linking
import Highlight.Proofs.Arena
import Mathlib.Data.List.Nodup

/-!
# The walk through a loaded grammar

The walk goes from a rule to the rules that it owns and keeps no list of where it has been. It still
meets each rule once, because the rules of a grammar are a forest: two ways down to one rule would
have to come from two owners.

- `Below`: the rules that lie below a rule.
- `Forest.below_total`: of two rules above a third, one lies below the other.
- `Grammar.ruleOrder_nodup`, `Grammar.mem_ruleOrder_iff_below`: the walk meets all rules below the first,
  each once.
- `Grammar.mem_ruleOrder_of_entry?`, `Grammar.mem_ruleOrder_of_nearest?`: what a key names is met on the
  walk.
-/

namespace Highlight

variable [Engine]

/-- A rule lies below another when it is reached by going from rules to the rules that they own. -/
inductive Below (rules : List Rule) (above : Nat) : Nat → Prop
  | refl : Below rules above above
  | step {owner : Nat} {rule : Rule} {id : Nat} : Below rules above owner →
      rules[owner]? = some rule → id ∈ rule.owned → Below rules above id

namespace Forest

variable {rules : List Rule} {roots : List RuleId}

theorem nodup (h : Forest 0 rules roots) : (roots ++ rules.flatMap Rule.owned).Nodup := by
  obtain ⟨_, hperm, hsub⟩ := h.distinct
  exact hperm.nodup_iff.1 (List.Nodup.sublist hsub List.nodup_range')

theorem owned_nodup (h : Forest 0 rules roots) {i : Nat} {rule : Rule}
    (hrule : rules[i]? = some rule) : rule.owned.Nodup :=
  (List.nodup_flatMap.1 (List.nodup_append.1 h.nodup).2.1).1 rule (List.mem_of_getElem? hrule)

theorem owned_lt (h : Forest 0 rules roots) {i : Nat} {rule : Rule} (hrule : rules[i]? = some rule)
    {id : Nat} (hid : id ∈ rule.owned) : i < id := by
  have := h.lt_owned hrule id hid
  omega

/-- A rule has one owner. -/
theorem owner_unique (h : Forest 0 rules roots) {i j : Nat} {a b : Rule}
    (ha : rules[i]? = some a) (hb : rules[j]? = some b) {id : Nat} (hida : id ∈ a.owned)
    (hidb : id ∈ b.owned) : i = j := by
  have hdisjoint := (List.nodup_flatMap.1 (List.nodup_append.1 h.nodup).2.1).2
  rw [List.pairwise_iff_getElem] at hdisjoint
  obtain ⟨hi, rfl⟩ := List.getElem?_eq_some_iff.1 ha
  obtain ⟨hj, rfl⟩ := List.getElem?_eq_some_iff.1 hb
  rcases Nat.lt_trichotomy i j with hlt | heq | hlt
  · exact absurd hidb (hdisjoint i j hi hj hlt hida)
  · exact heq
  · exact absurd hida (hdisjoint j i hj hi hlt hidb)

/-- Numbers increase on the way down. -/
theorem le_of_below (h : Forest 0 rules roots) {above id : Nat} (hbelow : Below rules above id) :
    above ≤ id := by
  induction hbelow with
  | refl => exact Nat.le_refl above
  | step _ hrule hid ih => exact Nat.le_trans ih (Nat.le_of_lt (h.owned_lt hrule hid))

/-- **Of two rules above a third, one lies below the other**: going up from a rule, there is only one
way. -/
theorem below_total (h : Forest 0 rules roots) {a b id : Nat} (ha : Below rules a id)
    (hb : Below rules b id) : Below rules a b ∨ Below rules b a := by
  induction ha generalizing b with
  | refl => exact .inr hb
  | @step owner rule id habove hrule hid ih =>
    cases hb with
    | refl => exact .inl (.step habove hrule hid)
    | @step owner' rule' _ hbelow hrule' hid' =>
      -- the owner of the rule lies below both
      have heq := h.owner_unique hrule' hrule hid' hid
      subst heq
      exact ih hbelow

/-- What lies below one rule that another owns does not lie below a second one. -/
theorem eq_of_below_owned (h : Forest 0 rules roots) {owner : Nat} {rule : Rule}
    (hrule : rules[owner]? = some rule) {a b id : Nat} (ha : a ∈ rule.owned) (hb : b ∈ rule.owned)
    (hida : Below rules a id) (hidb : Below rules b id) : a = b := by
  have hapart : ∀ {a b : Nat}, a ∈ rule.owned → b ∈ rule.owned → Below rules a b → a = b := by
    intro a b ha hb hbelow
    cases hbelow with
    | refl => rfl
    | @step other rule' _ habove hrule' hid =>
      -- the owner of both would lie below one of them
      have heq := h.owner_unique hrule' hrule hid hb
      subst heq
      exact absurd (h.owned_lt hrule ha) (Nat.not_lt.2 (h.le_of_below habove))
  rcases h.below_total hida hidb with hab | hba
  · exact hapart ha hb hab
  · exact (hapart hb ha hba).symm

end Forest

/-! ## The walk -/

namespace Below

variable {rules : List Rule} {above id : Nat} {rule : Rule}

theorem head (hrule : rules[above]? = some rule) (hid : id ∈ rule.owned) {other : Nat}
    (h : Below rules id other) : Below rules above other := by
  induction h with
  | refl => exact .step .refl hrule hid
  | step _ hrule' hid' ih => exact .step ih hrule' hid'

/-- The first step on the way down. -/
theorem cases_head (h : Below rules above id) : above = id ∨ ∃ rule next,
    rules[above]? = some rule ∧ next ∈ rule.owned ∧ Below rules next id := by
  induction h with
  | refl => exact .inl rfl
  | step _ hrule hid ih =>
    rcases ih with rfl | ⟨first, next, hfirst, hnext, hbelow⟩
    · exact .inr ⟨_, _, hrule, hid, .refl⟩
    · exact .inr ⟨first, next, hfirst, hnext, .step hbelow hrule hid⟩

end Below

theorem below_of_mem_visitsFrom {rules : Array Rule} {levels : Nat} {start visit : Visit}
    (h : visit ∈ visitsFrom rules levels start) : Below rules.toList start.rule visit.rule := by
  induction levels generalizing start with
  | zero => exact absurd h List.not_mem_nil
  | succ levels ih =>
    rw [visitsFrom] at h
    cases hrule : rules[start.rule]? with
    | none =>
      rw [hrule] at h
      exact absurd h List.not_mem_nil
    | some rule =>
      rw [hrule] at h
      rcases List.mem_cons.1 h with rfl | h
      · exact .refl
      · obtain ⟨⟨id, key⟩, hchild, hvisit⟩ := List.mem_flatMap.1 h
        refine Below.head (by rwa [Array.getElem?_toList]) ?_ (ih hvisit)
        rw [← Rule.map_children]
        exact List.mem_map_of_mem hchild

/-- The walk comes to all rules below its start for which there are enough levels. -/
theorem mem_visitsFrom_of_below {rules : Array Rule} {roots : List RuleId}
    (h : Forest 0 rules.toList roots) {levels : Nat} {start : Visit} {id : Nat}
    (hbelow : Below rules.toList start.rule id) (hid : (rules[id]?).isSome)
    (hlevels : id < levels + start.rule) :
    id ∈ (visitsFrom rules levels start).map Visit.rule := by
  induction levels generalizing start with
  | zero =>
    rw [Nat.zero_add] at hlevels
    exact absurd (h.le_of_below hbelow) (Nat.not_le.2 hlevels)
  | succ levels ih =>
    rw [visitsFrom]
    rcases hbelow.cases_head with heq | ⟨rule, next, hrule, hnext, hbelow⟩
    · rw [← heq] at hid ⊢
      obtain ⟨rule, hrule⟩ := Option.isSome_iff_exists.1 hid
      rw [hrule]
      exact List.mem_cons_self
    · have hlt := h.owned_lt hrule hnext
      rw [Array.getElem?_toList] at hrule
      rw [hrule]
      rw [← Rule.map_children] at hnext
      obtain ⟨⟨child, key⟩, hchild, rfl⟩ := List.mem_map.1 hnext
      refine List.mem_cons_of_mem _ ?_
      -- the numbers increase, so one level less is enough below
      have hmem : id ∈ (visitsFrom rules levels ⟨child, some start.rule, key⟩).map Visit.rule := by
        refine ih hbelow ?_
        show id < levels + child
        have hstep : start.rule < child := hlt
        omega
      obtain ⟨visit, hvisit, hvisitId⟩ := List.mem_map.1 hmem
      exact List.mem_map.2 ⟨visit, List.mem_flatMap.2 ⟨(child, key), hchild, hvisit⟩, hvisitId⟩

/-- A rule that the walk meets exists. -/
theorem rule_of_mem_visitsFrom {rules : Array Rule} {levels : Nat} {start visit : Visit}
    (h : visit ∈ visitsFrom rules levels start) : (rules[visit.rule]?).isSome := by
  induction levels generalizing start with
  | zero => exact absurd h List.not_mem_nil
  | succ levels ih =>
    rw [visitsFrom] at h
    cases hrule : rules[start.rule]? with
    | none =>
      rw [hrule] at h
      exact absurd h List.not_mem_nil
    | some rule =>
      rw [hrule] at h
      rcases List.mem_cons.1 h with rfl | h
      · rw [hrule]
        rfl
      · obtain ⟨_, _, hvisit⟩ := List.mem_flatMap.1 h
        exact ih hvisit

/-- Each visit but the first is one of a rule that was met before, which owns the visited one. -/
theorem owner_of_mem_visitsFrom {rules : Array Rule} {levels : Nat} {start visit : Visit}
    (h : visit ∈ visitsFrom rules levels start) : visit = start ∨
      ∃ other ∈ visitsFrom rules levels start, visit.owner = some other.rule := by
  induction levels generalizing start with
  | zero => exact absurd h List.not_mem_nil
  | succ levels ih =>
    rw [visitsFrom] at h ⊢
    cases hrule : rules[start.rule]? with
    | none =>
      rw [hrule] at h
      exact absurd h List.not_mem_nil
    | some rule =>
      rw [hrule] at h
      rcases List.mem_cons.1 h with rfl | h
      · exact .inl rfl
      · obtain ⟨⟨id, key⟩, hchild, hvisit⟩ := List.mem_flatMap.1 h
        right
        rcases ih hvisit with rfl | ⟨other, hother, howner⟩
        · exact ⟨start, List.mem_cons_self, rfl⟩
        · exact ⟨other, List.mem_cons_of_mem _ (List.mem_flatMap.2 ⟨(id, key), hchild, hother⟩),
            howner⟩

theorem visitsFrom_nodup {rules : Array Rule} {roots : List RuleId}
    (h : Forest 0 rules.toList roots) (levels : Nat) (start : Visit) :
    ((visitsFrom rules levels start).map Visit.rule).Nodup := by
  induction levels generalizing start with
  | zero => exact List.nodup_nil
  | succ levels ih =>
    rw [visitsFrom]
    cases hrule : rules[start.rule]? with
    | none => exact List.nodup_nil
    | some rule =>
      have hlist : rules.toList[start.rule]? = some rule := by rwa [Array.getElem?_toList]
      have howned : ∀ {child : RuleId × Option String}, child ∈ rule.children →
          child.1 ∈ rule.owned := by
        intro child hchild
        rw [← Rule.map_children]
        exact List.mem_map_of_mem hchild
      have hbelow : ∀ {child : RuleId × Option String} {id : RuleId},
          id ∈ (visitsFrom rules levels ⟨child.1, some start.rule, child.2⟩).map Visit.rule →
          Below rules.toList child.1 id := by
        intro child id hid
        obtain ⟨visit, hvisit, rfl⟩ := List.mem_map.1 hid
        exact below_of_mem_visitsFrom hvisit
      show (start.rule :: (rule.children.flatMap _).map Visit.rule).Nodup
      rw [List.map_flatMap, List.nodup_cons]
      refine ⟨fun hmem => ?_, List.nodup_flatMap.2 ⟨fun child _ => ih _, ?_⟩⟩
      · -- all that is met below has a greater number
        obtain ⟨child, hchild, hid⟩ := List.mem_flatMap.1 hmem
        have hlt := h.owned_lt hlist (howned hchild)
        exact absurd (h.le_of_below (hbelow hid)) (Nat.not_le.2 hlt)
      · -- the walks below two owned rules have nothing in common
        have hdistinct : (rule.children.map Prod.fst).Nodup := by
          rw [Rule.map_children]
          exact h.owned_nodup hlist
        refine (List.pairwise_map.1 hdistinct).imp_of_mem fun {a b} ha hb hne => ?_
        intro id hida hidb
        exact hne (h.eq_of_below_owned hlist (howned ha) (howned hb) (hbelow hida) (hbelow hidb))

namespace Grammar

variable {g : Grammar}

/-- **The walk meets no rule twice.** -/
theorem ruleOrder_nodup (h : Forest 0 g.rules.toList [rootRule]) : g.ruleOrder.Nodup := by
  unfold ruleOrder
  rw [g.visits_eq]
  exact visitsFrom_nodup h _ _

/-- **The walk meets all rules below the first.** -/
theorem mem_ruleOrder_iff_below (h : Forest 0 g.rules.toList [rootRule]) {id : RuleId}
    (hid : (g.rule? id).isSome) : id ∈ g.ruleOrder ↔ Below g.rules.toList rootRule id := by
  unfold ruleOrder
  rw [g.visits_eq]
  constructor
  · intro hmem
    obtain ⟨visit, hvisit, rfl⟩ := List.mem_map.1 hmem
    exact below_of_mem_visitsFrom hvisit
  · intro hbelow
    obtain ⟨rule, hrule⟩ := Option.isSome_iff_exists.1 hid
    obtain ⟨hlt, -⟩ := Array.getElem?_eq_some_iff.1 hrule
    exact mem_visitsFrom_of_below h hbelow hid hlt

theorem mem_ruleOrder {id : RuleId} : id ∈ g.ruleOrder ↔ (g.visit? id).isSome := by
  simp [ruleOrder, visit?, List.find?_isSome]

theorem rule_of_mem_visits {visit : Visit} (h : visit ∈ g.visits) : (g.rule? visit.rule).isSome := by
  rw [g.visits_eq] at h
  exact rule_of_mem_visitsFrom h

theorem rule_root (h : Forest 0 g.rules.toList [rootRule]) : (g.rule? rootRule).isSome := by
  have hroot : rootRule ∈ [rootRule] := List.mem_cons_self
  have hlt : rootRule < g.rules.size := by simpa using (h.root_range hroot).2
  rw [rule?, Array.getElem?_eq_getElem hlt]
  rfl

theorem rule_of_mem_ruleOrder {id : RuleId} (h : id ∈ g.ruleOrder) : (g.rule? id).isSome := by
  obtain ⟨visit, hvisit, rfl⟩ := List.mem_map.1 h
  exact rule_of_mem_visits hvisit

theorem root_mem_ruleOrder (h : Forest 0 g.rules.toList [rootRule]) : rootRule ∈ g.ruleOrder :=
  (mem_ruleOrder_iff_below h (rule_root h)).2 .refl

/-- The walk goes on from each rule to those that it owns. -/
theorem owned_mem_ruleOrder (h : Forest 0 g.rules.toList [rootRule]) {owner id : RuleId}
    {rule : Rule} (howner : owner ∈ g.ruleOrder) (hrule : g.rule? owner = some rule)
    (hid : id ∈ rule.owned) : id ∈ g.ruleOrder := by
  have hlist : g.rules.toList[owner]? = some rule := by
    rw [Array.getElem?_toList]
    exact hrule
  have hlt : id < g.rules.size := by simpa using (h.owned_range hlist hid).2
  have hsome : (g.rule? id).isSome := by
    rw [rule?, Array.getElem?_eq_getElem hlt]
    rfl
  have hbelow := (mem_ruleOrder_iff_below h (by rw [hrule]; rfl)).1 howner
  exact (mem_ruleOrder_iff_below h hsome).2 (hbelow.step hlist hid)

/-- The owner of a rule is met on the walk. -/
theorem owner_mem_ruleOrder {id owner : RuleId} (h : g.owner? id = some owner) :
    owner ∈ g.ruleOrder := by
  obtain ⟨visit, hvisit, howner⟩ := Option.bind_eq_some_iff.1 h
  have hmem : visit ∈ visitsFrom g.rules g.rules.size ⟨rootRule, none, none⟩ := by
    have hvisits := List.mem_of_find?_eq_some hvisit
    rwa [g.visits_eq] at hvisits
  rcases owner_of_mem_visitsFrom hmem with rfl | ⟨other, hother, heq⟩
  · cases howner
  · rw [heq] at howner
    cases howner
    unfold ruleOrder
    rw [g.visits_eq]
    exact List.mem_map_of_mem hother

/-! ## What keys name -/

/-- An entry of the repository of a rule on the walk is on the walk. -/
theorem mem_ruleOrder_of_repositoryOf (h : Forest 0 g.rules.toList [rootRule]) {site : RuleId}
    (hsite : site ∈ g.ruleOrder) {key : String} {id : RuleId}
    (hid : Entries.get? key (g.repositoryOf site) = some id) : id ∈ g.ruleOrder := by
  unfold repositoryOf at hid
  split at hid
  · rename_i rule hrule
    have hentry : id ∈ rule.repository.map Prod.snd :=
      List.mem_map_of_mem (f := Prod.snd) (Entries.mem_of_get? hid)
    exact owned_mem_ruleOrder h hsite hrule (List.mem_append_left _ (List.mem_append_right _ hentry))
  · cases hid

theorem mem_ruleOrder_of_anywhere? {key : String} {id : RuleId} (hid : g.anywhere? key = some id) :
    id ∈ g.ruleOrder := by
  obtain ⟨visit, hvisit, rfl⟩ := Option.map_eq_some_iff.1 hid
  exact List.mem_map_of_mem (List.mem_of_find?_eq_some hvisit)

/-- **An entry that other grammars see** is on the walk. -/
theorem mem_ruleOrder_of_entry? (h : Forest 0 g.rules.toList [rootRule]) {key : String}
    {id : RuleId} (hid : g.entry? key = some id) : id ∈ g.ruleOrder := by
  unfold entry? at hid
  split at hid
  · rename_i found hfound
    cases hid
    exact mem_ruleOrder_of_repositoryOf h (root_mem_ruleOrder h) hfound
  · exact mem_ruleOrder_of_anywhere? hid

/-- **An entry that a rule of the grammar sees** is on the walk. -/
theorem mem_ruleOrder_of_nearest? (h : Forest 0 g.rules.toList [rootRule]) {site : RuleId}
    {key : String} {id : RuleId} (hid : g.nearest? site key = some id) : id ∈ g.ruleOrder := by
  -- going up from owner to owner never leaves the walk
  have hfrom : ∀ (levels : Nat) (owner : Option RuleId), (∀ o, owner = some o → o ∈ g.ruleOrder) →
      g.nearestFrom? key levels owner = some id → id ∈ g.ruleOrder := by
    intro levels
    induction levels with
    | zero => exact fun _ _ h => nomatch h
    | succ levels ih =>
      intro owner howner hfound
      cases owner with
      | none => cases hfound
      | some owner =>
        rw [nearestFrom?] at hfound
        split at hfound
        · rename_i found hentry
          cases hfound
          exact mem_ruleOrder_of_repositoryOf h (howner owner rfl) hentry
        · exact ih _ (fun _ => owner_mem_ruleOrder) hfound
  unfold nearest? at hid
  split at hid
  · rename_i found hfound
    cases hid
    exact hfrom _ _ (fun _ => owner_mem_ruleOrder) hfound
  · exact mem_ruleOrder_of_anywhere? hid

end Grammar

end Highlight
