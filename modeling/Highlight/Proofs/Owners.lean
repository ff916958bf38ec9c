import Highlight.Proofs.Walk

/-!
# Who owns a rule

The walk notes for each rule that it meets from which other it has come, and under which key. The rules
of a grammar are a forest, so this is the one place at which the rule stands, and going from owner to
owner leads up to the first rule.

- `Grammar.Holds`: a rule owns another, under a key if it has it in its repository.
- `Grammar.holds_unique`: no rule stands at two places.
- `Grammar.visit?_of_holds`, `Grammar.exists_place`: what the walk notes is the place at which a rule
  stands.
- `Grammar.owner?_eq_some_iff`, `Grammar.owner_lt`: the owners, and that they have smaller numbers.
- `Grammar.below_iff_owner?`: what lies above a rule is above its owner.
-/

namespace Highlight

variable [Engine]

/-- Each visit but the first is made from a rule that was met, which owns the visited one under the key
of the visit. -/
theorem child_of_mem_visitsFrom {rules : Array Rule} {levels : Nat} {start visit : Visit}
    (h : visit ∈ visitsFrom rules levels start) : visit = start ∨
      ∃ owner rule, visit.owner = some owner ∧ owner ∈ (visitsFrom rules levels start).map Visit.rule ∧
        rules[owner]? = some rule ∧ (visit.rule, visit.key) ∈ rule.children := by
  induction levels generalizing start with
  | zero => exact absurd h List.not_mem_nil
  | succ levels ih =>
    rw [visitsFrom] at h ⊢
    cases hrule : rules[start.rule]? with
    | none =>
      rw [hrule] at h
      exact absurd h List.not_mem_nil
    | some rule =>
      rw [hrule] at h
      rcases List.mem_cons.1 h with rfl | h
      · exact .inl rfl
      · obtain ⟨⟨id, key⟩, hchild, hvisit⟩ := List.mem_flatMap.1 h
        right
        rcases ih hvisit with rfl | ⟨owner, rule', howner, hmet, hrule', hchild'⟩
        · exact ⟨start.rule, rule, rfl, List.mem_cons_self, hrule, hchild⟩
        · refine ⟨owner, rule', howner, List.mem_cons_of_mem _ ?_, hrule', hchild'⟩
          rw [List.map_flatMap]
          exact List.mem_flatMap.2 ⟨(id, key), hchild, hmet⟩

namespace Grammar

variable {g : Grammar}

/-- A rule owns another, under a key if it has it in its repository. -/
def Holds (g : Grammar) (owner : RuleId) (key : Option String) (id : RuleId) : Prop :=
  ∃ rule, g.rule? owner = some rule ∧ (id, key) ∈ rule.children

theorem Holds.mem_owned {owner id : RuleId} {key : Option String} (h : g.Holds owner key id) :
    ∃ rule, g.rules.toList[owner]? = some rule ∧ id ∈ rule.owned := by
  obtain ⟨rule, hrule, hchild⟩ := h
  refine ⟨rule, by rwa [Array.getElem?_toList], ?_⟩
  rw [← Rule.map_children]
  exact List.mem_map_of_mem hchild

theorem exists_holds {owner id : RuleId} {rule : Rule} (hrule : g.rules.toList[owner]? = some rule)
    (hid : id ∈ rule.owned) : ∃ key, g.Holds owner key id := by
  rw [← Rule.map_children] at hid
  obtain ⟨⟨other, key⟩, hchild, rfl⟩ := List.mem_map.1 hid
  exact ⟨key, rule, by rwa [Array.getElem?_toList] at hrule, hchild⟩

/-- **No rule stands at two places.** -/
theorem holds_unique (h : Forest 0 g.rules.toList [rootRule]) {owner owner' id : RuleId}
    {key key' : Option String} (hplace : g.Holds owner key id) (hplace' : g.Holds owner' key' id) :
    owner = owner' ∧ key = key' := by
  obtain ⟨rule, hrule, hid⟩ := hplace.mem_owned
  obtain ⟨rule', hrule', hid'⟩ := hplace'.mem_owned
  obtain rfl := h.owner_unique hrule hrule' hid hid'
  refine ⟨rfl, ?_⟩
  obtain ⟨rule, hget, hchild⟩ := hplace
  obtain ⟨_, hget', hchild'⟩ := hplace'
  rw [hget] at hget'
  cases hget'
  -- among the rules that one owns none is twice
  have hnodup : (rule.children.map Prod.fst).Nodup := by
    rw [Rule.map_children]
    exact h.owned_nodup (by rwa [Array.getElem?_toList])
  exact congrArg Prod.snd (List.inj_on_of_nodup_map hnodup hchild hchild' rfl)

/-- The first rule is owned by none. -/
theorem not_holds_root (h : Forest 0 g.rules.toList [rootRule]) {owner : RuleId}
    {key : Option String} : ¬g.Holds owner key rootRule := by
  intro hplace
  obtain ⟨rule, hrule, hid⟩ := hplace.mem_owned
  exact absurd (h.owned_lt hrule hid) (Nat.not_lt_zero owner)

theorem holds_lt (h : Forest 0 g.rules.toList [rootRule]) {owner id : RuleId} {key : Option String}
    (hplace : g.Holds owner key id) : owner < id := by
  obtain ⟨rule, hrule, hid⟩ := hplace.mem_owned
  exact h.owned_lt hrule hid

/-! ## What the walk notes -/

theorem mem_visits_of_visit? {id : RuleId} {visit : Visit} (h : g.visit? id = some visit) :
    visit ∈ g.visits ∧ visit.rule = id :=
  ⟨List.mem_of_find?_eq_some h, by simpa using List.find?_some h⟩

/-- A visit is that of the first rule or made from the rule's owner. -/
theorem place_of_mem_visits {visit : Visit} (h : visit ∈ g.visits) :
    visit = ⟨rootRule, none, none⟩ ∨ ∃ owner, visit.owner = some owner ∧ owner ∈ g.ruleOrder ∧
      g.Holds owner visit.key visit.rule := by
  unfold ruleOrder
  rw [g.visits_eq] at h ⊢
  rcases child_of_mem_visitsFrom h with heq | ⟨owner, rule, howner, hmet, hrule, hchild⟩
  · exact .inl heq
  · exact .inr ⟨owner, howner, hmet, rule, hrule, hchild⟩

theorem visit?_of_mem_visits (h : Forest 0 g.rules.toList [rootRule]) {visit : Visit}
    (hvisit : visit ∈ g.visits) : g.visit? visit.rule = some visit := by
  obtain ⟨found, hfound⟩ := Option.isSome_iff_exists.1 (mem_ruleOrder.1 (List.mem_map_of_mem hvisit))
  obtain ⟨hmem, heq⟩ := mem_visits_of_visit? hfound
  rw [hfound, List.inj_on_of_nodup_map (ruleOrder_nodup h) hmem hvisit heq]

/-- What the walk lists is what is below the first rule. -/
theorem mem_ruleOrder_iff (h : Forest 0 g.rules.toList [rootRule]) {id : RuleId} :
    id ∈ g.ruleOrder ↔ Below g.rules.toList rootRule id := by
  constructor
  · intro hid
    exact (mem_ruleOrder_iff_below h (rule_of_mem_ruleOrder hid)).1 hid
  · intro hbelow
    have hrule : (g.rule? id).isSome := by
      cases hbelow with
      | refl => exact rule_root h
      | step _ hrule hid =>
        have hlt : id < g.rules.size := by simpa using (h.owned_range hrule hid).2
        rw [rule?, Array.getElem?_eq_getElem hlt]
        rfl
    exact (mem_ruleOrder_iff_below h hrule).2 hbelow

/-- The first rule is visited from none. -/
theorem visit?_root (h : Forest 0 g.rules.toList [rootRule]) :
    g.visit? rootRule = some ⟨rootRule, none, none⟩ := by
  obtain ⟨visit, hvisit⟩ := Option.isSome_iff_exists.1 (mem_ruleOrder.1 (root_mem_ruleOrder h))
  obtain ⟨hmem, hrule⟩ := mem_visits_of_visit? hvisit
  rcases place_of_mem_visits hmem with rfl | ⟨owner, -, -, hplace⟩
  · exact hvisit
  · rw [hrule] at hplace
    exact absurd hplace (not_holds_root h)

/-- **What the walk notes of a rule is the place at which it stands.** -/
theorem visit?_of_holds (h : Forest 0 g.rules.toList [rootRule]) {owner id : RuleId}
    {key : Option String} (howner : owner ∈ g.ruleOrder) (hplace : g.Holds owner key id) :
    g.visit? id = some ⟨id, some owner, key⟩ := by
  obtain ⟨rule, hrule, hchild⟩ := hplace
  have hid : id ∈ g.ruleOrder := by
    refine owned_mem_ruleOrder h howner hrule ?_
    rw [← Rule.map_children]
    exact List.mem_map_of_mem hchild
  obtain ⟨⟨other, owner', key'⟩, hvisit⟩ := Option.isSome_iff_exists.1 (mem_ruleOrder.1 hid)
  obtain ⟨hmem, heq⟩ := mem_visits_of_visit? hvisit
  rw [hvisit]
  obtain rfl : other = id := heq
  rcases place_of_mem_visits hmem with hroot | ⟨owner'', howner', -, hplace'⟩
  · cases hroot
    exact absurd ⟨rule, hrule, hchild⟩ (not_holds_root h)
  · obtain ⟨rfl, rfl⟩ := holds_unique h ⟨rule, hrule, hchild⟩ hplace'
    cases howner'
    rfl

theorem owner?_eq_some_iff (h : Forest 0 g.rules.toList [rootRule]) {owner id : RuleId} :
    g.owner? id = some owner ↔ owner ∈ g.ruleOrder ∧ ∃ key, g.Holds owner key id := by
  constructor
  · intro howner
    obtain ⟨visit, hvisit, heq⟩ := Option.bind_eq_some_iff.1 howner
    obtain ⟨hmem, rfl⟩ := mem_visits_of_visit? hvisit
    rcases place_of_mem_visits hmem with rfl | ⟨owner', howner', hwalk, hplace⟩
    · cases heq
    · rw [howner'] at heq
      cases heq
      exact ⟨hwalk, _, hplace⟩
  · rintro ⟨hwalk, key, hplace⟩
    rw [owner?, visit?_of_holds h hwalk hplace]
    rfl

theorem owner_lt (h : Forest 0 g.rules.toList [rootRule]) {owner id : RuleId}
    (howner : g.owner? id = some owner) : owner < id := by
  obtain ⟨-, key, hplace⟩ := (owner?_eq_some_iff h).1 howner
  exact holds_lt h hplace

/-- An owner is a rule of the grammar. -/
theorem owner_lt_size {owner id : RuleId} (howner : g.owner? id = some owner) :
    owner < g.rules.size := by
  obtain ⟨rule, hrule⟩ :=
    Option.isSome_iff_exists.1 (rule_of_mem_ruleOrder (owner_mem_ruleOrder howner))
  exact (Array.getElem?_eq_some_iff.1 hrule).1

theorem owner?_root (h : Forest 0 g.rules.toList [rootRule]) : g.owner? rootRule = none := by
  rw [owner?, visit?_root h]
  rfl

/-- Each rule on the walk but the first has an owner. -/
theorem exists_owner (h : Forest 0 g.rules.toList [rootRule]) {id : RuleId} (hid : id ∈ g.ruleOrder)
    (hne : id ≠ rootRule) : ∃ owner, g.owner? id = some owner := by
  obtain ⟨visit, hvisit, rfl⟩ := List.mem_map.1 hid
  rcases place_of_mem_visits hvisit with rfl | ⟨owner, howner, -, -⟩
  · exact absurd rfl hne
  · refine ⟨owner, ?_⟩
    rw [owner?, visit?_of_mem_visits h hvisit]
    exact howner

/-- A rule on the walk other than the first has one place, and that is the one that is noted. -/
theorem exists_place (h : Forest 0 g.rules.toList [rootRule]) {id : RuleId} (hid : id ∈ g.ruleOrder)
    (hroot : id ≠ rootRule) : ∃ owner ∈ g.ruleOrder, g.owner? id = some owner ∧
      ∀ owner' key, g.Holds owner' key id ↔ owner' = owner ∧ key = (g.visit? id).bind Visit.key := by
  obtain ⟨owner, howner⟩ := exists_owner h hid hroot
  obtain ⟨hwalk, key, hplace⟩ := (owner?_eq_some_iff h).1 howner
  have hkey : (g.visit? id).bind Visit.key = key := by
    rw [visit?_of_holds h hwalk hplace]
    rfl
  refine ⟨owner, hwalk, howner, fun owner' key' => ?_⟩
  rw [hkey]
  constructor
  · exact fun hplace' => holds_unique h hplace' hplace
  · rintro ⟨rfl, rfl⟩
    exact hplace

/-- **What lies above a rule on the walk** is the rule itself or above its owner. -/
theorem below_iff_owner? (h : Forest 0 g.rules.toList [rootRule]) {above id : RuleId}
    (hid : id ∈ g.ruleOrder) : Below g.rules.toList above id ↔
      above = id ∨ ∃ owner, g.owner? id = some owner ∧ Below g.rules.toList above owner := by
  constructor
  · intro hbelow
    cases hbelow with
    | refl => exact .inl rfl
    | @step owner rule _ habove hrule howned =>
      obtain ⟨key, hplace⟩ := exists_holds hrule howned
      by_cases hroot : id = rootRule
      · subst hroot
        exact absurd hplace (not_holds_root h)
      · -- the rule has one owner, and that is the one that the walk has noted
        obtain ⟨owner', howner'⟩ := exists_owner h hid hroot
        obtain ⟨-, key', hplace'⟩ := (owner?_eq_some_iff h).1 howner'
        obtain ⟨rfl, -⟩ := holds_unique h hplace hplace'
        exact .inr ⟨owner, howner', habove⟩
  · rintro (rfl | ⟨owner, howner, habove⟩)
    · exact .refl
    · obtain ⟨-, key, hplace⟩ := (owner?_eq_some_iff h).1 howner
      obtain ⟨rule, hrule, howned⟩ := hplace.mem_owned
      exact .step habove hrule howned

end Grammar

end Highlight
