import Highlight.Pattern.Literal
import Highlight.Proofs.Links
import Highlight.Proofs.Owners

/-!
# Keys in lexical scope

An include that names a key means the nearest entry of that key in the rules around it. If there is
none, it means the first entry of the key that the walk through the grammar meets, wherever that is.
Repositories can stand in patterns, in other repositories and in captures alike, and what counts is what
was loaded of them.

- `Grammar.Encloses`, `Grammar.StandsUnder`, `Grammar.Means`: the rule about scopes, said without the
  walk's notes.
- `Grammar.nearestFrom?_eq_some`, `Grammar.nearestFrom?_eq_none`: looking a key up from owner to owner.
- `Grammar.anywhere?_eq_none_iff`, `Grammar.anywhere?_eq_some`: looking it up in all of the grammar.
- `Grammar.means_iff`: what is looked up is what the rule says.
- `Grammar.local_includes`: the main statement.
-/

namespace Highlight

namespace Entries

/-- A key has no value if it is not among the entries. -/
theorem get?_eq_none_iff {α : Type} {key : String} {entries : Entries α} :
    get? key entries = none ↔ ∀ e ∈ entries, e.1 ≠ key := by
  induction entries with
  | nil => simp [get?]
  | cons e rest ih =>
    obtain ⟨k, v⟩ := e
    by_cases hk : k = key
    · simp [get?, hk]
    · simp [get?, hk, ih]

end Entries

section

variable [Engine]

namespace Grammar

variable {g : Grammar} {key : String} {site : RuleId}

/-- A rule stands in another one, at whatever depth. -/
def Encloses (g : Grammar) (outer inner : RuleId) : Prop :=
  Below g.rules.toList outer inner ∧ outer ≠ inner

/-- A rule stands in a repository under a key. -/
def StandsUnder (g : Grammar) (key : String) (id : RuleId) : Prop :=
  ∃ owner, g.Holds owner (some key) id

/-- What a key means at a rule. -/
inductive Means (g : Grammar) (site : RuleId) (key : String) : Option RuleId → Prop
  /-- The entry of the innermost rule around that has one. -/
  | nearest {owner id : RuleId} : g.Encloses owner site →
      Entries.get? key (g.repositoryOf owner) = some id →
      (∀ other, g.Encloses other site → Entries.get? key (g.repositoryOf other) ≠ none →
        Below g.rules.toList other owner) → Means g site key (some id)
  /-- If there is none, the first rule on the walk that stands under the key. -/
  | first {before after : List RuleId} {id : RuleId} :
      (∀ owner, g.Encloses owner site → Entries.get? key (g.repositoryOf owner) = none) →
      g.ruleOrder = before ++ id :: after → g.StandsUnder key id →
      (∀ other ∈ before, ¬g.StandsUnder key other) → Means g site key (some id)
  /-- Nothing, if no rule that can be reached has an entry. -/
  | nowhere : (∀ owner, Below g.rules.toList rootRule owner →
      Entries.get? key (g.repositoryOf owner) = none) → Means g site key none

/-! ## Looking up -/

theorem holds_key_iff {owner id : RuleId} :
    g.Holds owner (some key) id ↔ (key, id) ∈ g.repositoryOf owner := by
  unfold Holds repositoryOf
  cases g.rule? owner with
  | none => simp
  | some rule => simp [Rule.children]

/-- The innermost rule with an entry, of a rule and those around it. -/
theorem nearestFrom?_eq_some (h : Forest 0 g.rules.toList [rootRule]) {levels : Nat}
    {start id : RuleId} (hstart : start ∈ g.ruleOrder)
    (hfound : g.nearestFrom? key levels (some start) = some id) :
    ∃ owner, Below g.rules.toList owner start ∧
      Entries.get? key (g.repositoryOf owner) = some id ∧
      ∀ other, Below g.rules.toList other start →
        Entries.get? key (g.repositoryOf other) ≠ none → Below g.rules.toList other owner := by
  induction levels generalizing start with
  | zero => cases hfound
  | succ levels ih =>
    rw [nearestFrom?] at hfound
    cases hentry : Entries.get? key (g.repositoryOf start) with
    | some found =>
      rw [hentry] at hfound
      cases hfound
      exact ⟨start, .refl, hentry, fun other hother _ => hother⟩
    | none =>
      rw [hentry] at hfound
      cases howner : g.owner? start with
      | none =>
        simp only [howner] at hfound
        cases levels <;> cases hfound
      | some owner =>
        simp only [howner] at hfound
        obtain ⟨holder, hbelow, hget, hinner⟩ := ih (owner_mem_ruleOrder howner) hfound
        refine ⟨holder, (below_iff_owner? h hstart).2 (.inr ⟨owner, howner, hbelow⟩), hget, ?_⟩
        intro other hother hhas
        rcases (below_iff_owner? h hstart).1 hother with rfl | ⟨owner', howner', hother⟩
        · exact absurd hentry hhas
        · rw [howner] at howner'
          cases howner'
          exact hinner other hother hhas

/-- With enough levels, nothing is found only if no rule around has an entry. -/
theorem nearestFrom?_eq_none (h : Forest 0 g.rules.toList [rootRule]) {levels : Nat}
    {start : RuleId} (hstart : start ∈ g.ruleOrder) (hlevels : start < levels)
    (hnone : g.nearestFrom? key levels (some start) = none) :
    ∀ other, Below g.rules.toList other start →
      Entries.get? key (g.repositoryOf other) = none := by
  induction levels generalizing start with
  | zero => exact absurd hlevels (Nat.not_lt_zero start)
  | succ levels ih =>
    rw [nearestFrom?] at hnone
    intro other hother
    cases hentry : Entries.get? key (g.repositoryOf start) with
    | some found =>
      rw [hentry] at hnone
      cases hnone
    | none =>
      rw [hentry] at hnone
      rcases (below_iff_owner? h hstart).1 hother with rfl | ⟨owner, howner, hother⟩
      · exact hentry
      · simp only [howner] at hnone
        have hlt : owner < levels :=
          Nat.lt_of_lt_of_le (owner_lt h howner) (Nat.le_of_lt_succ hlevels)
        exact ih (owner_mem_ruleOrder howner) hlt hnone other hother

/-- The rules that stand under a key, if they can be reached, are visited under it. -/
theorem key_of_standsUnder (h : Forest 0 g.rules.toList [rootRule]) {visit : Visit}
    (hvisit : visit ∈ g.visits) : g.StandsUnder key visit.rule ↔ visit.key = some key := by
  constructor
  · rintro ⟨owner, hplace⟩
    rcases place_of_mem_visits hvisit with rfl | ⟨owner', -, -, hplace'⟩
    · exact absurd hplace (not_holds_root h)
    · exact (holds_unique h hplace' hplace).2
  · intro hkey
    rcases place_of_mem_visits hvisit with rfl | ⟨owner, -, -, hplace⟩
    · cases hkey
    · exact ⟨owner, hkey ▸ hplace⟩

theorem anywhere?_eq_some (h : Forest 0 g.rules.toList [rootRule]) {id : RuleId}
    (hfound : g.anywhere? key = some id) : ∃ before after, g.ruleOrder = before ++ id :: after ∧
      g.StandsUnder key id ∧ ∀ other ∈ before, ¬g.StandsUnder key other := by
  obtain ⟨visit, hvisit, rfl⟩ := Option.map_eq_some_iff.1 hfound
  obtain ⟨hkey, before, after, hvisits, hbefore⟩ := List.find?_eq_some_iff_append.1 hvisit
  have hmem : visit ∈ g.visits := by rw [hvisits]; simp
  refine ⟨before.map Visit.rule, after.map Visit.rule, ?_, ?_, ?_⟩
  · rw [ruleOrder, hvisits, List.map_append, List.map_cons]
  · exact (key_of_standsUnder h hmem).2 (by simpa using hkey)
  · intro other hother hstands
    obtain ⟨earlier, hearlier, rfl⟩ := List.mem_map.1 hother
    have hmem : earlier ∈ g.visits := by rw [hvisits]; exact List.mem_append_left _ hearlier
    have hsame := (key_of_standsUnder h hmem).1 hstands
    simpa [hsame] using hbefore earlier hearlier

/-- A key is not met on the walk only if no rule that can be reached has an entry. -/
theorem anywhere?_eq_none_iff (h : Forest 0 g.rules.toList [rootRule]) : g.anywhere? key = none ↔
    ∀ owner, Below g.rules.toList rootRule owner →
      Entries.get? key (g.repositoryOf owner) = none := by
  unfold anywhere?
  rw [Option.map_eq_none_iff, List.find?_eq_none]
  constructor
  · intro hnone owner hreached
    rw [Entries.get?_eq_none_iff]
    rintro ⟨_, id⟩ hmem rfl
    have howner : owner ∈ g.ruleOrder := (mem_ruleOrder_iff h).2 hreached
    have hvisit := visit?_of_holds h howner (holds_key_iff.2 hmem)
    exact hnone _ (mem_visits_of_visit? hvisit).1 (by simp)
  · intro hnone visit hvisit hkey
    rcases place_of_mem_visits hvisit with rfl | ⟨owner, -, howner, hplace⟩
    · simp at hkey
    · rw [show visit.key = some key by simpa using hkey, holds_key_iff] at hplace
      exact Entries.get?_eq_none_iff.1 (hnone owner ((mem_ruleOrder_iff h).1 howner)) _ hplace rfl

/-! ## What a key means -/

/-- The rules around a rule on the walk are its owner and those around that. -/
theorem encloses_iff (h : Forest 0 g.rules.toList [rootRule]) (hsite : site ∈ g.ruleOrder)
    {outer : RuleId} : g.Encloses outer site ↔
      ∃ owner, g.owner? site = some owner ∧ Below g.rules.toList outer owner := by
  unfold Encloses
  rw [below_iff_owner? h hsite]
  constructor
  · rintro ⟨rfl | howner, hne⟩
    · exact absurd rfl hne
    · exact howner
  · rintro ⟨owner, howner, hbelow⟩
    refine ⟨.inr ⟨owner, howner, hbelow⟩, Nat.ne_of_lt ?_⟩
    exact Nat.lt_of_le_of_lt (h.le_of_below hbelow) (owner_lt h howner)

/-- What is around a rule that can be reached can be reached. -/
theorem Encloses.reached (h : Forest 0 g.rules.toList [rootRule]) (hsite : site ∈ g.ruleOrder)
    {outer : RuleId} (houter : g.Encloses outer site) : Below g.rules.toList rootRule outer := by
  rcases h.below_total ((mem_ruleOrder_iff h).1 hsite) houter.1 with hbelow | hbelow
  · exact hbelow
  · have hzero : outer = rootRule := Nat.le_zero.1 (h.le_of_below hbelow)
    rw [hzero]
    exact .refl

/-- What stands under a key and is on the walk is an entry of a rule that can be reached. -/
theorem StandsUnder.reached (h : Forest 0 g.rules.toList [rootRule]) {id : RuleId}
    (hid : id ∈ g.ruleOrder) (hstands : g.StandsUnder key id) :
    ∃ owner, Below g.rules.toList rootRule owner ∧
      Entries.get? key (g.repositoryOf owner) ≠ none := by
  obtain ⟨owner, hplace⟩ := hstands
  have hroot : id ≠ rootRule := by
    rintro rfl
    exact not_holds_root h hplace
  obtain ⟨owner', hwalk, -, hplaces⟩ := exists_place h hid hroot
  obtain ⟨rfl, -⟩ := (hplaces owner (some key)).1 hplace
  refine ⟨owner, (mem_ruleOrder_iff h).1 hwalk, fun hnone => ?_⟩
  exact Entries.get?_eq_none_iff.1 hnone _ (holds_key_iff.1 hplace) rfl

/-- What is looked up is what a key means. -/
theorem means_nearest? (h : Forest 0 g.rules.toList [rootRule]) (hsite : site ∈ g.ruleOrder)
    (key : String) : g.Means site key (g.nearest? site key) := by
  unfold nearest?
  cases hfrom : g.nearestFrom? key g.rules.size (g.owner? site) with
  | some found =>
    cases howner : g.owner? site with
    | none =>
      rw [howner] at hfrom
      cases hsize : g.rules.size <;> rw [hsize] at hfrom <;> cases hfrom
    | some owner =>
      rw [howner] at hfrom
      obtain ⟨holder, hbelow, hget, hinner⟩ :=
        nearestFrom?_eq_some h (owner_mem_ruleOrder howner) hfrom
      refine .nearest ((encloses_iff h hsite).2 ⟨owner, howner, hbelow⟩) hget ?_
      intro other hother hhas
      obtain ⟨owner', howner', hother⟩ := (encloses_iff h hsite).1 hother
      rw [howner] at howner'
      cases howner'
      exact hinner other hother hhas
  | none =>
    have hnone : ∀ owner, g.Encloses owner site →
        Entries.get? key (g.repositoryOf owner) = none := by
      intro outer houter
      obtain ⟨owner, howner, hbelow⟩ := (encloses_iff h hsite).1 houter
      rw [howner] at hfrom
      exact nearestFrom?_eq_none h (owner_mem_ruleOrder howner) (owner_lt_size howner) hfrom outer
        hbelow
    cases hanywhere : g.anywhere? key with
    | some found =>
      obtain ⟨before, after, horder, hstands, hbefore⟩ := anywhere?_eq_some h hanywhere
      exact .first hnone horder hstands hbefore
    | none => exact .nowhere ((anywhere?_eq_none_iff h).1 hanywhere)

omit [Engine] in
/-- Of two ways to single out the first with a property, both lead to the same one. -/
theorem eq_of_first {p : RuleId → Prop} {before before' after after' : List RuleId} {id id' : RuleId}
    (h : before ++ id :: after = before' ++ id' :: after') (hid : p id) (hid' : p id')
    (hbefore : ∀ x ∈ before, ¬p x) (hbefore' : ∀ x ∈ before', ¬p x) : id = id' := by
  induction before generalizing before' with
  | nil =>
    cases before' with
    | nil => exact (List.cons.inj h).1
    | cons x before' =>
      obtain rfl : id = x := (List.cons.inj h).1
      exact absurd hid (hbefore' id List.mem_cons_self)
  | cons x before ih =>
    obtain ⟨hx, hbefore⟩ := List.forall_mem_cons.1 hbefore
    cases before' with
    | nil =>
      obtain rfl : x = id' := (List.cons.inj h).1
      exact absurd hid' hx
    | cons x' before' =>
      exact ih (List.cons.inj h).2 hbefore (List.forall_mem_cons.1 hbefore').2

/-- A key means one thing at a rule. -/
theorem Means.unique (h : Forest 0 g.rules.toList [rootRule]) (hsite : site ∈ g.ruleOrder)
    {found found' : Option RuleId} (hfound : g.Means site key found)
    (hfound' : g.Means site key found') : found = found' := by
  have hwalk : ∀ {before after : List RuleId} {id : RuleId}, g.ruleOrder = before ++ id :: after →
      id ∈ g.ruleOrder := by
    intro before after id horder
    rw [horder]
    exact List.mem_append_right _ List.mem_cons_self
  cases hfound with
  | @nearest owner id houter hget hinner =>
    have hhas : Entries.get? key (g.repositoryOf owner) ≠ none := by
      rw [hget]
      exact nofun
    cases hfound' with
    | @nearest owner' id' houter' hget' hinner' =>
      -- each of the two is inside the other
      have hhas' : Entries.get? key (g.repositoryOf owner') ≠ none := by
        rw [hget']
        exact nofun
      obtain rfl : owner = owner' := Nat.le_antisymm
        (h.le_of_below (hinner' owner houter hhas)) (h.le_of_below (hinner owner' houter' hhas'))
      exact hget.symm.trans hget'
    | first hnone => exact absurd (hnone owner houter) hhas
    | nowhere hnone => exact absurd (hnone owner (houter.reached h hsite)) hhas
  | first hnone horder hstands hbefore =>
    cases hfound' with
    | @nearest owner id houter hget =>
      rw [hnone owner houter] at hget
      cases hget
    | first _ horder' hstands' hbefore' =>
      rw [horder] at horder'
      exact congrArg some (eq_of_first horder' hstands hstands' hbefore hbefore')
    | nowhere hnone' =>
      obtain ⟨owner, hreached, hhas⟩ := hstands.reached h (hwalk horder)
      exact absurd (hnone' owner hreached) hhas
  | nowhere hnone =>
    cases hfound' with
    | @nearest owner id houter hget =>
      rw [hnone owner (houter.reached h hsite)] at hget
      cases hget
    | first _ horder hstands =>
      obtain ⟨owner, hreached, hhas⟩ := hstands.reached h (hwalk horder)
      exact absurd (hnone owner hreached) hhas
    | nowhere => rfl

theorem means_iff (h : Forest 0 g.rules.toList [rootRule]) (hsite : site ∈ g.ruleOrder)
    {found : Option RuleId} : g.Means site key found ↔ found = g.nearest? site key := by
  constructor
  · exact fun hfound => hfound.unique h hsite (means_nearest? h hsite key)
  · rintro rfl
    exact means_nearest? h hsite key

/-- A key means nothing only if no rule that can be reached has an entry of it. -/
theorem means_none_iff : g.Means site key none ↔ ∀ owner, Below g.rules.toList rootRule owner →
    Entries.get? key (g.repositoryOf owner) = none := by
  constructor
  · intro hmeans
    cases hmeans with
    | nowhere hnone => exact hnone
  · exact .nowhere

/-- **Local includes follow lexical scope.** An include of a key is bound to the one thing that the key
means at it. It is without a target, and there is a diagnostic for it at its place, if and only if no
rule that can be reached has an entry of the key. -/
theorem local_includes (d : GrammarDefinition) (g : Grammar) (hd : ofDefinition d = .ok g)
    (path : String) (find : String → Option Grammar) :
    (∀ site key, g.Includes site (.entry key) → ∃ found,
      (∀ other, g.Means site key other ↔ other = found) ∧
      (g.link path find).target? site = found.map (fun id => .rule ⟨path, id⟩) ∧
      ((g.link path find).target? site = none ↔ ∀ owner, Below g.rules.toList rootRule owner →
        Entries.get? key (g.repositoryOf owner) = none)) ∧
    ∃ ids : List RuleId, ids.Nodup ∧
      (∀ site key, g.Includes site (.entry key) → (site ∈ ids ↔
        ∀ owner, Below g.rules.toList rootRule owner →
          Entries.get? key (g.repositoryOf owner) = none)) ∧
      List.Forall₂ (fun id d => ∃ rule reference, g.rule? id = some rule ∧
        rule.kind = .link reference ∧ d = ⟨rule.location, .unresolvedReference reference.text⟩)
        ids (g.link path find).unresolved := by
  have h := forest_of_ofDefinition hd
  have htarget : ∀ {site key}, g.Includes site (.entry key) →
      (g.link path find).target? site = (g.nearest? site key).map fun id => .rule ⟨path, id⟩ :=
    fun hincludes => target?_link h hincludes
  have hnone : ∀ {site key}, g.Includes site (.entry key) →
      ((g.link path find).target? site = none ↔ ∀ owner, Below g.rules.toList rootRule owner →
        Entries.get? key (g.repositoryOf owner) = none) := by
    intro site key hincludes
    have hsite : site ∈ g.ruleOrder := ((includes_iff h).1 hincludes).1
    rw [htarget hincludes, Option.map_eq_none_iff, ← means_none_iff, means_iff h hsite,
      eq_comm]
  refine ⟨fun site key hincludes => ?_, ?_⟩
  · have hsite : site ∈ g.ruleOrder := ((includes_iff h).1 hincludes).1
    exact ⟨g.nearest? site key, fun _ => means_iff h hsite, htarget hincludes, hnone hincludes⟩
  · obtain ⟨ids, hnodup, hids, hdiagnostics⟩ := unresolved_link path find h
    refine ⟨ids, hnodup, fun site key hincludes => ?_, hdiagnostics⟩
    rw [← hnone hincludes, hids]
    exact ⟨fun hid => hid.choose_spec.2, fun htarget => ⟨_, hincludes, htarget⟩⟩

end Grammar

end

namespace Grammar

/-- An entry that hides another one, the one that is hidden only in the region, an entry that is found
from outside the region it stands in, and one that is missing. -/
theorem local_includes_nested :
    let x : Part := .name { chars := ['x'] }
    let naming : String → RuleDefinition := fun value => { keys := { includeText := some value } }
    let single : String → RuleDefinition := fun text => { keys := { matchText := some text } }
    let region : RuleDefinition :=
      { keys := { beginText := some "a", endText := some "b" }, patterns := some [naming "#item"],
        repository := some [("deep", single "d"), ("item", single "inner")] }
    let d : GrammarDefinition :=
      { scopeName := some "x", patterns := [region, naming "#item", naming "#deep", naming "#gone"],
        repository := [("item", single "outer")] }
    let g := ofScoped d ⟨[x], by decide⟩
    let linked := g.link "x" fun _ => none
    ofDefinition d = .ok g ∧ g.Includes 4 (.entry "item") ∧ g.Includes 5 (.entry "item") ∧
      g.Includes 6 (.entry "deep") ∧ g.Includes 7 (.entry "gone") ∧
      g.Means 4 "item" (some 3) ∧ linked.target? 4 = some (.rule ⟨"x", 3⟩) ∧
      g.Means 5 "item" (some 8) ∧ linked.target? 5 = some (.rule ⟨"x", 8⟩) ∧
      g.Means 6 "deep" (some 2) ∧ linked.target? 6 = some (.rule ⟨"x", 2⟩) ∧
      linked.target? 7 = none ∧
      linked.unresolved = [⟨"patterns[3]", .unresolvedReference "#gone"⟩] := by
  intro x naming single region d g linked
  have hd : ofDefinition d = .ok g := rfl
  have h := forest_of_ofDefinition hd
  obtain ⟨hlocal, -⟩ := local_includes d g hd "x" fun _ => none
  have horder : g.ruleOrder = [0, 1, 4, 2, 3, 5, 6, 7, 8] := by decide +kernel +zetaReduce
  have hsite : ∀ site ∈ [4, 5, 6, 7], site ∈ g.ruleOrder := by
    rw [horder]
    decide
  have hitem : g.Includes 4 (.entry "item") :=
    includes_of_include? h (hsite 4 (by decide)) (by decide +kernel +zetaReduce)
  have houter : g.Includes 5 (.entry "item") :=
    includes_of_include? h (hsite 5 (by decide)) (by decide +kernel +zetaReduce)
  have hdeep : g.Includes 6 (.entry "deep") :=
    includes_of_include? h (hsite 6 (by decide)) (by decide +kernel +zetaReduce)
  have hgone : g.Includes 7 (.entry "gone") :=
    includes_of_include? h (hsite 7 (by decide)) (by decide +kernel +zetaReduce)
  have hmeans : g.Means 4 "item" (some 3) ∧ g.Means 5 "item" (some 8) ∧ g.Means 6 "deep" (some 2) ∧
      g.Means 7 "gone" none := by
    rw [means_iff h (hsite 4 (by decide)), means_iff h (hsite 5 (by decide)),
      means_iff h (hsite 6 (by decide)), means_iff h (hsite 7 (by decide))]
    decide +kernel +zetaReduce
  obtain ⟨hmeans₄, hmeans₅, hmeans₆, hmeans₇⟩ := hmeans
  -- what a key means is what the include is bound to
  have hbound : ∀ {site : RuleId} {key : String} {found : Option RuleId},
      g.Includes site (.entry key) → g.Means site key found →
      linked.target? site = found.map fun id => .rule ⟨"x", id⟩ := by
    intro site key found hincludes hfound
    obtain ⟨_, hunique, htarget, -⟩ := hlocal site key hincludes
    rw [(hunique found).1 hfound]
    exact htarget
  refine ⟨hd, hitem, houter, hdeep, hgone, hmeans₄, hbound hitem hmeans₄, hmeans₅,
    hbound houter hmeans₅, hmeans₆, hbound hdeep hmeans₆, hbound hgone hmeans₇, ?_⟩
  decide +kernel +zetaReduce

end Grammar

end Highlight
