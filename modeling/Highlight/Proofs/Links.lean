import Highlight.Pattern.Literal
import Highlight.Proofs.PathTree
import Highlight.Proofs.Walk
import Highlight.Registry
import Mathlib.Data.List.Basic
import Mathlib.Logic.Function.Basic

/-!
# Links are always current

What a reference is bound to depends on the grammar itself and on the grammar at the path that the
reference names. So when a path gets another grammar or none, the links of all grammars that do not
name this path are still right, and linking the others again, one after the other, makes all links
right: linking a grammar changes nothing that linking another one looks at.

- `Grammar.link_congr`: what the links of a grammar depend on.
- `Grammar.Includes`, `LinkedGrammar.Current`: what a linked grammar says of its includes.
- `Registry.Reached`: the registries that placing, removing and linking again lead to, and the
  grammars that were placed in them last.
- `Registry.relinkList_current`: linking those again that may be out of date.
- `Registry.Reached.linked`: the grammar at each path is the one that was placed there, linked.
- `Registry.links_current`: the main statement.
-/

namespace Highlight

section

variable [Engine]

namespace Grammar

variable {g : Grammar} {path : String} {find find' : String → Option Grammar}

/-- **A reference is bound by the grammar that it names.** Its own grammar is never looked for. -/
theorem bind?_congr {reference : Reference} (h : ∀ scope, reference.externalScope? = some scope →
    scope ≠ path → find scope = find' scope) (site : RuleId) :
    g.bind? path find site reference = g.bind? path find' site reference := by
  cases reference with
  | base => rfl
  | self => rfl
  | entry key => rfl
  | external scope key =>
    rw [bind?, bind?]
    by_cases hscope : scope = path
    · rw [if_pos hscope, if_pos hscope]
    · rw [if_neg hscope, if_neg hscope, h scope rfl hscope]

theorem mem_externalScopes {id : RuleId} {rule : Rule} {reference : Reference} {scope : String}
    (hrule : g.rule? id = some rule) (hkind : rule.kind = .link reference)
    (hscope : reference.externalScope? = some scope) : scope ∈ g.externalScopes := by
  refine List.mem_filterMap.2 ⟨rule, Array.mem_toList_iff.2 (Array.mem_of_getElem? hrule), ?_⟩
  rw [hkind]
  exact hscope

/-- The links of a grammar depend on the grammars at the paths that it names. -/
theorem link_congr (h : ∀ scope ∈ g.externalScopes, scope ≠ path → find scope = find' scope) :
    g.link path find = g.link path find' := by
  have hbind : ∀ {id : RuleId} {rule : Rule} {reference : Reference}, g.rule? id = some rule →
      rule.kind = .link reference → ∀ site : RuleId,
      g.bind? path find site reference = g.bind? path find' site reference := by
    intro id rule reference hrule hkind
    exact bind?_congr fun scope hscope => h scope (mem_externalScopes hrule hkind hscope)
  unfold link
  congr 1
  · refine Array.map_congr_left fun rule hrule => ?_
    obtain ⟨id, hid⟩ := Array.getElem?_of_mem hrule
    unfold targetOf
    split
    · rename_i reference hkind
      rw [hbind hid hkind]
    · rfl
  · refine List.filterMap_congr fun id _ => ?_
    unfold unresolved?
    split
    · rename_i rule hrule
      split
      · rename_i reference hkind
        rw [hbind hrule hkind]
      · rfl
    · rfl

/-- A rule that can be reached from the first is an include. -/
def Includes (g : Grammar) (id : RuleId) (reference : Reference) : Prop :=
  Below g.rules.toList rootRule id ∧ ∃ rule, g.rule? id = some rule ∧ rule.kind = .link reference

/-- The includes are met on the walk. -/
theorem includes_iff (hforest : Forest 0 g.rules.toList [rootRule]) {id : RuleId}
    {reference : Reference} : g.Includes id reference ↔
      id ∈ g.ruleOrder ∧ ∃ rule, g.rule? id = some rule ∧ rule.kind = .link reference := by
  refine and_congr_left fun h => ?_
  obtain ⟨rule, hrule, -⟩ := h
  exact (mem_ruleOrder_iff_below hforest (by rw [hrule]; rfl)).symm

/-- The rule with a number and the reference that it includes, if it is an include. -/
def include? (g : Grammar) (id : RuleId) : Option (Rule × Reference) :=
  match g.rule? id with
  | some rule =>
    match rule.kind with
    | .link reference => some (rule, reference)
    | _ => none
  | none => none

theorem include?_eq_some {id : RuleId} {rule : Rule} {reference : Reference}
    (h : g.include? id = some (rule, reference)) :
    g.rule? id = some rule ∧ rule.kind = .link reference := by
  unfold include? at h
  split at h
  · rename_i found hfound
    split at h
    · rename_i hkind
      cases h
      exact ⟨hfound, hkind⟩
    · cases h
  · cases h

theorem includes_of_include? (hforest : Forest 0 g.rules.toList [rootRule]) {id : RuleId}
    {reference : Reference} (hwalk : id ∈ g.ruleOrder)
    (h : (g.include? id).map Prod.snd = some reference) : g.Includes id reference := by
  obtain ⟨⟨rule, reference⟩, hinclude, rfl⟩ := Option.map_eq_some_iff.1 h
  exact (includes_iff hforest).2 ⟨hwalk, rule, include?_eq_some hinclude⟩

/-- The target of an include is what its reference names. -/
theorem target?_link (hforest : Forest 0 g.rules.toList [rootRule]) {id : RuleId}
    {reference : Reference} (h : g.Includes id reference) :
    (g.link path find).target? id = g.bind? path find id reference := by
  obtain ⟨hwalk, rule, hrule, hkind⟩ := (includes_iff hforest).1 h
  have hid : 0 + id = rule.id := hforest.id_eq (by rwa [Array.getElem?_toList])
  rw [Nat.zero_add] at hid
  show ((g.rules.map (g.targetOf path find))[id]?).join = _
  rw [Array.getElem?_map, show g.rules[id]? = some rule from hrule]
  show g.targetOf path find rule = _
  unfold targetOf
  rw [hkind, ← hid]
  exact if_pos (mem_ruleOrder.1 hwalk)

/-- Nothing but an include has a target. -/
theorem includes_of_target? (hforest : Forest 0 g.rules.toList [rootRule]) {id : RuleId}
    {target : Target} (h : (g.link path find).target? id = some target) :
    ∃ reference, g.Includes id reference := by
  have hfound : (g.rules.map (g.targetOf path find))[id]? = some (some target) :=
    Option.join_eq_some_iff.1 h
  rw [Array.getElem?_map] at hfound
  obtain ⟨rule, hrule, htarget⟩ := Option.map_eq_some_iff.1 hfound
  have hid : 0 + id = rule.id := hforest.id_eq (by rwa [Array.getElem?_toList])
  rw [Nat.zero_add] at hid
  unfold targetOf at htarget
  split at htarget
  · rename_i reference hkind
    split at htarget
    · rename_i hwalk
      rw [← hid] at hwalk
      exact ⟨reference, (includes_iff hforest).2 ⟨mem_ruleOrder.2 hwalk, rule, hrule, hkind⟩⟩
    · cases htarget
  · cases htarget

/-- What a reference names is a rule on the walk of a grammar that is there. -/
theorem mem_ruleOrder_of_bind? (hself : find path = some g)
    (hforest : ∀ scope other, find scope = some other → Forest 0 other.rules.toList [rootRule])
    {site : RuleId} {reference : Reference} {ref : RuleRef}
    (h : g.bind? path find site reference = some (.rule ref)) :
    ∃ other, find ref.grammar = some other ∧ ref.rule ∈ other.ruleOrder := by
  have hown := hforest path g hself
  cases reference with
  | base => cases h
  | self =>
    cases h
    exact ⟨g, hself, root_mem_ruleOrder hown⟩
  | entry key =>
    obtain ⟨id, hid, htarget⟩ := Option.map_eq_some_iff.1 h
    cases htarget
    exact ⟨g, hself, mem_ruleOrder_of_nearest? hown hid⟩
  | external scope key =>
    rw [bind?] at h
    -- the path of the grammar itself is not looked for, but leads to it as well
    have hfind : ∀ {other : Grammar}, (if scope = path then some g else find scope) = some other →
        find scope = some other := by
      intro other hother
      split at hother
      · rename_i heq
        rw [heq, hself]
        exact hother
      · exact hother
    split at h
    · cases h
    · rename_i other hother
      have hscope := hfind hother
      have hthere := hforest scope other hscope
      cases key with
      | none =>
        cases h
        exact ⟨other, hscope, root_mem_ruleOrder hthere⟩
      | some key =>
        obtain ⟨id, hid, htarget⟩ := Option.map_eq_some_iff.1 h
        cases htarget
        exact ⟨other, hscope, mem_ruleOrder_of_entry? hthere hid⟩

/-- What an include is bound to is on the walk of a grammar that is there. -/
theorem mem_ruleOrder_of_target? (hself : find path = some g)
    (hforest : ∀ scope other, find scope = some other → Forest 0 other.rules.toList [rootRule])
    {id : RuleId} {ref : RuleRef} (h : (g.link path find).target? id = some (.rule ref)) :
    ∃ other, find ref.grammar = some other ∧ ref.rule ∈ other.ruleOrder := by
  obtain ⟨reference, hincludes⟩ := includes_of_target? (hforest path g hself) h
  rw [target?_link (hforest path g hself) hincludes] at h
  exact mem_ruleOrder_of_bind? hself hforest h

end Grammar

/-- What a linked grammar says of its includes, when grammars are held at paths: each target is what
binding it now gives, each include without one has its diagnostic, and targets exist. -/
structure LinkedGrammar.Current (g : LinkedGrammar) (path : String)
    (held : String → Option Grammar) : Prop where
  linked : g = g.grammar.link path held
  path_eq : g.path = path
  target : ∀ id reference, g.grammar.Includes id reference →
    g.target? id = g.grammar.bind? path held id reference
  base : ∀ id, g.grammar.Includes id .base → g.target? id = some .base
  /-- The diagnostics are in the order of the includes that they are about. -/
  unresolved : ∃ ids : List RuleId, ids.Nodup ∧
    (∀ id, id ∈ ids ↔ ∃ reference, g.grammar.Includes id reference ∧ g.target? id = none) ∧
    List.Forall₂ (fun id d => ∃ rule reference, g.grammar.rule? id = some rule ∧
      rule.kind = .link reference ∧ d = ⟨rule.location, .unresolvedReference reference.text⟩)
      ids g.unresolved
  registered : ∀ id ref, g.target? id = some (.rule ref) →
    ∃ other, held ref.grammar = some other ∧ (other.rule? ref.rule).isSome

namespace Grammar

variable {g : Grammar} {path : String} {find : String → Option Grammar}

theorem unresolved?_eq_some {id : RuleId} {d : Diagnostic}
    (h : g.unresolved? path find id = some d) : ∃ rule reference, g.rule? id = some rule ∧
      rule.kind = .link reference ∧ g.bind? path find id reference = none ∧
      d = ⟨rule.location, .unresolvedReference reference.text⟩ := by
  unfold unresolved? at h
  split at h
  · rename_i rule hrule
    split at h
    · rename_i reference hkind
      split at h
      · cases h
      · rename_i hnone
        cases h
        exact ⟨rule, reference, hrule, hkind, hnone, rfl⟩
    · cases h
  · cases h

theorem unresolved?_isSome {id : RuleId} {rule : Rule} {reference : Reference}
    (hrule : g.rule? id = some rule) (hkind : rule.kind = .link reference)
    (hnone : g.bind? path find id reference = none) : (g.unresolved? path find id).isSome := by
  unfold unresolved?
  rw [hrule]
  simp only
  rw [hkind]
  simp only
  rw [hnone]
  rfl

/-- The diagnostics of a link are those of the includes without a target, each with its own. -/
theorem unresolved_link (path : String) (find : String → Option Grammar)
    (hown : Forest 0 g.rules.toList [rootRule]) : ∃ ids : List RuleId, ids.Nodup ∧
    (∀ id, id ∈ ids ↔
      ∃ reference, g.Includes id reference ∧ (g.link path find).target? id = none) ∧
    List.Forall₂ (fun id d => ∃ rule reference, g.rule? id = some rule ∧
      rule.kind = .link reference ∧ d = ⟨rule.location, .unresolvedReference reference.text⟩)
      ids (g.link path find).unresolved := by
  -- the includes that give a diagnostic, in the order of the walk
  refine ⟨g.ruleOrder.filter fun id => (g.unresolved? path find id).isSome,
    (ruleOrder_nodup hown).filter _, fun id => ⟨fun hid => ?_, ?_⟩, ?_⟩
  · obtain ⟨hwalk, hsome⟩ := List.mem_filter.1 hid
    obtain ⟨d, hd⟩ := Option.isSome_iff_exists.1 hsome
    obtain ⟨rule, reference, hrule, hkind, hnone, -⟩ := unresolved?_eq_some hd
    have hincludes : g.Includes id reference :=
      (includes_iff hown).2 ⟨hwalk, rule, hrule, hkind⟩
    exact ⟨reference, hincludes, (target?_link hown hincludes).trans hnone⟩
  · rintro ⟨reference, hincludes, hnone⟩
    rw [target?_link hown hincludes] at hnone
    obtain ⟨hwalk, rule, hrule, hkind⟩ := (includes_iff hown).1 hincludes
    exact List.mem_filter.2 ⟨hwalk, unresolved?_isSome hrule hkind hnone⟩
  · show List.Forall₂ _ _ (g.ruleOrder.filterMap (g.unresolved? path find))
    induction g.ruleOrder with
    | nil => exact .nil
    | cons id ids ih =>
      cases hd : g.unresolved? path find id with
      | none =>
        rw [List.filterMap_cons_none hd, List.filter_cons_of_neg (by simp [hd])]
        exact ih
      | some d =>
        rw [List.filterMap_cons_some hd, List.filter_cons_of_pos (by simp [hd])]
        obtain ⟨rule, reference, hrule, hkind, -, hdiagnostic⟩ := unresolved?_eq_some hd
        exact .cons ⟨rule, reference, hrule, hkind, hdiagnostic⟩ ih

/-- A grammar that has just been linked is current. -/
theorem current_link (hself : find path = some g)
    (hforest : ∀ scope other, find scope = some other → Forest 0 other.rules.toList [rootRule]) :
    (g.link path find).Current path find where
  linked := rfl
  path_eq := rfl
  target _ _ h := target?_link (hforest path g hself) h
  base _ h := target?_link (hforest path g hself) h
  unresolved := unresolved_link path find (hforest path g hself)
  registered id ref h := by
    obtain ⟨other, hother, hmem⟩ := mem_ruleOrder_of_target? hself hforest h
    exact ⟨other, hother, rule_of_mem_ruleOrder hmem⟩

end Grammar

/-! ## One link after the other -/

namespace Registry

variable {r : Registry}

theorem find?_relink (path other : String) : (r.relink path).find? other =
    if other = path then (r.find? path).map fun g => g.grammar.link path r.loaded?
    else r.find? other := by
  unfold relink
  cases hfind : r.find? path with
  | none =>
    show r.find? other = _
    split
    · rename_i heq
      rw [heq, hfind]
      rfl
    · rfl
  | some g =>
    simp only
    by_cases heq : other = path
    · rw [if_pos heq, heq]
      show Tree.get? (segments path) (Tree.insert _ (segments path) _) = _
      rw [Tree.get?_insert_self, Option.map_some]
      -- the grammar itself is not among the others, and is not looked for there
      refine congrArg some (Grammar.link_congr fun scope _ hscope => ?_)
      exact congrArg (Option.map LinkedGrammar.grammar)
        (Tree.get?_clear_other fun h => hscope (segments_injective h))
    · have hsegments : segments other ≠ segments path := fun h => heq (segments_injective h)
      rw [if_neg heq]
      show Tree.get? (segments other) (Tree.insert _ (segments path) _) = _
      rw [Tree.get?_insert_other hsegments, Tree.get?_clear_other hsegments]
      rfl

/-- Linking changes nothing that linking looks at. -/
theorem loaded?_relink (path : String) : (r.relink path).loaded? = r.loaded? := by
  funext other
  unfold loaded?
  rw [find?_relink]
  split
  · rename_i heq
    rw [heq, Option.map_map]
    rfl
  · rfl

/-- **Linking several grammars, one after the other**, gives the same as linking all of them against
the grammars as they were loaded. -/
theorem find?_relinkList (paths : List String) (other : String) :
    (r.relinkList paths).find? other =
      if other ∈ paths then (r.find? other).map fun g => g.grammar.link other r.loaded?
      else r.find? other := by
  induction paths generalizing r with
  | nil => rfl
  | cons path paths ih =>
    show ((r.relink path).relinkList paths).find? other = _
    rw [ih, loaded?_relink, find?_relink]
    by_cases heq : other = path
    · subst heq
      rw [if_pos rfl, if_pos List.mem_cons_self, Option.map_map]
      split
      · rfl
      · rfl
    · rw [if_neg heq]
      simp only [List.mem_cons, heq, false_or]

theorem proper_relinkList (h : r.tree.Proper) (paths : List String) :
    (r.relinkList paths).tree.Proper := by
  induction paths generalizing r with
  | nil => exact h
  | cons path paths ih =>
    refine ih (r := r.relink path) ?_
    unfold relink
    cases hfind : r.find? path with
    | none => exact h
    | some g => exact (h.clear _).insert _ (h.keys hfind)

/-- Linking those again that may be out of date makes all links current. -/
theorem relinkList_current {paths : List String} (h : ∀ path g, r.find? path = some g →
    path ∈ paths ∨ g = g.grammar.link path r.loaded?) (path : String) :
    (r.relinkList paths).find? path = (r.loaded? path).map fun g => g.link path r.loaded? := by
  rw [find?_relinkList]
  unfold loaded?
  cases hfind : r.find? path with
  | none => split <;> rfl
  | some g =>
    rcases h path g hfind with hmem | hcurrent
    · rw [if_pos hmem]
      rfl
    · split
      · rfl
      · exact congrArg some hcurrent

/-- Linking a grammar again whose links are current changes nothing. -/
theorem relink_eq_self (h : r.tree.Proper) {path : String}
    (hcurrent : ∀ g, r.find? path = some g → g = g.grammar.link path r.loaded?) :
    r.relink path = r := by
  unfold relink
  cases hfind : r.find? path with
  | none => rfl
  | some g =>
    have hlink : g.grammar.link path (Registry.loaded? ⟨r.tree.clear (segments path)⟩) = g := by
      refine (Grammar.link_congr fun scope _ hscope => ?_).trans (hcurrent g hfind).symm
      exact congrArg (Option.map LinkedGrammar.grammar)
        (Tree.get?_clear_other fun h => hscope (segments_injective h))
    simp only
    rw [hlink, Tree.insert_clear h hfind]

theorem mem_dependents (h : r.tree.Proper) {path other : String} {g : LinkedGrammar}
    (hfind : r.find? other = some g) (hscope : path ∈ g.grammar.externalScopes) :
    other ∈ r.dependents path := by
  have hmem : (other, g) ∈ r.grammars := h.mem_toList hfind
  refine List.mem_map.2 ⟨(other, g), List.mem_filter.2 ⟨hmem, ?_⟩, rfl⟩
  simpa using hscope

/-! ## The registries that there are -/

/-- The registries that placing, removing and linking again lead to. Beside each stands the grammar
that was placed last at each path and not removed since. -/
inductive Reached : Registry → (String → Option Grammar) → Prop
  | empty : Reached .empty fun _ => none
  | register {r r' : Registry} {held : String → Option Grammar} {d : GrammarDefinition} {g : Grammar}
      {path : String} : Reached r held → Grammar.ofDefinition d = .ok g → r.register g path = .ok r' →
      Reached r' (Function.update held path (some g))
  | unregister {r r' : Registry} {held : String → Option Grammar} {g : LinkedGrammar}
      {path : String} : Reached r held → r.unregister? path = some (g, r') →
      Reached r' (Function.update held path none)
  | relinkAll {r : Registry} {held : String → Option Grammar} : Reached r held →
      Reached r.relinkAll held

/-- The grammar at each path is the one that is held there, linked against those that are held. -/
structure Linked (r : Registry) (held : String → Option Grammar) : Prop where
  proper : r.tree.Proper
  find? : ∀ path, r.find? path = (held path).map fun g => g.link path held
  loaded : ∀ path g, held path = some g → ∃ d, Grammar.ofDefinition d = .ok g

namespace Linked

variable {held : String → Option Grammar}

theorem loaded?_eq (h : r.Linked held) : r.loaded? = held := by
  funext path
  unfold loaded?
  rw [h.find?, Option.map_map]
  exact Option.map_id' (x := held path)

theorem forest (h : r.Linked held) {path : String} {g : Grammar} (hg : held path = some g) :
    Forest 0 g.rules.toList [rootRule] := by
  obtain ⟨d, hd⟩ := h.loaded path g hg
  exact Grammar.forest_of_ofDefinition hd

/-- A rule that a reference leads to is one of the grammar that is held at its path. -/
theorem of_rule? (h : r.Linked held) {ref : RuleRef} {rule : Rule} (hrule : r.rule? ref = some rule) :
    ∃ g, held ref.grammar = some g ∧ g.rule? ref.rule = some rule := by
  rw [Registry.rule?, if_pos (lt_of_rule? hrule), h.find?] at hrule
  obtain ⟨linked, hlinked, hrule⟩ := Option.bind_eq_some_iff.1 hrule
  obtain ⟨g, hg, rfl⟩ := Option.map_eq_some_iff.1 hlinked
  exact ⟨g, hg, hrule⟩

/-- A grammar that is found is the one that is held. -/
theorem held_of_find? (h : r.Linked held) {path : String} {g : LinkedGrammar}
    (hfind : r.find? path = some g) : held path = some g.grammar := by
  rw [← h.loaded?_eq, loaded?, hfind]
  rfl

/-- A grammar that is found was loaded. -/
theorem of_find? (h : r.Linked held) {path : String} {g : LinkedGrammar}
    (hfind : r.find? path = some g) : ∃ d, Grammar.ofDefinition d = .ok g.grammar := by
  rw [h.find?] at hfind
  obtain ⟨loaded, hheld, rfl⟩ := Option.map_eq_some_iff.1 hfind
  exact h.loaded path loaded hheld

theorem current (h : r.Linked held) {path : String} {g : LinkedGrammar}
    (hfind : r.find? path = some g) : g.Current path held := by
  rw [h.find?] at hfind
  obtain ⟨other, hother, rfl⟩ := Option.map_eq_some_iff.1 hfind
  exact Grammar.current_link hother fun _ _ => h.forest

/-- After a change at a path, the grammars that do not name it are still linked right. -/
theorem relink_dependents (h : r.Linked held) {changed : Registry} {path : String}
    {value : Option Grammar} {paths : List String} (hproper : changed.tree.Proper)
    (hpath : changed.loaded? path = value) (hself : value.isSome → path ∈ paths)
    (hothers : ∀ other, other ≠ path → changed.find? other = r.find? other)
    (hdependents : ∀ other ∈ changed.dependents path, other ≠ path → other ∈ paths)
    (hloaded : ∀ g, value = some g → ∃ d, Grammar.ofDefinition d = .ok g) :
    (changed.relinkList paths).Linked (Function.update held path value) := by
  have hheld : changed.loaded? = Function.update held path value := by
    funext other
    by_cases heq : other = path
    · rw [heq, Function.update_self, hpath]
    · rw [Function.update_of_ne heq, ← h.loaded?_eq]
      exact congrArg (Option.map LinkedGrammar.grammar) (hothers other heq)
  have hcurrent : ∀ other g, changed.find? other = some g →
      other ∈ paths ∨ g = g.grammar.link other changed.loaded? := by
    intro other g hfind
    by_cases heq : other = path
    · subst heq
      refine .inl (hself ?_)
      rw [← hpath, loaded?, hfind]
      rfl
    · by_cases hscope : path ∈ g.grammar.externalScopes
      · exact .inl (hdependents other (mem_dependents hproper hfind hscope) heq)
      · -- the links were current, and the path that has changed is not among those it names
        refine .inr ?_
        rw [hothers other heq] at hfind
        refine (h.current hfind).linked.trans (Grammar.link_congr fun scope hmem _ => ?_)
        have hne : scope ≠ path := fun heq => hscope (heq ▸ hmem)
        rw [hheld, Function.update_of_ne hne]
  refine ⟨proper_relinkList hproper paths, fun other => ?_, fun other g hg => ?_⟩
  · rw [relinkList_current hcurrent, hheld]
  · by_cases heq : other = path
    · rw [heq, Function.update_self] at hg
      exact hloaded g hg
    · rw [Function.update_of_ne heq] at hg
      exact h.loaded other g hg

theorem relinkAll_eq (h : r.Linked held) : r.relinkAll = r := by
  have hfixed : ∀ paths : List String, r.relinkList paths = r := by
    intro paths
    induction paths with
    | nil => rfl
    | cons path paths ih =>
      show (r.relink path).relinkList paths = r
      have hself : r.relink path = r := by
        refine relink_eq_self h.proper fun g hfind => ?_
        rw [h.loaded?_eq]
        exact (h.current hfind).linked
      rw [hself, ih]
  exact hfixed _

end Linked

omit [Engine] in
/-- A path at which a grammar can be placed has no empty parts. -/
theorem segments_of_checkPath {path : String} (h : checkPath path = .ok ()) :
    ∀ s ∈ segments path, s ≠ "" := by
  unfold checkPath at h
  split at h
  · cases h
  · rename_i scope hscope
    exact segments_of_scope hscope

theorem register_eq_ok {g : Grammar} {path : String} {r' : Registry} :
    r.register g path = .ok r' ↔ checkPath path = .ok () ∧
      (⟨r.tree.insert g.unlinked (segments path)⟩ : Registry).relinkList (path ::
        (dependents ⟨r.tree.insert g.unlinked (segments path)⟩ path).filter (· != path)) = r' := by
  unfold register
  cases checkPath path with
  | error e =>
    constructor
    · exact fun h => nomatch h
    · exact fun h => nomatch h.1
  | ok _ =>
    constructor
    · exact fun h => ⟨rfl, Except.ok.inj h⟩
    · exact fun h => congrArg Except.ok h.2

/-- **Every registry is linked against the grammars that it holds.** -/
theorem Reached.linked {held : String → Option Grammar} (h : Reached r held) : r.Linked held := by
  induction h with
  | empty => exact ⟨.empty, fun path => Tree.get?_empty _, nofun⟩
  | @register r r' held d g path _ hg hregister ih =>
    obtain ⟨hpath, rfl⟩ := register_eq_ok.1 hregister
    refine ih.relink_dependents (ih.proper.insert _ (segments_of_checkPath hpath)) ?_
      (fun _ => List.mem_cons_self) (fun other hne => ?_) (fun other hmem hne => ?_) ?_
    · show Option.map LinkedGrammar.grammar (Tree.get? _ _) = some g
      rw [Tree.get?_insert_self]
      rfl
    · exact Tree.get?_insert_other (fun heq => hne (segments_injective heq)) _
    · exact List.mem_cons_of_mem _ (List.mem_filter.2 ⟨hmem, by simpa using hne⟩)
    · intro g' hg'
      cases hg'
      exact ⟨d, hg⟩
  | @unregister r r' held g path _ hunregister ih =>
    unfold Registry.unregister? at hunregister
    split at hunregister
    · rename_i tree hfind hremove
      cases hunregister
      obtain ⟨hproper, hsame⟩ := ih.proper.remove hremove
      refine ih.relink_dependents hproper ?_ nofun (fun other hne => ?_) (fun _ hmem _ => hmem) nofun
      · show Option.map LinkedGrammar.grammar (Tree.get? _ _) = none
        rw [hsame, if_pos rfl]
        rfl
      · exact (hsame _).trans (if_neg fun heq => hne (segments_injective heq))
    · cases hunregister
  | relinkAll _ ih => rwa [ih.relinkAll_eq]

/-- The registry with a single grammar, placed at a path. -/
def single (g : Grammar) (path : String) : Registry := (empty.register g path).toOption.getD .empty

theorem reached_single {d : GrammarDefinition} {g : Grammar} {path : String}
    (hg : Grammar.ofDefinition d = .ok g) (hpath : checkPath path = .ok ()) :
    Reached (single g path) (Function.update (fun _ => none) path (some g)) := by
  obtain ⟨r, hregister⟩ : ∃ r, empty.register g path = .ok r := ⟨_, register_eq_ok.2 ⟨hpath, rfl⟩⟩
  rw [single, hregister]
  exact Reached.empty.register hg hregister

/-- Where a single grammar is held, no other one is found. -/
theorem eq_of_held_single {path other : String} {g g' : Grammar}
    (h : Function.update (fun _ => none) path (some g) other = some g') : g' = g := by
  rw [Function.update_apply] at h
  split at h
  · exact (Option.some.inj h).symm
  · cases h

/-- Places several grammars at their paths, one after the other. -/
def registerList (r : Registry) (placed : List (String × Grammar)) : Except Error Registry :=
  placed.foldlM (fun r e => r.register e.2 e.1) r

theorem registerList_of_checkPath {placed : List (String × Grammar)}
    (h : ∀ e ∈ placed, checkPath e.1 = .ok ()) : ∃ r', r.registerList placed = .ok r' := by
  induction placed generalizing r with
  | nil => exact ⟨r, rfl⟩
  | cons e rest ih =>
    obtain ⟨r', hr'⟩ := ih (r := _) fun e' he => h e' (List.mem_cons_of_mem e he)
    refine ⟨r', ?_⟩
    unfold registerList
    rw [List.foldlM_cons, register_eq_ok.2 ⟨h e List.mem_cons_self, rfl⟩]
    exact hr'

theorem registerList_eq_ok {held : String → Option Grammar} (h : Reached r held)
    {placed : List (String × Grammar)}
    (hplaced : ∀ e ∈ placed, ∃ d, Grammar.ofDefinition d = .ok e.2)
    {r' : Registry} (hr' : r.registerList placed = .ok r') :
    (∀ e ∈ placed, checkPath e.1 = .ok ()) ∧
      Reached r' (placed.foldl (fun held e => Function.update held e.1 (some e.2)) held) := by
  induction placed generalizing r held with
  | nil =>
    cases hr'
    exact ⟨nofun, h⟩
  | cons e rest ih =>
    unfold registerList at hr'
    rw [List.foldlM_cons] at hr'
    cases hfirst : r.register e.2 e.1 with
    | error fault =>
      rw [hfirst] at hr'
      cases hr'
    | ok next =>
      rw [hfirst] at hr'
      obtain ⟨d, hd⟩ := hplaced e List.mem_cons_self
      obtain ⟨hpaths, hreached⟩ := ih (h.register hd hfirst)
        (fun e' he => hplaced e' (List.mem_cons_of_mem e he)) hr'
      refine ⟨fun e' he => ?_, hreached⟩
      rcases List.mem_cons.1 he with rfl | he
      · exact (register_eq_ok.1 hfirst).1
      · exact hpaths e' he

/-- At different paths it does not matter in which order grammars are placed. -/
theorem registerList_perm {held : String → Option Grammar} (h : Reached r held)
    {placed shuffled : List (String × Grammar)} (hperm : placed.Perm shuffled)
    (hdistinct : (placed.map Prod.fst).Nodup)
    (hplaced : ∀ e ∈ placed, ∃ d, Grammar.ofDefinition d = .ok e.2) {r₁ : Registry}
    (hr₁ : r.registerList placed = .ok r₁) :
    ∃ r₂, r.registerList shuffled = .ok r₂ ∧ ∀ path, r₂.find? path = r₁.find? path := by
  obtain ⟨hpaths, hreached₁⟩ := registerList_eq_ok h hplaced hr₁
  obtain ⟨r₂, hr₂⟩ := registerList_of_checkPath (r := r) fun e he => hpaths e (hperm.mem_iff.2 he)
  obtain ⟨-, hreached₂⟩ := registerList_eq_ok h (fun e he => hplaced e (hperm.mem_iff.2 he)) hr₂
  refine ⟨r₂, hr₂, fun path => ?_⟩
  -- a registry is determined by what it holds, and there the order makes no difference
  have hsame := hperm.foldl_eq' (f := fun (held : String → Option Grammar) (e : String × Grammar) =>
    Function.update held e.1 (some e.2)) (fun e he e' he' held' => ?_) held
  · rw [hreached₁.linked.find?, hreached₂.linked.find?, hsame]
  · by_cases heq : e.1 = e'.1
    · rw [List.inj_on_of_nodup_map hdistinct he he' heq]
    · exact (Function.update_comm (Ne.symm heq) _ _ _).symm

/-- **Links are always current**: in every registry that can be reached, the grammar at each path is
the one that was placed there, linked against those that are there now. So linking all again changes
nothing, and grammars can be placed in any order. -/
theorem links_current (r : Registry) (held : String → Option Grammar) (h : Reached r held) :
    (∀ path, r.find? path = (held path).map fun g => g.link path r.loaded?) ∧
      (∀ path g, r.find? path = some g → g.Current path r.loaded?) ∧
      r.relinkAll = r ∧
      ∀ (placed shuffled : List (String × Grammar)) (r₁ : Registry), placed.Perm shuffled →
        (placed.map Prod.fst).Nodup → (∀ e ∈ placed, ∃ d, Grammar.ofDefinition d = .ok e.2) →
        r.registerList placed = .ok r₁ →
        ∃ r₂, r.registerList shuffled = .ok r₂ ∧ ∀ path, r₂.find? path = r₁.find? path := by
  rw [h.linked.loaded?_eq]
  refine ⟨h.linked.find?, fun _ _ => h.linked.current, h.linked.relinkAll_eq, ?_⟩
  intro placed shuffled r₁ hperm hdistinct hplaced hr₁
  exact registerList_perm h hperm hdistinct hplaced hr₁

end Registry

end

namespace Registry

/-- A grammar that is placed before the one that it includes, and linked when that one comes. -/
theorem links_current_two_grammars :
    let x : Part := .name { chars := ['x'] }
    let a : Part := .name { chars := ['a'] }
    let b : Part := .name { chars := ['b'] }
    let first : RuleDefinition := { keys := { includeText := some "x.b" } }
    let d : GrammarDefinition := { scopeName := some "x.a", patterns := [first] }
    let d' : GrammarDefinition := { scopeName := some "x.b" }
    let g := Grammar.ofScoped d ⟨[x, a], by decide⟩
    let g' := Grammar.ofScoped d' ⟨[x, b], by decide⟩
    let held := Function.update (Function.update (fun _ => none) "x.a" (some g)) "x.b" (some g')
    ∃ r : Registry, Reached r held ∧ r.relinkAll = r ∧
      ∃ linked, r.find? "x.a" = some linked ∧
        linked.target? 1 = some (.rule ⟨"x.b", rootRule⟩) := by
  intro x a b first d d' g g' held
  have hg : Grammar.ofDefinition d = .ok g := rfl
  have hg' : Grammar.ofDefinition d' = .ok g' := rfl
  have hpath : checkPath "x.a" = .ok () := rfl
  have hpath' : checkPath "x.b" = .ok () := rfl
  have hreached : Reached _ held :=
    (reached_single hg hpath).register hg' (register_eq_ok.2 ⟨hpath', rfl⟩)
  obtain ⟨hfind, hcurrent, hrelink, -⟩ := links_current _ held hreached
  have hincludes : g.Includes 1 (.external "x.b" none) := by
    have hroot : g.rules.toList[0]? = some ⟨0, "", none, _, [], false, .group ⟨[1], none⟩⟩ := rfl
    exact ⟨Below.refl.step hroot (List.mem_cons_self), _, rfl, rfl⟩
  refine ⟨_, hreached, hrelink, _, hfind "x.a", ?_⟩
  rw [(hcurrent "x.a" _ (hfind "x.a")).target 1 _ hincludes, hreached.linked.loaded?_eq]
  rfl

end Registry

end Highlight
