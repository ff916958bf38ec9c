import Highlight.Pattern.Literal
import Highlight.Proofs.OpenFrames

/-!
# Candidates are what a traversal meets

Groups and includes lead to other rules, and includes can lead back, also by way of other grammars. The
rules that can match inside of a rule are found by going down all of these ways and stopping at what
has been met before. With as many steps as there are rules no way is cut off: a way of different rules
that is as long has met all of them. So the candidates are the rules on offer that some way leads to,
each once, in the order in which a traversal of the whole meets them.

- `Registry.onward`, `Registry.Way`: the rules that a rule leads to, and the ways from a rule.
- `Registry.Meets`: a traversal in the order of declaration, each rule before those it leads to.
- `Registry.expand_succ`: what expanding a rule does, in terms of the rules that it leads to.
- `Registry.expand_invariant`: expanding meets rules and finds those on offer, and does nothing else.
- `Registry.exists_way_of_mem_expand`: ways lead to all that is found.
- `Registry.expand_explores`: with enough steps, expanding goes on as the traversal does.
- `Registry.Meets.covers`: a traversal meets all that there is a way to.
- `Registry.candidates_expand_all`: the main statement.
-/

namespace Highlight

/-- Nothing is found twice. -/
structure Candidates.Tidy (c : Candidates) : Prop where
  nodup : c.found.Nodup
  met : c.found ⊆ c.met

section

variable [Engine]

namespace Registry

variable {r : Registry} {base : String} {start ref next : RuleRef} {c c' c'' : Candidates}
  {steps : Nat}

/-! ## Ways -/

instance (r : Registry) (ref : RuleRef) : Decidable (r.Offers ref) :=
  decidable_of_iff ((r.rule? ref).any fun rule => !rule.disabled && isCandidate rule) (by
    simp [Offers, Option.any_eq_true])

/-- The rules that an enabled group or include leads to. -/
def onward (r : Registry) (base : String) (ref : RuleRef) : List RuleRef :=
  match r.rule? ref with
  | some rule => if rule.disabled then [] else r.successors base ref rule
  | none => []

/-- The pattern list of a rule. -/
def ownPatterns (r : Registry) (ref : RuleRef) : List RuleRef :=
  match r.rule? ref with
  | some rule => rule.kind.patterns.map fun id => ⟨ref.grammar, id⟩
  | none => []

/-- What counts as met when the candidates inside of a rule are collected. -/
def metFirst (r : Registry) (ref : RuleRef) : List RuleRef :=
  match (r.rule? ref).map Rule.kind with
  | some (.group _) => [ref]
  | _ => []

/-- The ways from a rule: its own patterns, and what enabled groups and includes lead to. The rule that
a way ends at comes first. -/
inductive Way (r : Registry) (base : String) (start : RuleRef) : List RuleRef → Prop
  | own {ref : RuleRef} : ref ∈ r.ownPatterns start → Way r base start [ref]
  | onward {ref next : RuleRef} {way : List RuleRef} : Way r base start (ref :: way) →
      next ∈ r.onward base ref → Way r base start (next :: ref :: way)

theorem onward_of_rule? {rule : Rule} (hrule : r.rule? ref = some rule)
    (henabled : rule.disabled = false) : r.onward base ref = r.successors base ref rule := by
  simp only [onward, hrule, henabled, Bool.false_eq_true, if_false]

theorem isSome_of_mem_onward (h : next ∈ r.onward base ref) : (r.rule? ref).isSome := by
  unfold onward at h
  split at h
  · rename_i hrule
    exact Option.isSome_of_eq_some hrule
  · cases h

theorem onward_eq_nil (h : r.rule? ref = none) : r.onward base ref = [] := by
  rw [onward, h]

/-- A rule on offer leads nowhere. -/
theorem onward_of_offers (h : r.Offers ref) : r.onward base ref = [] := by
  obtain ⟨rule, hrule, henabled, hcandidate⟩ := h
  rw [onward_of_rule? hrule henabled]
  unfold isCandidate at hcandidate
  unfold successors
  split at hcandidate
  all_goals simp_all

theorem not_offers_of_mem_metFirst (h : ref ∈ r.metFirst start) : ref = start ∧ ¬ r.Offers ref := by
  unfold metFirst at h
  split at h
  · rename_i hkind
    obtain rfl := List.mem_singleton.1 h
    refine ⟨rfl, ?_⟩
    rintro ⟨rule, hrule, -, hcandidate⟩
    rw [hrule, Option.map_some] at hkind
    rw [isCandidate, Option.some.inj hkind] at hcandidate
    cases hcandidate
  · cases h

/-- A group that counts as met leads to its own patterns only. -/
theorem mem_ownPatterns_of_metFirst (h : ref ∈ r.metFirst start) (hnext : next ∈ r.onward base ref) :
    next ∈ r.ownPatterns start := by
  obtain ⟨rfl, -⟩ := not_offers_of_mem_metFirst h
  unfold metFirst at h
  unfold onward at hnext
  unfold ownPatterns
  split at hnext
  · rename_i rule hrule
    rw [hrule, Option.map_some] at h
    split at hnext
    · cases hnext
    · split at h
      · rename_i hkind
        rw [successors, Option.some.inj hkind] at hnext
        rwa [Option.some.inj hkind]
      · cases h
  · cases hnext

/-! ## Expanding a rule -/

theorem expand_of_mem (h : ref ∈ c.met) : r.expand base steps c ref = c := by
  cases steps with
  | zero => rfl
  | succ steps => rw [expand, if_pos h]

/-- **Expanding a rule that has not been met** finds it if it is on offer, and goes on with the rules
that it leads to. -/
theorem expand_succ (h : ref ∉ c.met) : r.expand base (steps + 1) c ref =
    (r.onward base ref).foldl (r.expand base steps)
      ⟨ref :: c.met, if r.Offers ref then ref :: c.found else c.found⟩ := by
  rw [expand, if_neg h]
  by_cases hoffers : r.Offers ref
  · rw [onward_of_offers hoffers, if_pos hoffers]
    obtain ⟨rule, hrule, henabled, hcandidate⟩ := hoffers
    simp [hrule, henabled, hcandidate]
  · rw [if_neg hoffers]
    cases hrule : r.rule? ref with
    | none => rw [onward_eq_nil hrule, List.foldl_nil]
    | some rule =>
      simp only
      cases hdisabled : rule.disabled with
      | true => simp [onward, hrule, hdisabled]
      | false =>
        have hcandidate : ¬ isCandidate rule := fun h => hoffers ⟨rule, hrule, hdisabled, h⟩
        rw [onward_of_rule? hrule hdisabled, if_neg hcandidate]
        rfl

/-- What holds of the rules met and found is kept, if it is kept when a rule is met and possibly
found. -/
theorem expand_invariant {motive : Candidates → Prop}
    (hmeet : ∀ c ref, motive c → ref ∉ c.met → motive ⟨ref :: c.met, c.found⟩)
    (hfind : ∀ c ref, motive c → ref ∉ c.met → motive ⟨ref :: c.met, ref :: c.found⟩)
    (hc : motive c) : motive (r.expand base steps c ref) := by
  induction steps generalizing c ref with
  | zero => exact hc
  | succ steps ih =>
    by_cases hmet : ref ∈ c.met
    · rwa [expand_of_mem hmet]
    · rw [expand_succ hmet]
      refine List.foldlRecOn _ _ ?_ fun _ hc' _ _ => ih hc'
      split
      · exact hfind c ref hc hmet
      · exact hmeet c ref hc hmet

theorem expand_tidy (h : c.Tidy) : (r.expand base steps c ref).Tidy := by
  refine expand_invariant (fun c ref hc _ => ?_) (fun c ref hc hmet => ?_) h
  · exact ⟨hc.nodup, fun f hf => List.mem_cons_of_mem ref (hc.met hf)⟩
  · exact ⟨List.nodup_cons.2 ⟨fun hf => hmet (hc.met hf), hc.nodup⟩,
      List.cons_subset_cons ref hc.met⟩

/-- What has been met stays met. -/
theorem met_subset_expand : c.met ⊆ (r.expand base steps c ref).met := by
  refine expand_invariant (motive := fun c' => c.met ⊆ c'.met) ?_ ?_ (List.Subset.refl _)
  all_goals exact fun c' ref hc' _ => List.subset_cons_of_subset ref hc'

/-- **Ways lead to all that is found**, and they are no longer than the number of steps allows. -/
theorem exists_way_of_mem_expand {way : List RuleRef} {limit : Nat}
    (hway : r.Way base start (ref :: way)) (hlimit : way.length + steps ≤ limit)
    (hc : ∀ f ∈ c.found, ∃ way, r.Way base start (f :: way) ∧ way.length < limit) :
    ∀ f ∈ (r.expand base steps c ref).found,
      ∃ way, r.Way base start (f :: way) ∧ way.length < limit := by
  induction steps generalizing c ref way with
  | zero => exact hc
  | succ steps ih =>
    by_cases hmet : ref ∈ c.met
    · rwa [expand_of_mem hmet]
    · rw [expand_succ hmet]
      refine List.foldlRecOn (motive := fun c : Candidates => ∀ f ∈ c.found,
        ∃ way, r.Way base start (f :: way) ∧ way.length < limit) _ _ ?_ ?_
      · intro f hf
        simp only at hf
        split at hf
        · rcases List.mem_cons.1 hf with rfl | hf
          · exact ⟨way, hway, by omega⟩
          · exact hc f hf
        · exact hc f hf
      · intro c' hc' next hnext
        exact ih (hway.onward hnext) (by rw [List.length_cons]; omega) hc'

/-! ## The traversal -/

/-- A traversal that has met some rules and has others in front of it meets rules in an order: each
rule once, and right behind it the rules that it leads to. -/
inductive Meets (r : Registry) (base : String) :
    List RuleRef → List RuleRef → List RuleRef → Prop
  | done {met : List RuleRef} : Meets r base met [] []
  | skip {met rest order : List RuleRef} {ref : RuleRef} : ref ∈ met ∨ r.rule? ref = none →
      Meets r base met rest order → Meets r base met (ref :: rest) order
  | meet {met rest order : List RuleRef} {ref : RuleRef} : ref ∉ met → (r.rule? ref).isSome →
      Meets r base (ref :: met) (r.onward base ref ++ rest) order →
      Meets r base met (ref :: rest) (ref :: order)

namespace Meets

variable {met met' pending order order' : List RuleRef}

/-- It does not matter which references that name no rule have been met. -/
theorem congr (h : r.Meets base met pending order)
    (hmet : ∀ ref, (r.rule? ref).isSome → (ref ∈ met ↔ ref ∈ met')) :
    r.Meets base met' pending order := by
  induction h generalizing met' with
  | done => exact .done
  | @skip met rest order ref hskip _ ih =>
    refine .skip ?_ (ih hmet)
    cases hrule : r.rule? ref with
    | none => exact .inr rfl
    | some rule =>
      rw [hrule] at hskip
      exact .inl ((hmet ref (Option.isSome_of_eq_some hrule)).1 (hskip.resolve_right nofun))
  | @meet met rest order ref hnew hrule _ ih =>
    refine .meet (fun h => hnew ((hmet ref hrule).2 h)) hrule (ih fun other hother => ?_)
    rw [List.mem_cons, List.mem_cons, hmet other hother]

/-- There is one order only. -/
theorem unique (h : r.Meets base met pending order) (h' : r.Meets base met pending order') :
    order = order' := by
  induction h generalizing order' with
  | done =>
    cases h'
    rfl
  | skip hskip _ ih =>
    cases h' with
    | skip _ h' => exact ih h'
    | meet hnew hrule _ =>
      rcases hskip with hmet | hnone
      · exact absurd hmet hnew
      · rw [hnone] at hrule
        cases hrule
  | meet hnew hrule _ ih =>
    cases h' with
    | skip hskip _ =>
      rcases hskip with hmet | hnone
      · exact absurd hmet hnew
      · rw [hnone] at hrule
        cases hrule
    | meet _ _ h' => rw [ih h']

/-- **A traversal meets all that is in front of it**, and all that the rules it meets lead to. -/
theorem covers (h : r.Meets base met pending order) :
    (∀ ref ∈ pending, (r.rule? ref).isSome → ref ∈ met ∨ ref ∈ order) ∧
      ∀ ref ∈ order, ∀ next ∈ r.onward base ref, (r.rule? next).isSome →
        next ∈ met ∨ next ∈ order := by
  induction h with
  | done => exact ⟨nofun, nofun⟩
  | @skip met rest order ref hskip _ ih =>
    obtain ⟨hrest, honward⟩ := ih
    refine ⟨List.forall_mem_cons.2 ⟨fun hrule => ?_, hrest⟩, honward⟩
    refine .inl (hskip.resolve_right fun hnone => ?_)
    rw [hnone] at hrule
    cases hrule
  | @meet met rest order ref hnew hrule _ ih =>
    obtain ⟨hpending, honward⟩ := ih
    -- a rule that had been met, or is met first of all, or later
    have hshift : ∀ other, other ∈ ref :: met ∨ other ∈ order →
        other ∈ met ∨ other ∈ ref :: order := by
      intro other hother
      simp only [List.mem_cons] at hother ⊢
      tauto
    refine ⟨List.forall_mem_cons.2 ⟨fun _ => .inr List.mem_cons_self, ?_⟩,
      List.forall_mem_cons.2 ⟨?_, ?_⟩⟩
    · intro other hother hexists
      exact hshift other (hpending other (List.mem_append_right _ hother) hexists)
    · intro other hother hexists
      exact hshift other (hpending other (List.mem_append_left _ hother) hexists)
    · intro other hother another hanother hexists
      exact hshift another (honward other hother another hanother hexists)

end Meets

/-! ## Room for every way -/

/-- The references to the rules of all grammars. -/
def ruleRefs (r : Registry) : List RuleRef :=
  r.grammars.flatMap fun (path, g) => (List.range g.grammar.rules.size).map fun id => ⟨path, id⟩

/-- The number of rules of all grammars. -/
def ruleCount (r : Registry) : Nat := r.ruleRefs.length

theorem mem_ruleRefs (h : r.tree.Proper) (hrule : (r.rule? ref).isSome) : ref ∈ r.ruleRefs := by
  obtain ⟨rule, hrule⟩ := Option.isSome_iff_exists.1 hrule
  rw [Registry.rule?, if_pos (lt_of_rule? hrule)] at hrule
  obtain ⟨g, hfind, hrule⟩ := Option.bind_eq_some_iff.1 hrule
  refine List.mem_flatMap.2 ⟨(ref.grammar, g), h.mem_toList hfind, ?_⟩
  refine List.mem_map.2 ⟨ref.rule, List.mem_range.2 ?_, rfl⟩
  exact (Array.getElem?_eq_some_iff.1 hrule).1

/-- Below some different rules there are enough steps left to meet all of the others. -/
structure Room (r : Registry) (above : List RuleRef) (steps : Nat) : Prop where
  nodup : above.Nodup
  rules : ∀ ref ∈ above, (r.rule? ref).isSome
  count : r.ruleCount ≤ above.length + steps

namespace Room

variable {above : List RuleRef}

/-- Where no steps are left, all rules have been met. -/
theorem mem (h : r.Room above 0) (hproper : r.tree.Proper) (hrule : (r.rule? ref).isSome) :
    ref ∈ above := by
  by_contra hmem
  have hnodup : (ref :: above).Nodup := List.nodup_cons.2 ⟨hmem, h.nodup⟩
  have hsubset : ref :: above ⊆ r.ruleRefs :=
    List.cons_subset.2 ⟨mem_ruleRefs hproper hrule, fun x hx => mem_ruleRefs hproper (h.rules x hx)⟩
  have hlength := (hnodup.subperm hsubset).length_le
  have hcount : r.ruleRefs.length ≤ above.length + 0 := h.count
  rw [List.length_cons] at hlength
  omega

theorem step (h : r.Room above (steps + 1)) (hmem : ref ∉ above) (hrule : (r.rule? ref).isSome) :
    r.Room (ref :: above) steps where
  nodup := List.nodup_cons.2 ⟨hmem, h.nodup⟩
  rules := List.forall_mem_cons.2 ⟨hrule, h.rules⟩
  count := by
    have hcount := h.count
    rw [List.length_cons]
    omega

end Room

/-! ## Expanding follows the traversal -/

/-- Going through some rules finds those on offer among the rules that the traversal meets, in the same
order, and leaves off where the traversal goes on. -/
def Explores (r : Registry) (base : String) (c : Candidates) (refs : List RuleRef) (c' : Candidates) :
    Prop :=
  ∃ order, c'.found = (order.filter fun f => r.Offers f).reverse ++ c.found ∧
    ∀ rest later, r.Meets base c'.met rest later → r.Meets base c.met (refs ++ rest) (order ++ later)

theorem Explores.refl : r.Explores base c [] c := ⟨[], rfl, fun _ _ h => h⟩

theorem Explores.trans {refs more : List RuleRef} (h : r.Explores base c refs c')
    (h' : r.Explores base c' more c'') : r.Explores base c (refs ++ more) c'' := by
  obtain ⟨order, hfound, hmeets⟩ := h
  obtain ⟨later, hfound', hmeets'⟩ := h'
  refine ⟨order ++ later, ?_, fun rest last hrest => ?_⟩
  · rw [hfound', hfound, List.filter_append, List.reverse_append, List.append_assoc]
  · rw [List.append_assoc, List.append_assoc]
    exact hmeets _ _ (hmeets' _ _ hrest)

/-- A rule that has been met, or that is not there, is passed over. -/
theorem Explores.skip (h : ref ∈ c.met ∨ r.rule? ref = none) : r.Explores base c [ref] c :=
  ⟨[], rfl, fun _ _ hrest => .skip h hrest⟩

/-- A rule that is met, with the rules that it leads to. -/
theorem Explores.meet (hmet : ref ∉ c.met) (hrule : (r.rule? ref).isSome)
    (h : r.Explores base ⟨ref :: c.met, if r.Offers ref then ref :: c.found else c.found⟩
      (r.onward base ref) c') : r.Explores base c [ref] c' := by
  obtain ⟨order, hfound, hmeets⟩ := h
  refine ⟨ref :: order, ?_, fun rest later hrest => .meet hmet hrule (hmeets rest later hrest)⟩
  rw [hfound]
  by_cases hoffers : r.Offers ref
  · simp [hoffers]
  · simp [hoffers]

theorem explores_foldl {expand : Candidates → RuleRef → Candidates} (refs keep : List RuleRef)
    (hkeep : keep ⊆ c.met)
    (hmet : ∀ c ref, c.met ⊆ (expand c ref).met)
    (h : ∀ c ref, keep ⊆ c.met → r.Explores base c [ref] (expand c ref)) :
    r.Explores base c refs (refs.foldl expand c) := by
  induction refs generalizing c with
  | nil => exact .refl
  | cons ref rest ih => exact (h c ref hkeep).trans (ih (List.Subset.trans hkeep (hmet c ref)))

/-- **With room for every way, expanding a rule does what the traversal does.** -/
theorem expand_explores (hproper : r.tree.Proper) {above : List RuleRef}
    (hroom : r.Room above steps) (habove : above ⊆ c.met) :
    r.Explores base c [ref] (r.expand base steps c ref) := by
  induction steps generalizing c ref above with
  | zero =>
    refine .skip ?_
    cases hrule : r.rule? ref with
    | none => exact .inr rfl
    | some rule => exact .inl (habove (hroom.mem hproper (Option.isSome_of_eq_some hrule)))
  | succ steps ih =>
    by_cases hmet : ref ∈ c.met
    · rw [expand_of_mem hmet]
      exact .skip (.inl hmet)
    · rw [expand_succ hmet]
      cases hrule : r.rule? ref with
      | none =>
        have hoffers : ¬ r.Offers ref := by
          rintro ⟨rule, hsome, -⟩
          rw [hrule] at hsome
          cases hsome
        rw [onward_eq_nil hrule, if_neg hoffers]
        -- the reference counts as met from now on, but there is no rule to meet
        refine ⟨[], rfl, fun rest later hrest => .skip (.inr hrule) (hrest.congr ?_)⟩
        intro other hother
        refine ⟨fun hmem => (List.mem_cons.1 hmem).resolve_left ?_, List.mem_cons_of_mem ref⟩
        rintro rfl
        rw [hrule] at hother
        cases hother
      | some rule =>
        have hsome := Option.isSome_of_eq_some hrule
        have hroom' := hroom.step (fun h => hmet (habove h)) hsome
        refine .meet hmet hsome (explores_foldl _ (ref :: above) ?_ ?_ ?_)
        · exact List.cons_subset_cons ref habove
        · exact fun _ _ => met_subset_expand
        · exact fun _ _ hkeep => ih hroom' hkeep

/-! ## The candidates inside of a rule -/

theorem candidates_eq (r : Registry) (base : String) (steps : Nat) (ref : RuleRef) :
    r.candidates base steps ref =
      ((r.ownPatterns ref).foldl (r.expand base steps) ⟨r.metFirst ref, []⟩).found.reverse := by
  unfold candidates ownPatterns metFirst
  cases r.rule? ref with
  | none => rfl
  | some rule =>
    simp only [Option.map_some]
    cases rule.kind with
    | group g => rfl
    | _ => rfl

theorem candidates_nodup (r : Registry) (base : String) (steps : Nat) (ref : RuleRef) :
    (r.candidates base steps ref).Nodup := by
  rw [candidates_eq, List.nodup_reverse]
  refine Candidates.Tidy.nodup (List.foldlRecOn (motive := Candidates.Tidy) _ _ ?_ ?_)
  · exact ⟨List.nodup_nil, List.nil_subset _⟩
  · exact fun _ hc _ _ => expand_tidy hc

/-- A way leads to each candidate. -/
theorem exists_way_of_mem_candidates {f : RuleRef} (h : f ∈ r.candidates base steps ref) :
    ∃ way, r.Way base ref (f :: way) ∧ way.length < steps := by
  rw [candidates_eq, List.mem_reverse] at h
  refine List.foldlRecOn (motive := fun c : Candidates => ∀ f ∈ c.found,
    ∃ way, r.Way base ref (f :: way) ∧ way.length < steps) _ _
      (fun _ hf => absurd hf List.not_mem_nil) ?_ f h
  intro c hc own hown
  exact exists_way_of_mem_expand (.own hown) (by simp) hc

/-- With as many steps as there are rules, the candidates are the rules on offer that the traversal
meets. -/
theorem exists_meets_candidates (hproper : r.tree.Proper) (base : String) (ref : RuleRef)
    (hsteps : r.ruleCount ≤ steps) :
    ∃ order, r.Meets base (r.metFirst ref) (r.ownPatterns ref) order ∧
      r.candidates base steps ref = order.filter fun f => r.Offers f := by
  have hroom : r.Room [] steps := ⟨List.nodup_nil, nofun, by simpa using hsteps⟩
  have hexplores : r.Explores base ⟨r.metFirst ref, []⟩ (r.ownPatterns ref)
      ((r.ownPatterns ref).foldl (r.expand base steps) ⟨r.metFirst ref, []⟩) :=
    explores_foldl _ [] (List.nil_subset _) (fun _ _ => met_subset_expand)
      fun _ _ hkeep => expand_explores hproper hroom hkeep
  obtain ⟨order, hfound, hmeets⟩ := hexplores
  refine ⟨order, ?_, ?_⟩
  · simpa using hmeets [] [] .done
  · rw [candidates_eq, hfound, List.append_nil, List.reverse_reverse]

/-- The traversal meets every rule that there is a way to. -/
theorem Meets.mem_of_way {order : List RuleRef}
    (h : r.Meets base (r.metFirst start) (r.ownPatterns start) order) {f : RuleRef}
    {way : List RuleRef} (hway : r.Way base start (f :: way)) (hf : (r.rule? f).isSome) :
    f ∈ r.metFirst start ∨ f ∈ order := by
  obtain ⟨hown, honward⟩ := h.covers
  generalize hends : f :: way = ends at hway
  induction hway generalizing f way with
  | own hmem =>
    cases hends
    exact hown _ hmem hf
  | @onward ref next before hbefore hnext ih =>
    cases hends
    rcases ih (isSome_of_mem_onward hnext) rfl with hmet | hmet
    · exact hown next (mem_ownPatterns_of_metFirst hmet hnext) hf
    · exact honward ref hmet next hnext hf

/-- **The candidates inside of a rule are what a traversal meets.** None is listed twice, each is on
offer, and a way leads to it. With as many steps as there are rules, all such rules are listed, in the
order in which the traversal meets them. -/
theorem candidates_expand_all (r : Registry) (held : String → Option Grammar)
    (hreached : r.Reached held) (base : String) (steps : Nat) (ref : RuleRef) :
    (r.candidates base steps ref).Nodup ∧
      (∀ f ∈ r.candidates base steps ref, r.Offers f ∧ ∃ way, r.Way base ref (f :: way)) ∧
      (r.ruleCount ≤ steps →
        (∀ f, r.Offers f → (∃ way, r.Way base ref (f :: way)) → f ∈ r.candidates base steps ref) ∧
        ∃ order, r.Meets base (r.metFirst ref) (r.ownPatterns ref) order ∧
          r.candidates base steps ref = order.filter fun f => r.Offers f) := by
  refine ⟨candidates_nodup r base steps ref, fun f hf => ?_, fun hsteps => ?_⟩
  · obtain ⟨way, hway, -⟩ := exists_way_of_mem_candidates hf
    exact ⟨offers_of_mem_candidates hf, way, hway⟩
  · obtain ⟨order, hmeets, heq⟩ :=
      exists_meets_candidates hreached.linked.proper base ref hsteps
    refine ⟨fun f hoffers ⟨way, hway⟩ => ?_, order, hmeets, heq⟩
    obtain ⟨rule, hrule, -⟩ := id hoffers
    rw [heq]
    refine List.mem_filter.2 ⟨?_, by simpa using hoffers⟩
    refine (hmeets.mem_of_way hway (Option.isSome_of_eq_some hrule)).resolve_left fun hmet => ?_
    exact (not_offers_of_mem_metFirst hmet).2 hoffers

end Registry

end

namespace Registry

set_option maxRecDepth 100000 in
/-- Two grammars that include each other. A region in one of them, which includes all of its grammar,
can stand inside of itself. -/
theorem candidates_expand_all_cycle :
    let x : Part := .name { chars := ['x'] }
    let a : Part := .name { chars := ['a'] }
    let b : Part := .name { chars := ['b'] }
    let naming (name : String) : RuleDefinition := { keys := { includeText := some name } }
    let single : RuleDefinition := { keys := { matchText := some "b" } }
    let region : RuleDefinition :=
      { keys := { beginText := some "b", endText := some "c" }, patterns := some [naming "$self"] }
    let d : GrammarDefinition := { scopeName := some "x.a", patterns := [naming "x.b", region] }
    let d' : GrammarDefinition := { scopeName := some "x.b", patterns := [naming "x.a", single] }
    let g := Grammar.ofScoped d ⟨[x, a], by decide⟩
    let g' := Grammar.ofScoped d' ⟨[x, b], by decide⟩
    let held := Function.update (Function.update (fun _ => none) "x.a" (some g)) "x.b" (some g')
    ∃ r : Registry, r.Reached held ∧ r.ruleCount = 7 ∧
      r.candidates "x.a" 7 ⟨"x.a", 2⟩ = [⟨"x.b", 2⟩, ⟨"x.a", 2⟩] ∧
      (∃ way, r.Way "x.a" ⟨"x.a", 2⟩ (⟨"x.a", 2⟩ :: way)) ∧
      ∃ order, r.Meets "x.a" (r.metFirst ⟨"x.a", 2⟩) (r.ownPatterns ⟨"x.a", 2⟩) order ∧
        r.candidates "x.a" 7 ⟨"x.a", 2⟩ = order.filter fun f => r.Offers f := by
  intro x a b naming single region d d' g g' held
  have hg : Grammar.ofDefinition d = .ok g := rfl
  have hg' : Grammar.ofDefinition d' = .ok g' := rfl
  have hpath : checkPath "x.a" = .ok () := rfl
  have hpath' : checkPath "x.b" = .ok () := rfl
  obtain ⟨r, hreached, hcount, hcandidates⟩ : ∃ r : Registry, r.Reached held ∧ r.ruleCount = 7 ∧
      r.candidates "x.a" 7 ⟨"x.a", 2⟩ = [⟨"x.b", 2⟩, ⟨"x.a", 2⟩] :=
    ⟨_, (reached_single hg hpath).register hg' (register_eq_ok.2 ⟨hpath', rfl⟩), by decide +kernel,
      by decide +kernel⟩
  obtain ⟨-, hways, hall⟩ := candidates_expand_all r held hreached "x.a" 7 ⟨"x.a", 2⟩
  have hmem : (⟨"x.a", 2⟩ : RuleRef) ∈ r.candidates "x.a" 7 ⟨"x.a", 2⟩ := by
    rw [hcandidates]
    exact List.mem_cons_of_mem _ List.mem_cons_self
  exact ⟨r, hreached, hcount, hcandidates, (hways _ hmem).2, (hall (Nat.le_of_eq hcount)).2⟩

end Registry

end Highlight
