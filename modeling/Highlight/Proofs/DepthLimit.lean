import Highlight.Pattern.Literal
import Highlight.Proofs.Expansion

/-!
# How far the limit on steps reaches

Candidates are found by ways that are no longer than the limit. But a rule counts as met also where
the limit cuts off what it leads to, and then a shorter way to it, which would have gone on from there,
comes too late. So a limit can hide a rule that a smaller limit shows. What is certain is that a way is
followed to its end if none of the rules on it can be the last that the limit allows.

- `Registry.CutOff`: a rule that is the last on a way as long as the limit.
- `Registry.waysOf`: the ways of a length, one by one.
- `Registry.Thorough`: what is newly met is found, and what it leads to has been met.
- `Registry.expand_thorough`: expanding is thorough, but for rules that are cut off.
- `Registry.candidates_within_limit`: the main statement.
- `Registry.candidates_hidden_by_longer_way`: a rule that a short way leads to, hidden by a long one.
-/

namespace Highlight

section

variable [Engine]

namespace Registry

variable {r : Registry} {base : String} {start ref : RuleRef} {c c' c'' : Candidates}
  {steps limit : Nat}

/-! ## Rules at the limit -/

/-- A rule that leads to others and is the last one on a way of different rules as long as the limit. -/
def CutOff (r : Registry) (base : String) (start : RuleRef) (limit : Nat) (ref : RuleRef) : Prop :=
  r.onward base ref ≠ [] ∧ ∃ way, r.Way base start (ref :: way) ∧
    (ref :: way ++ r.metFirst start).Nodup ∧ (ref :: way).length = limit

/-- The ways of a length. -/
def waysOf (r : Registry) (base : String) (start : RuleRef) : Nat → List (List RuleRef)
  | 0 => []
  | 1 => (r.ownPatterns start).map fun own => [own]
  | n + 2 => (waysOf r base start (n + 1)).flatMap fun way =>
    match way with
    | ref :: _ => (r.onward base ref).map fun next => next :: way
    | [] => []

theorem mem_waysOf {way : List RuleRef} :
    way ∈ r.waysOf base start limit ↔ r.Way base start way ∧ way.length = limit := by
  constructor
  · intro h
    induction limit using waysOf.induct generalizing way with
    | case1 => cases h
    | case2 =>
      obtain ⟨own, hown, rfl⟩ := List.mem_map.1 h
      exact ⟨.own hown, rfl⟩
    | case3 n ih =>
      obtain ⟨before, hbefore, h⟩ := List.mem_flatMap.1 h
      obtain ⟨hway, hlength⟩ := ih hbefore
      split at h
      · obtain ⟨next, hnext, rfl⟩ := List.mem_map.1 h
        exact ⟨hway.onward hnext, by rw [List.length_cons, hlength]⟩
      · cases h
  · rintro ⟨hway, rfl⟩
    induction hway with
    | own hown => exact List.mem_map_of_mem hown
    | onward _ hnext ih =>
      exact List.mem_flatMap.2 ⟨_, ih, List.mem_map_of_mem (f := fun next => next :: _) hnext⟩

instance (r : Registry) (base : String) (start : RuleRef) (limit : Nat) (ref : RuleRef) :
    Decidable (r.CutOff base start limit ref) :=
  decidable_of_iff (r.onward base ref ≠ [] ∧ ∃ ends ∈ r.waysOf base start limit,
      ends.head? = some ref ∧ (ends ++ r.metFirst start).Nodup) (by
    refine and_congr_right fun _ => ⟨?_, ?_⟩
    · rintro ⟨ends, hends, hhead, hnodup⟩
      obtain ⟨way, rfl⟩ := List.head?_eq_some_iff.1 hhead
      obtain ⟨hway, hlength⟩ := mem_waysOf.1 hends
      exact ⟨way, hway, hnodup, hlength⟩
    · rintro ⟨way, hway, hnodup, hlength⟩
      exact ⟨ref :: way, mem_waysOf.2 ⟨hway, hlength⟩, rfl, hnodup⟩)

/-! ## Thorough steps -/

/-- Between two states all that is newly met is found if it is on offer, and the rules that it leads to
have been met as well, unless the limit cuts them off. -/
structure Thorough (r : Registry) (base : String) (start : RuleRef) (limit : Nat)
    (c c' : Candidates) : Prop where
  met : c.met ⊆ c'.met
  found : c.found ⊆ c'.found
  offered : ∀ ref ∈ c'.met, ref ∉ c.met → r.Offers ref → ref ∈ c'.found
  onward : ∀ ref ∈ c'.met, ref ∉ c.met → ¬ r.CutOff base start limit ref →
    r.onward base ref ⊆ c'.met

namespace Thorough

theorem refl : r.Thorough base start limit c c where
  met := List.Subset.refl _
  found := List.Subset.refl _
  offered _ hmem hnew := absurd hmem hnew
  onward _ hmem hnew := absurd hmem hnew

theorem trans (h : r.Thorough base start limit c c') (h' : r.Thorough base start limit c' c'') :
    r.Thorough base start limit c c'' where
  met := List.Subset.trans h.met h'.met
  found := List.Subset.trans h.found h'.found
  offered ref hmem hnew hoffers := by
    by_cases hmet : ref ∈ c'.met
    · exact h'.found (h.offered ref hmet hnew hoffers)
    · exact h'.offered ref hmem hmet hoffers
  onward ref hmem hnew hcut := by
    by_cases hmet : ref ∈ c'.met
    · exact List.Subset.trans (h.onward ref hmet hnew hcut) h'.met
    · exact h'.onward ref hmem hmet hcut

/-- Going through some rules is thorough if each step is, and meets them all if each step does. -/
theorem foldl {expand : Candidates → RuleRef → Candidates} {refs keep : List RuleRef}
    (hkeep : keep ⊆ c.met)
    (h : ∀ c, keep ⊆ c.met → ∀ ref ∈ refs, r.Thorough base start limit c (expand c ref)) :
    r.Thorough base start limit c (refs.foldl expand c) ∧
      ((∀ c ref, ref ∈ (expand c ref).met) → refs ⊆ (refs.foldl expand c).met) := by
  induction refs generalizing c with
  | nil => exact ⟨.refl, fun _ => List.nil_subset _⟩
  | cons ref rest ih =>
    have hfirst := h c hkeep ref List.mem_cons_self
    obtain ⟨hrest, hall⟩ := ih (List.Subset.trans hkeep hfirst.met)
      fun c hc other hother => h c hc other (List.mem_cons_of_mem _ hother)
    refine ⟨hfirst.trans hrest, fun hmeets => List.cons_subset.2 ⟨?_, hall hmeets⟩⟩
    exact hrest.met (hmeets c ref)

/-- What follows when a rule is met is thorough from in front of that on, if the rules that it leads to
are met in the end. -/
theorem meet (honward : ¬ r.CutOff base start limit ref → r.onward base ref ⊆ c'.met)
    (h : r.Thorough base start limit
      ⟨ref :: c.met, if r.Offers ref then ref :: c.found else c.found⟩ c') :
    r.Thorough base start limit c c' where
  met := fun _ hmem => h.met (List.mem_cons_of_mem _ hmem)
  found := by
    refine List.Subset.trans ?_ h.found
    split
    · exact List.subset_cons_self _ _
    · exact List.Subset.refl _
  offered other hother hnew hoffers := by
    by_cases heq : other = ref
    · subst heq
      refine h.found ?_
      rw [if_pos hoffers]
      exact List.mem_cons_self
    · exact h.offered other hother (by simp [heq, hnew]) hoffers
  onward other hother hnew hcut := by
    by_cases heq : other = ref
    · subst heq
      exact honward hcut
    · exact h.onward other hother (by simp [heq, hnew]) hcut

end Thorough

theorem mem_met_expand : ref ∈ (r.expand base (steps + 1) c ref).met := by
  by_cases hmet : ref ∈ c.met
  · rwa [expand_of_mem hmet]
  · rw [expand_succ hmet]
    refine List.foldlRecOn (motive := fun c : Candidates => ref ∈ c.met) _ _ List.mem_cons_self ?_
    exact fun c hc other _ => met_subset_expand hc

/-- **Expanding the last rule of a way is thorough**, when as many steps are left as the way is shorter
than the limit. -/
theorem expand_thorough {above : List RuleRef} (hway : r.Way base start (ref :: above))
    (hnodup : (above ++ r.metFirst start).Nodup) (habove : above ++ r.metFirst start ⊆ c.met)
    (hlimit : above.length + steps = limit) :
    r.Thorough base start limit c (r.expand base steps c ref) := by
  induction steps generalizing c ref above with
  | zero => exact .refl
  | succ steps ih =>
    by_cases hmet : ref ∈ c.met
    · rw [expand_of_mem hmet]
      exact .refl
    · rw [expand_succ hmet]
      have hnodup' : (ref :: above ++ r.metFirst start).Nodup :=
        List.nodup_cons.2 ⟨fun h => hmet (habove h), hnodup⟩
      have hlater : ∀ c', ref :: above ++ r.metFirst start ⊆ c'.met → ∀ next ∈ r.onward base ref,
          r.Thorough base start limit c' (r.expand base steps c' next) :=
        fun c' hkeep next hnext =>
          ih (hway.onward hnext) hnodup' hkeep (by rw [List.length_cons]; omega)
      obtain ⟨hrest, hall⟩ := Thorough.foldl
        (c := ⟨ref :: c.met, if r.Offers ref then ref :: c.found else c.found⟩)
        (List.cons_subset_cons ref habove) hlater
      refine hrest.meet fun hcut => ?_
      cases steps with
      | zero =>
        -- the way to the rule is as long as the limit, so it can only lead nowhere
        have hnowhere : r.onward base ref = [] := by
          by_contra hsome
          exact hcut ⟨hsome, above, hway, hnodup', hlimit⟩
        rw [hnowhere]
        exact List.nil_subset _
      | succ steps => exact hall fun _ _ => mem_met_expand

/-! ## Candidates within the limit -/

theorem metFirst_nodup (r : Registry) (ref : RuleRef) : (r.metFirst ref).Nodup := by
  unfold metFirst
  split
  · exact List.nodup_singleton ref
  · exact List.nodup_nil

/-- A rule on offer is a candidate if no rule on some way to it is cut off. -/
theorem mem_candidates_of_way {f : RuleRef} {way : List RuleRef} (hoffers : r.Offers f)
    (hway : r.Way base start (f :: way)) (hlimit : 0 < limit)
    (hcut : ∀ ref ∈ way, ¬ r.CutOff base start limit ref) :
    f ∈ r.candidates base limit start := by
  have hown : ∀ c, r.metFirst start ⊆ c.met → ∀ own ∈ r.ownPatterns start,
      r.Thorough base start limit c (r.expand base limit c own) :=
    fun c hkeep own hown =>
      expand_thorough (.own hown) (metFirst_nodup r start) hkeep (Nat.zero_add _)
  obtain ⟨hthorough, hall⟩ :=
    Thorough.foldl (c := ⟨r.metFirst start, []⟩) (List.Subset.refl _) hown
  obtain ⟨steps, rfl⟩ := Nat.exists_eq_add_of_lt hlimit
  have hmeets := hall fun _ _ => mem_met_expand
  rw [candidates_eq, List.mem_reverse]
  generalize (r.ownPatterns start).foldl _ _ = c at *
  have hmet : f ∈ c.met := by
    clear hoffers
    generalize hends : f :: way = ends at hway
    induction hway generalizing f way with
    | own hmem =>
      cases hends
      exact hmeets hmem
    | @onward ref next before hbefore hnext ih =>
      cases hends
      have href := ih (fun other hother => hcut other (List.mem_cons_of_mem _ hother)) rfl
      by_cases hfirst : ref ∈ r.metFirst start
      · exact hmeets (mem_ownPatterns_of_metFirst hfirst hnext)
      · exact hthorough.onward ref href hfirst (hcut ref List.mem_cons_self) hnext
  exact hthorough.offered f hmet (fun hfirst => (not_offers_of_mem_metFirst hfirst).2 hoffers)
    hoffers

/-- **What a limit on steps leaves**: the candidates are rules on offer with a way that is no longer
than the limit. All of those are candidates whose way has no rule on it that is cut off, so a greater
limit shows all that a smaller one shows if it cuts off no rule. From the number of rules on, a greater
limit changes nothing. -/
theorem candidates_within_limit (r : Registry) (held : String → Option Grammar)
    (hreached : r.Reached held) (base : String) (limit : Nat) (start : RuleRef) :
    (∀ f ∈ r.candidates base limit start,
      r.Offers f ∧ ∃ way, r.Way base start (f :: way) ∧ (f :: way).length ≤ limit) ∧
      (∀ f way, r.Offers f → r.Way base start (f :: way) → (f :: way).length ≤ limit →
        (∀ ref ∈ way, ¬ r.CutOff base start limit ref) → f ∈ r.candidates base limit start) ∧
      (∀ more, limit ≤ more → (∀ ref, ¬ r.CutOff base start more ref) →
        r.candidates base limit start ⊆ r.candidates base more start) ∧
      ∀ more, r.ruleCount ≤ limit → limit ≤ more →
        r.candidates base more start = r.candidates base limit start := by
  have hways : ∀ f ∈ r.candidates base limit start,
      r.Offers f ∧ ∃ way, r.Way base start (f :: way) ∧ (f :: way).length ≤ limit := by
    intro f hf
    obtain ⟨way, hway, hlength⟩ := exists_way_of_mem_candidates hf
    exact ⟨offers_of_mem_candidates hf, way, hway, hlength⟩
  refine ⟨hways, fun f way hoffers hway hlength hcut => ?_, fun more hmore hcut f hf => ?_,
    fun more hcount hmore => ?_⟩
  · exact mem_candidates_of_way hoffers hway (Nat.zero_lt_of_lt hlength) hcut
  · obtain ⟨hoffers, way, hway, hlength⟩ := hways f hf
    exact mem_candidates_of_way hoffers hway
      (Nat.lt_of_lt_of_le (Nat.zero_lt_of_lt hlength) hmore) fun ref _ => hcut ref
  · have hproper := hreached.linked.proper
    obtain ⟨order, hmeets, heq⟩ := exists_meets_candidates hproper base start hcount
    obtain ⟨order', hmeets', heq'⟩ :=
      exists_meets_candidates hproper base start (Nat.le_trans hcount hmore)
    rw [heq, heq', hmeets'.unique hmeets]

end Registry

end

namespace Registry

/-- A grammar that includes an entry of its repository, in front of that by way of another entry. -/
def detourDefinition : GrammarDefinition :=
  let naming (name : String) : RuleDefinition := { keys := { includeText := some name } }
  let single : RuleDefinition := { keys := { matchText := some "x" } }
  let group (pattern : RuleDefinition) : RuleDefinition := { patterns := some [pattern] }
  { scopeName := some "x.a", patterns := [naming "#long", naming "#short"],
    repository := [("long", group (naming "#short")), ("short", group single)] }

/-- That grammar, loaded. -/
def detour : Grammar :=
  Grammar.ofScoped detourDefinition
    ⟨[.name { chars := ['x'] }, .name { chars := ['a'] }], by decide⟩

set_option maxRecDepth 100000 in
/-- With a limit of three steps the way by the other entry does not come to the entry, so the short way
is followed to its end. -/
theorem candidates_within_limit_short_way :
    let held := Function.update (fun _ => none) "x.a" (some detour)
    let start : RuleRef := ⟨"x.a", rootRule⟩
    ∃ r : Registry, r.Reached held ∧ r.Offers ⟨"x.a", 6⟩ ∧
      r.Way "x.a" start [⟨"x.a", 6⟩, ⟨"x.a", 5⟩, ⟨"x.a", 2⟩] ∧
      (∀ ref ∈ [⟨"x.a", 5⟩, ⟨"x.a", 2⟩], ¬ r.CutOff "x.a" start 3 ref) ∧
      ⟨"x.a", 6⟩ ∈ r.candidates "x.a" 3 start := by
  intro held start
  have hg : Grammar.ofDefinition detourDefinition = .ok detour := rfl
  have hpath : checkPath "x.a" = .ok () := rfl
  -- the ways are worked out before the registry is hidden behind its name
  obtain ⟨r, hreached, hoffers, hway, hcut⟩ : ∃ r : Registry, r.Reached held ∧
      r.Offers ⟨"x.a", 6⟩ ∧ [⟨"x.a", 6⟩, ⟨"x.a", 5⟩, ⟨"x.a", 2⟩] ∈ r.waysOf "x.a" start 3 ∧
      ∀ ref ∈ [⟨"x.a", 5⟩, ⟨"x.a", 2⟩], ¬ r.CutOff "x.a" start 3 ref :=
    ⟨_, reached_single hg hpath, by decide +kernel,
      by decide +kernel, by decide +kernel⟩
  have hway' := (mem_waysOf.1 hway).1
  obtain ⟨-, hlisted, -, -⟩ := candidates_within_limit r held hreached "x.a" 3 start
  exact ⟨r, hreached, hoffers, hway', hcut, hlisted _ _ hoffers hway' (by decide) hcut⟩

set_option maxRecDepth 100000 in
/-- **A long way can hide what a short one leads to.** A limit of four steps lets the long way come to
the entry, but not into it. Then the short way, of three steps, comes too late: the rule at its end is
no candidate, although a limit of three steps makes it one. -/
theorem candidates_hidden_by_longer_way :
    let held := Function.update (fun _ => none) "x.a" (some detour)
    let start : RuleRef := ⟨"x.a", rootRule⟩
    ∃ r : Registry, r.Reached held ∧ r.Offers ⟨"x.a", 6⟩ ∧
      r.Way "x.a" start [⟨"x.a", 6⟩, ⟨"x.a", 5⟩, ⟨"x.a", 2⟩] ∧
      ⟨"x.a", 6⟩ ∉ r.candidates "x.a" 4 start ∧ ⟨"x.a", 6⟩ ∈ r.candidates "x.a" 3 start := by
  intro held start
  have hg : Grammar.ofDefinition detourDefinition = .ok detour := rfl
  have hpath : checkPath "x.a" = .ok () := rfl
  obtain ⟨r, hreached, hoffers, hway, hhidden, hshown⟩ : ∃ r : Registry, r.Reached held ∧
      r.Offers ⟨"x.a", 6⟩ ∧ [⟨"x.a", 6⟩, ⟨"x.a", 5⟩, ⟨"x.a", 2⟩] ∈ r.waysOf "x.a" start 3 ∧
      ⟨"x.a", 6⟩ ∉ r.candidates "x.a" 4 start ∧ ⟨"x.a", 6⟩ ∈ r.candidates "x.a" 3 start :=
    ⟨_, reached_single hg hpath, by decide +kernel,
      by decide +kernel, by decide +kernel, by decide +kernel⟩
  exact ⟨r, hreached, hoffers, (mem_waysOf.1 hway).1, hhidden, hshown⟩

end Registry

end Highlight
