import Highlight.Pattern.Literal
import Highlight.Proofs.KeyedMaps
import Highlight.Proofs.LoadedAlike

/-!
# Rules that are dropped

A pattern or repository entry whose keys are those of no kind of rules is dropped with a diagnostic. It
takes no number, nothing in it is loaded, and what is loaded of all else is what would be loaded without
it. Only the locations of the patterns behind it tell the two apart, as their numbers are those of the
list as it was written.

- `loadPatterns_drop`, `loadRepository_drop`: a list and a map from which an entry is dropped.
- `loadPatterns_set`, `loadRepository_put`, `loadCaptures_put`: those in which one rule is another.
- `RuleDefinition.parts_delete`: what is loaded of a definition, and of the one without a rule that is
  dropped.
- `Grammar.dropped_rule_isolated`: the main statement.
-/

namespace Highlight

open Loading

variable {top : RuleDefinition} {target : Place} {kind : DiagnosticKind} {count : Nat}

/-! ## What stays where it is -/

namespace Place

theorem becomes_beside {p rest : Place} {step other : Step} (hne : step ≠ other)
    (h : rest = [] → other.movedUp step = other) :
    Becomes (p ++ step :: rest) (p ++ [other]) (p ++ [other]) := by
  intro inner
  rw [List.append_assoc, moved_append]
  exact congrArg (p ++ ·) (moved_beside h hne inner)

theorem becomes_part {p rest : Place} {step other : Step} (h : other.part ≠ step.part) :
    Becomes (p ++ step :: rest) (p ++ [other]) (p ++ [other]) := by
  exact becomes_beside (fun heq => h (heq ▸ rfl)) fun _ => Step.movedUp_eq (Ne.symm h)

theorem becomes_earlier {p : Place} {i j : Nat} (h : j < i) :
    Becomes (p ++ [.pattern i]) (p ++ [.pattern j]) (p ++ [.pattern j]) := by
  refine becomes_beside (fun heq => ?_) fun _ => ?_
  · cases heq
    exact Nat.lt_irrefl _ h
  · rw [Step.movedUp, if_neg (Nat.not_lt.2 (Nat.le_of_lt h))]

theorem becomes_later {p : Place} {i j : Nat} (h : i ≤ j) :
    Becomes (p ++ [.pattern i]) (p ++ [.pattern (j + 1)]) (p ++ [.pattern j]) := by
  intro inner
  rw [List.append_assoc, moved_append, List.append_assoc]
  exact congrArg (p ++ ·) (moved_later h inner)

theorem becomes_entry {p : Place} (key : String) (other : Step) :
    Becomes (p ++ [.entry key]) (p ++ [other]) (p ++ [other]) := by
  by_cases h : Step.entry key = other
  · subst h
    intro inner
    rw [List.append_assoc, moved_append]
    simp [moved]
  · exact becomes_beside h fun _ => by cases other <;> rfl

/-- The way to the deleted rule stays. -/
theorem moved_prefix (p rest : Place) : moved (p ++ rest) p = p := by
  have hself := moved_append p rest []
  rw [List.append_nil] at hself
  rw [hself]
  cases rest <;> simp [moved]

end Place

namespace RuleDefinition

variable {d : RuleDefinition} {value : Option RuleDefinition} {step : Step}

theorem keys_edit : (d.edit value step).keys = d.keys := by
  rcases step with _ | _ | ⟨_ | _ | _ | _, _⟩ <;> rfl

theorem isSome_patterns_edit : (d.edit value step).patterns.isSome = d.patterns.isSome := by
  rcases step with _ | _ | ⟨_ | _ | _ | _, _⟩ <;> simp [edit]

theorem isSome_captureMap_edit (map : CaptureMap) :
    ((d.edit value step).captureMap map).isSome = (d.captureMap map).isSome := by
  rcases step with _ | _ | ⟨_ | _ | _ | _, _⟩ <;> cases map <;> simp [edit, captureMap]

theorem captureMap_edit (map : CaptureMap) (key : String) :
    (d.edit value (.capture map key)).captureMap map =
      (d.captureMap map).map (editEntries key value) := by
  cases map <;> rfl

theorem patterns_edit (h : step.part ≠ .patterns) : (d.edit value step).patterns = d.patterns := by
  cases step with
  | pattern i => exact absurd rfl h
  | entry key => rfl
  | capture map key => cases map <;> rfl

theorem repository_edit (h : step.part ≠ .repository) :
    (d.edit value step).repository = d.repository := by
  cases step with
  | pattern i => rfl
  | entry key => exact absurd rfl h
  | capture map key => cases map <;> rfl

theorem captureMap_edit_other {map : CaptureMap} (h : step.part ≠ .captures map) :
    (d.edit value step).captureMap map = d.captureMap map := by
  cases step with
  | pattern i => cases map <;> rfl
  | entry key => cases map <;> rfl
  | capture other key => cases other <;> cases map <;> simp_all [Step.part, edit, captureMap]

end RuleDefinition

/-! ## Lists and maps that differ in one rule -/

section

variable [Engine]

/-- A pattern list in which one rule is another, which is loaded like it. -/
theorem loadPatterns_set {rules : List RuleDefinition} {p : Place} {n i : Nat}
    {rule rule' : RuleDefinition} (hat : top.ListedAt p n rules) (hrule : rules[i]? = some rule)
    (h : Alike top target kind count (loadRule rule (Place.text (p ++ [.pattern (n + i)])))
      (loadRule rule' (Place.text (p ++ [.pattern (n + i)]))))
    (hothers : ∀ j, j ≠ n + i → Place.Becomes target (p ++ [.pattern j]) (p ++ [.pattern j])) :
    Alike top target kind count (loadPatterns rules p.below n)
      (loadPatterns (rules.set i rule') p.below n) := by
  induction rules generalizing n i with
  | nil => cases hrule
  | cons first rest ih =>
    cases i with
    | zero =>
      cases hrule
      rw [List.set_cons_zero, loadPatterns_cons, loadPatterns_cons]
      exact Alike.after h fun id =>
        (loadPatterns_alike rest hat.tail fun j => hothers (n + 1 + j) (by omega)).map _
    | succ i =>
      rw [List.set_cons_succ, loadPatterns_cons, loadPatterns_cons]
      refine (loadRule_alike hat.head (hothers n (by omega))).before fun id => ?_
      have hn : n + 1 + i = n + (i + 1) := by omega
      exact (ih hat.tail hrule (by rwa [hn]) (by rwa [hn])).map _

/-- What the loader does about a rule that it drops. -/
theorem loadRule_drop {rule : RuleDefinition}
    (hkind : classify rule.keys rule.patterns.isSome = .error kind) (p : Place) : loadRule rule p.text = (do
      note p.text kind
      return none) := by
  obtain ⟨keys, captures, beginCaptures, endCaptures, whileCaptures, patterns, repository⟩ := rule
  rw [loadRule]
  simp only at hkind
  rw [hkind]

/-- A dropped rule in front of what is loaded next. -/
theorem alike_dropped {α : Type} {rule : RuleDefinition}
    (hkind : classify rule.keys rule.patterns.isSome = .error kind)
    {f : Option RuleId → Loading α} {m : Loading α} (h : Alike top target kind 0 (f none) m) :
    Alike top target kind 1 (loadRule rule target.text >>= f) m := by
  have hbind := alike_drop.bind fun _ : Unit => h
  rw [loadRule_drop hkind]
  exact hbind

/-- A pattern list from which a rule is dropped. -/
theorem loadPatterns_drop {rules : List RuleDefinition} {p : Place} {n i : Nat} {rule : RuleDefinition}
    (hat : top.ListedAt p n rules) (hrule : rules[i]? = some rule)
    (hkind : classify rule.keys rule.patterns.isSome = .error kind) :
    Alike top (p ++ [.pattern (n + i)]) kind 1 (loadPatterns rules p.below n)
      (loadPatterns (rules.eraseIdx i) p.below n) := by
  induction rules generalizing n i with
  | nil => cases hrule
  | cons first rest ih =>
    cases i with
    | zero =>
      cases hrule
      rw [List.eraseIdx_cons_zero, loadPatterns_cons]
      refine alike_dropped hkind ?_
      -- the numbers of the rules behind it are less by one
      have hrest : Alike top (p ++ [.pattern n]) kind 0 (loadPatterns rest p.below (n + 1))
          (loadPatterns rest p.below n) := by
        refine loadPatterns_alike rest hat.tail fun j => ?_
        rw [Nat.add_right_comm]
        exact Place.becomes_later (Nat.le_add_right n j)
      exact hrest.map id
    | succ i =>
      rw [List.eraseIdx_cons_succ, loadPatterns_cons, loadPatterns_cons]
      have hn : n + 1 + i = n + (i + 1) := by omega
      have hfirst : Place.Becomes (p ++ [.pattern (n + (i + 1))]) (p ++ [.pattern n])
          (p ++ [.pattern n]) := Place.becomes_earlier (by omega)
      refine (loadRule_alike hat.head hfirst).before fun id => ?_
      rw [← hn]
      exact (ih hat.tail hrule).map _

/-- A repository in which one rule is another, which is loaded like it. -/
theorem loadRepository_put {entries : Entries RuleDefinition} {p : Place} {key : String}
    {rule rule' : RuleDefinition} (hat : ∀ e ∈ entries, top.HasAt (p ++ [.entry e.1]) e.2)
    (hincreasing : entries.Increasing) (hrule : Entries.get? key entries = some rule)
    (h : Alike top target kind count (loadRule rule (Place.text (p ++ [.entry key])))
      (loadRule rule' (Place.text (p ++ [.entry key]))))
    (hothers : ∀ other, other ≠ key → Place.Becomes target (p ++ [.entry other]) (p ++ [.entry other])) :
    Alike top target kind count (loadRepository entries p.below)
      (loadRepository (entries.put key rule') p.below) := by
  induction entries with
  | nil => cases hrule
  | cons first rest ih =>
    obtain ⟨other, first⟩ := first
    obtain ⟨hatFirst, hatRest⟩ := List.forall_mem_cons.1 hat
    obtain ⟨hless, hincreasing⟩ := List.pairwise_cons.1 hincreasing
    by_cases heq : other = key
    · subst heq
      rw [Entries.get?, if_pos rfl] at hrule
      cases hrule
      rw [Entries.put, if_pos rfl, loadRepository_cons, loadRepository_cons]
      refine h.after fun id => ?_
      refine (loadRepository_alike rest hatRest fun e he => hothers e.1 ?_).map _
      exact fun heq => String.lt_irrefl other (heq ▸ hless e he)
    · rw [Entries.get?, if_neg heq] at hrule
      have hlt : other < key := hless _ (Entries.mem_of_get? hrule)
      have hnot : ¬key < other := fun hgt => String.lt_irrefl other (String.lt_trans hlt hgt)
      rw [Entries.put, if_neg heq, if_neg hnot, loadRepository_cons, loadRepository_cons]
      refine (loadRule_alike hatFirst (hothers other heq)).before fun id => ?_
      exact (ih hatRest hincreasing hrule).map _

/-- A repository from which a rule is dropped. -/
theorem loadRepository_drop {entries : Entries RuleDefinition} {p : Place} {key : String}
    {rule : RuleDefinition} (hat : ∀ e ∈ entries, top.HasAt (p ++ [.entry e.1]) e.2)
    (hrule : Entries.get? key entries = some rule)
    (hkind : classify rule.keys rule.patterns.isSome = .error kind) :
    Alike top (p ++ [.entry key]) kind 1 (loadRepository entries p.below)
      (loadRepository (entries.erase key) p.below) := by
  induction entries with
  | nil => cases hrule
  | cons first rest ih =>
    obtain ⟨other, first⟩ := first
    obtain ⟨hatFirst, hatRest⟩ := List.forall_mem_cons.1 hat
    by_cases heq : other = key
    · subst heq
      rw [Entries.get?, if_pos rfl] at hrule
      cases hrule
      rw [Entries.erase, if_pos rfl, loadRepository_cons]
      refine alike_dropped hkind ?_
      refine (loadRepository_alike rest hatRest fun e _ => ?_).map id
      exact Place.becomes_entry other (.entry e.1)
    · rw [Entries.get?, if_neg heq] at hrule
      rw [Entries.erase, if_neg heq, loadRepository_cons, loadRepository_cons]
      have hfirst : Place.Becomes (p ++ [.entry key]) (p ++ [.entry other]) (p ++ [.entry other]) :=
        Place.becomes_entry key (.entry other)
      refine (loadRule_alike hatFirst hfirst).before fun id => ?_
      exact (ih hatRest hrule).map _

/-- A capture map in which one rule is another, which is loaded like it, if it is loaded at all. -/
theorem loadCaptures_put {entries : Entries RuleDefinition} {p : Place} {map : CaptureMap}
    {key : String} {rule rule' : RuleDefinition}
    (hat : ∀ e ∈ entries, top.HasAt (p ++ [.capture map e.1]) e.2)
    (hincreasing : entries.Increasing) (hrule : Entries.get? key entries = some rule)
    (hmap : Relocated top target (p.below ++ map.text) (p.below ++ map.text))
    (h : Alike top target kind count (loadCaptureRule rule (Place.text (p ++ [.capture map key])))
      (loadCaptureRule rule' (Place.text (p ++ [.capture map key]))))
    (hothers : ∀ other, other ≠ key →
      Place.Becomes target (p ++ [.capture map other]) (p ++ [.capture map other]))
    (rules : CaptureRules) :
    Alike top target kind (if (captureGroup? key).isSome then count else 0)
      (loadCaptures entries (p.below ++ map.text) rules)
      (loadCaptures (entries.put key rule') (p.below ++ map.text) rules) := by
  induction entries generalizing rules with
  | nil => cases hrule
  | cons first rest ih =>
    obtain ⟨other, first⟩ := first
    obtain ⟨hatFirst, hatRest⟩ := List.forall_mem_cons.1 hat
    obtain ⟨hless, hincreasing⟩ := List.pairwise_cons.1 hincreasing
    by_cases heq : other = key
    · subst heq
      rw [Entries.get?, if_pos rfl] at hrule
      cases hrule
      rw [Entries.put, if_pos rfl, loadCaptures_cons, loadCaptures_cons]
      have hrest : ∀ rules : CaptureRules, Alike top target kind 0
          (loadCaptures rest (p.below ++ map.text) rules)
          (loadCaptures rest (p.below ++ map.text) rules) := by
        refine loadCaptures_alike rest map hmap hatRest fun e he => hothers e.1 ?_
        exact fun heq => String.lt_irrefl other (heq ▸ hless e he)
      cases captureGroup? other with
      | none => exact (alike_note hmap _).before fun _ => hrest rules
      | some group => exact h.after fun id => hrest (rules.put group id)
    · rw [Entries.get?, if_neg heq] at hrule
      have hlt : other < key := hless _ (Entries.mem_of_get? hrule)
      have hnot : ¬key < other := fun hgt => String.lt_irrefl other (String.lt_trans hlt hgt)
      rw [Entries.put, if_neg heq, if_neg hnot, loadCaptures_cons, loadCaptures_cons]
      cases captureGroup? other with
      | none => exact (alike_note hmap _).before fun _ => ih hatRest hincreasing hrule rules
      | some group =>
        refine (loadCaptureRule_alike hatFirst (hothers other heq)).before fun id => ?_
        exact ih hatRest hincreasing hrule _

/-! ## Definitions that differ in one rule -/

namespace RuleDefinition

variable {d : RuleDefinition} {value : Option RuleDefinition} {p : Place} {step : Step}

/-- The parts that are not stepped into stay as they are. -/
theorem partAlike_edit {part : RulePart} (h : step.part ≠ part)
    (hpart : PartAlike top target kind count d d p p part) :
    PartAlike top target kind count d (d.edit value step) p p part := by
  cases part with
  | patterns => rwa [PartAlike, patterns_edit h]
  | repository => rwa [PartAlike, repository_edit h]
  | captures map => rwa [PartAlike, captureMap_edit_other h]

section

variable (hat : top.HasAt p d)
include hat

omit [Engine] in
theorem relocated_rule (rest : Place) : Relocated top (p ++ rest) p.text p.text := by
  have hrule : Relocated top (p ++ rest) p.text (Place.moved (p ++ rest) p).text :=
    .rule (Option.isSome_of_eq_some hat.at_eq)
  rwa [Place.moved_prefix] at hrule

omit [Engine] in
theorem relocated_map (rest : Place) {map : CaptureMap} (hmap : (d.captureMap map).isSome) :
    Relocated top (p ++ rest) (p.below ++ map.text) (p.below ++ map.text) := by
  have hself : Relocated top (p ++ rest) (p.below ++ map.text)
      ((Place.moved (p ++ rest) p).below ++ map.text) := .captures map hat.at_eq hmap
  rwa [Place.moved_prefix] at hself

/-- A part in which nothing moves. -/
theorem partAlike_self {rest : Place} {part : RulePart}
    (h : ∀ other : Step, other.part = part →
      Place.Becomes (p ++ rest) (p ++ [other]) (p ++ [other])) :
    PartAlike top (p ++ rest) kind 0 d d p p part := by
  cases part with
  | patterns => exact loadPatterns_alike _ hat.patterns fun i => h (.pattern (0 + i)) rfl
  | repository => exact loadRepository_alike _ hat.entry fun e _ => h (.entry e.1) rfl
  | captures map =>
    have hentries := hat.capture map
    show Alike _ _ _ _ (loadCaptures ((d.captureMap map).getD []) _ _)
      (loadCaptures ((d.captureMap map).getD []) _ _)
    cases hmap : d.captureMap map with
    | none => exact alike_pure []
    | some entries =>
      rw [hmap] at hentries
      have hself := relocated_map hat rest (Option.isSome_of_eq_some hmap)
      exact loadCaptures_alike entries map hself hentries (fun e _ => h (.capture map e.1) rfl) []

/-- What is loaded of a definition in which the part that a step leads to is another. -/
theorem partsAlike_edit {rest : Place}
    (h : PartAlike top (p ++ step :: rest) kind count d (d.edit value step) p p step.part) :
    PartsAlike top (p ++ step :: rest) kind (fun part => if part = step.part then count else 0) d
      (d.edit value step) p p := by
  refine ⟨keys_edit, isSome_patterns_edit, isSome_captureMap_edit, fun part => ?_⟩
  by_cases hpart : part = step.part
  · rw [hpart, if_pos rfl]
    exact h
  · rw [if_neg hpart]
    refine partAlike_edit (Ne.symm hpart) (partAlike_self hat fun other hother => ?_)
    exact Place.becomes_part (hother ▸ hpart)

/-- A dropped rule is left out of the part that it stands in. -/
theorem partAlike_drop {rule : RuleDefinition} (hrule : d.inner? step = some rule)
    (hkind : classify rule.keys rule.patterns.isSome = .error kind)
    (hstep : ∀ map key, step ≠ .capture map key) :
    PartAlike top (p ++ [step]) kind 1 d (d.edit none step) p p step.part := by
  cases step with
  | pattern i =>
    obtain ⟨rules, hrules, hrule⟩ := Option.bind_eq_some_iff.1 hrule
    have hlisted := hat.patterns
    show Alike _ _ _ _ (loadPatterns (d.patterns.getD []) _ _)
      (loadPatterns ((d.patterns.map (editList i none)).getD []) _ _)
    rw [hrules] at hlisted ⊢
    have hdrop := loadPatterns_drop hlisted hrule hkind
    rwa [Nat.zero_add] at hdrop
  | entry key =>
    obtain ⟨entries, hentries, hrule⟩ := Option.bind_eq_some_iff.1 hrule
    have hstanding := hat.entry
    show Alike _ _ _ _ (loadRepository (d.repository.getD []) _)
      (loadRepository ((d.repository.map (editEntries key none)).getD []) _)
    rw [hentries] at hstanding ⊢
    exact loadRepository_drop hstanding hrule hkind
  | capture map key => exact absurd rfl (hstep map key)

end

omit [Engine] in
/-- If diagnostics come of one part only, there are as many of them each time that the part is loaded. -/
theorem total_single (d : RuleDefinition) (loadedAs : LoadedAs) (part : RulePart) (n : Nat) :
    d.total loadedAs (fun other => if other = part then n else 0) =
      (d.loadedParts loadedAs).count part * n := by
  unfold total
  induction d.loadedParts loadedAs with
  | nil => simp
  | cons first parts ih =>
    rw [List.map_cons, List.sum_cons, ih, List.count_cons, Nat.add_mul, Nat.add_comm]
    by_cases h : first = part <;> simp [h]

omit [Engine] in
theorem visits_cons {inner : RuleDefinition} (hinner : d.inner? step = some inner)
    (loadedAs : LoadedAs) (rest : Place) : d.visits loadedAs (step :: rest) =
      (d.loadedParts loadedAs).count step.part *
        if step.isLoaded then inner.visits step.loadedAs rest else 0 := by
  rw [visits, hinner]

/-- A rule in which another is dropped, inside the part that it stands in. -/
theorem partAlike_inner {inner inner' : RuleDefinition} {counts : RulePart → Nat} {next : Step}
    {rest : Place} (hat : top.HasAt p d) (hinner : d.inner? step = some inner)
    (h : PartsAlike top (p ++ step :: next :: rest) kind counts inner inner' (p ++ [step])
      (p ++ [step])) :
    PartAlike top (p ++ step :: next :: rest) kind
      (if step.isLoaded then inner.total step.loadedAs counts else 0) d (d.edit (some inner') step) p p
      step.part := by
  have hlocation : Relocated top (p ++ step :: next :: rest) (Place.text (p ++ [step]))
      (Place.text (p ++ [step])) := by
    have hself := relocated_rule (hat.inner hinner) (next :: rest)
    rwa [List.append_assoc] at hself
  have hothers : ∀ other, step ≠ other →
      Place.Becomes (p ++ step :: next :: rest) (p ++ [other]) (p ++ [other]) :=
    fun other hne => Place.becomes_beside hne nofun
  have hne : p ++ [step] ≠ [] := by simp
  cases step with
  | pattern i =>
    obtain ⟨rules, hrules, hrule⟩ := Option.bind_eq_some_iff.1 hinner
    have hlisted := hat.patterns
    show Alike _ _ _ _ (loadPatterns (d.patterns.getD []) _ _)
      (loadPatterns ((d.patterns.map (editList i (some inner'))).getD []) _ _)
    rw [hrules] at hlisted ⊢
    refine loadPatterns_set hlisted hrule ?_ fun j hj => hothers _ ?_
    · rw [Nat.zero_add]
      exact h.loadRule hlocation hne hne
    · exact fun heq => hj (by rw [Nat.zero_add, Step.pattern.inj heq])
  | entry key =>
    obtain ⟨entries, hentries, hrule⟩ := Option.bind_eq_some_iff.1 hinner
    have hstanding := hat.entry
    show Alike _ _ _ _ (loadRepository (d.repository.getD []) _)
      (loadRepository ((d.repository.map (editEntries key (some inner'))).getD []) _)
    rw [hentries] at hstanding ⊢
    refine loadRepository_put hstanding (hat.keyed.increasing (.inl hentries)).1 hrule
      (h.loadRule hlocation hne hne) fun other hother => hothers _ ?_
    exact fun heq => hother (Step.entry.inj heq).symm
  | capture map key =>
    obtain ⟨entries, hentries, hrule⟩ := Option.bind_eq_some_iff.1 hinner
    have hstanding := hat.capture map
    have hmap := relocated_map hat (.capture map key :: next :: rest) (Option.isSome_of_eq_some hentries)
    show Alike _ _ _ _ (loadCaptures ((d.captureMap map).getD []) _ _)
      (loadCaptures (((d.edit (some inner') (.capture map key)).captureMap map).getD []) _ _)
    rw [hentries] at hstanding
    rw [captureMap_edit, hentries]
    refine loadCaptures_put hstanding (hat.keyed.increasing (.inr ⟨map, hentries⟩)).1 hrule hmap
      (h.loadCaptureRule hlocation hne hne) (fun other hother => hothers _ ?_) []
    exact fun heq => hother (Step.capture.inj heq).2.symm

/-- **What is loaded of a definition**, and of the one without a rule in it that is dropped. -/
theorem parts_delete {rule : RuleDefinition}
    (hkind : classify rule.keys rule.patterns.isSome = .error kind) (rest : Place) :
    ∀ {d : RuleDefinition} {p : Place} {step : Step}, top.HasAt p d →
    d.at? (step :: rest) = some rule →
    (∀ map key, (step :: rest).getLast? ≠ some (.capture map key)) →
    ∃ counts, (∀ loadedAs, d.total loadedAs counts = d.visits loadedAs (step :: rest)) ∧
      PartsAlike top (p ++ step :: rest) kind counts d (d.delete (step :: rest)) p p := by
  induction rest with
  | nil =>
    intro d p step hat hrule hlast
    obtain ⟨inner, hinner, heq⟩ := Option.bind_eq_some_iff.1 hrule
    cases heq
    have hstep : ∀ map key, step ≠ .capture map key := fun map key heq => hlast map key (heq ▸ rfl)
    refine ⟨_, fun loadedAs => ?_, partsAlike_edit hat (partAlike_drop hat hinner hkind hstep)⟩
    rw [total_single, visits_cons hinner]
    cases step with
    | pattern i => rfl
    | entry key => rfl
    | capture map key => exact absurd rfl (hstep map key)
  | cons next rest ih =>
    intro d p step hat hrule hlast
    obtain ⟨inner, hinner, hrule⟩ := Option.bind_eq_some_iff.1 hrule
    obtain ⟨counts, htotal, hparts⟩ := ih (hat.inner hinner) hrule hlast
    rw [List.append_assoc] at hparts
    have hdelete : d.delete (step :: next :: rest) =
        d.edit (some (inner.delete (next :: rest))) step := by
      rw [delete, hinner]
    rw [hdelete]
    refine ⟨_, fun loadedAs => ?_, partsAlike_edit hat (partAlike_inner hat hinner hparts)⟩
    rw [total_single, visits_cons hinner, htotal]

end RuleDefinition

namespace GrammarDefinition

omit [Engine] in
theorem keyed_top {d : GrammarDefinition} (h : d.Keyed) : d.top.Keyed := by
  have hmaps : d.top.maps = [d.repository] := rfl
  refine .intro (fun rules hrules => ?_) (fun entries hentries => ?_) fun entries hentries => ?_
  · cases hrules
    exact h.patterns
  · rw [hmaps, List.mem_singleton] at hentries
    rw [hentries]
    exact h.increasing
  · rw [hmaps, List.mem_singleton] at hentries
    rw [hentries]
    exact h.repository

end GrammarDefinition

namespace Grammar

/-- A grammar without a rule that is dropped is loaded like the grammar with it. -/
theorem loadRoot_alike {d : GrammarDefinition} (hd : d.Keyed) {place : Place} {rule : RuleDefinition}
    (hrule : d.at? place = some rule)
    (hkind : classify rule.keys rule.patterns.isSome = .error kind)
    (hlast : ∀ map key, place.getLast? ≠ some (.capture map key)) (scope : Scope) :
    Alike d.top place kind (d.visits place) (loadRoot d scope) (loadRoot (d.delete place) scope) := by
  cases place with
  | nil =>
    cases hrule
    cases hkind
  | cons step rest =>
    have hat : d.top.HasAt [] d.top := ⟨rfl, GrammarDefinition.keyed_top hd⟩
    obtain ⟨counts, htotal, hparts⟩ := RuleDefinition.parts_delete hkind rest hat hrule hlast
    have hlocation : Relocated d.top (step :: rest) "" "" := RuleDefinition.relocated_rule hat _
    rw [GrammarDefinition.visits, ← htotal]
    refine (alike_reserve hlocation).before fun id => ?_
    refine hparts.patterns.bind fun rules => ?_
    refine hparts.repository.after fun entries => ?_
    exact alike_fill ⟨hlocation, rfl⟩

/-- Whether a definition loads, and with which scope, is decided by its scope name. -/
theorem ofDefinition_of_scopeName {d d' : GrammarDefinition} (hname : d'.scopeName = d.scopeName) :
    (∃ e, ofDefinition d = .error e ∧ ofDefinition d' = .error e) ∨
      ∃ scope, ofDefinition d = .ok (ofScoped d scope) ∧
        ofDefinition d' = .ok (ofScoped d' scope) := by
  unfold ofDefinition
  rw [hname]
  cases d.scopeName with
  | none => exact .inl ⟨.missingScopeName, rfl, rfl⟩
  | some value =>
    simp only
    cases Scope.ofText (String.ofList (Text.trim value.toList)) with
    | error refused => exact .inl ⟨.invalidScopeName refused, rfl, rfl⟩
    | ok scope =>
      simp only
      split
      · exact .inl ⟨_, rfl, rfl⟩
      · exact .inr ⟨scope, rfl, rfl⟩

/-- **A rule that is dropped is isolated.** Without it the grammar loads to the same rules, but for the
locations of the patterns behind it and of what is in them, and to the same diagnostics in the same
order, but for one about the dropped rule for each time that the loader comes to it. If the grammar does
not load, it does not load without the rule either. -/
theorem dropped_rule_isolated (d : GrammarDefinition) (hkeyed : d.Keyed) (place : Place)
    (rule : RuleDefinition) (hrule : d.at? place = some rule)
    (hlast : ∀ map key, place.getLast? ≠ some (.capture map key)) (kind : DiagnosticKind)
    (hkind : classify rule.keys rule.patterns.isSome = .error kind) :
    (∀ e, ofDefinition d = .error e → ofDefinition (d.delete place) = .error e) ∧
    ∀ g, ofDefinition d = .ok g → ∃ g', ofDefinition (d.delete place) = .ok g' ∧
      List.Forall₂ (SameRule d.top place) g.rules.toList g'.rules.toList ∧
      Drops d.top place kind (d.visits place) g.diagnostics g'.diagnostics := by
  have hname : (d.delete place).scopeName = d.scopeName := rfl
  rcases ofDefinition_of_scopeName hname with ⟨e, he, he'⟩ | ⟨scope, hd, hd'⟩
  · rw [he, he']
    exact ⟨fun _ heq => heq, nofun⟩
  · rw [hd, hd']
    refine ⟨nofun, fun g heq => ?_⟩
    cases heq
    have hempty : Arena.SameBut d.top place kind 0 Arena.empty Arena.empty := ⟨.nil, .nil⟩
    obtain ⟨-, hsame⟩ := loadRoot_alike hkeyed hrule hkind hlast scope 0 _ _ hempty
    rw [Nat.zero_add] at hsame
    exact ⟨_, rfl, hsame.rules, hsame.diagnostics⟩

end Grammar

end

namespace Grammar

/-- A rule with no keys in a capture map that counts for both ends of a region: the loader comes to it
twice, and the pattern behind it moves up. -/
theorem dropped_rule_isolated_shared :
    let x : Part := .name { chars := ['x'] }
    let bare : RuleDefinition := {}
    let single : RuleDefinition := { keys := { matchText := some "m" } }
    let group : RuleDefinition := { patterns := some [bare, single] }
    let region : RuleDefinition :=
      { keys := { beginText := some "a", endText := some "b" }, captures := some [("1", group)] }
    let d : GrammarDefinition := { scopeName := some "x", patterns := [region] }
    let g := ofScoped d ⟨[x], by decide⟩
    let place : Place := [.pattern 0, .capture .shared "1", .pattern 0]
    ofDefinition d = .ok g ∧ d.Keyed ∧ d.at? place = some bare ∧
      (∀ map key, place.getLast? ≠ some (.capture map key)) ∧
      classify bare.keys bare.patterns.isSome = .error .emptyRule ∧ d.visits place = 2 ∧
      g.diagnostics = [⟨"patterns[0].captures.1.patterns[0]", .emptyRule⟩,
        ⟨"patterns[0].captures.1.patterns[0]", .emptyRule⟩] ∧
      ∃ g', ofDefinition (d.delete place) = .ok g' ∧ g'.diagnostics = [] ∧
        List.Forall₂ (SameRule d.top place) g.rules.toList g'.rules.toList ∧
        Drops d.top place .emptyRule 2 g.diagnostics g'.diagnostics := by
  intro x bare single group region d g place
  have hd : ofDefinition d = .ok g := rfl
  have hgroup : group.Keyed := by
    refine RuleDefinition.keyed_of_patterns (fun rules hrules rule hrule => ?_) _
    cases hrules
    rcases List.mem_pair.1 hrule with rfl | rfl <;> exact RuleDefinition.keyed_of_keys _
  have hregion : region.Keyed := by
    refine RuleDefinition.keyed_of_captures ?_ _ (List.pairwise_singleton _ _) ?_
    · exact nofun
    · exact List.forall_mem_singleton.2 hgroup
  have hkeyed : d.Keyed := ⟨by simpa [d] using hregion, List.Pairwise.nil, nofun⟩
  have hrule : d.at? place = some bare := rfl
  have hlast : ∀ map key, place.getLast? ≠ some (.capture map key) := by
    intro map key heq
    cases heq
  have hkind : classify bare.keys bare.patterns.isSome = .error .emptyRule := rfl
  have hvisits : d.visits place = 2 := by decide +kernel +zetaReduce
  have hdiagnostics : g.diagnostics = [⟨"patterns[0].captures.1.patterns[0]", .emptyRule⟩,
      ⟨"patterns[0].captures.1.patterns[0]", .emptyRule⟩] := by decide +kernel +zetaReduce
  obtain ⟨-, hisolated⟩ := dropped_rule_isolated d hkeyed place bare hrule hlast .emptyRule hkind
  obtain ⟨g', hd', hrules, hdrops⟩ := hisolated g hd
  rw [hvisits] at hdrops
  refine ⟨hd, hkeyed, hrule, hlast, hkind, hvisits, hdiagnostics, g', hd', ?_, hrules, hdrops⟩
  have hlength := hdrops.length_eq
  rw [hdiagnostics] at hlength
  simp only [List.length_cons, List.length_nil] at hlength
  exact List.eq_nil_of_length_eq_zero (by omega)

end Grammar

end Highlight
