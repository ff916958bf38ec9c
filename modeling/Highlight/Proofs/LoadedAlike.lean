import Highlight.Proofs.Places
import Mathlib.Algebra.Ring.Nat
import Mathlib.Data.List.Forall2

/-!
# Loading two definitions alike

Two definitions that differ in little are loaded side by side. At each step the loader takes the same
number, leaves the same rules behind but for their locations, and the same diagnostics but for one, which
only the first definition gives rise to, and maybe more than once.

- `Relocated`, `SameRule`, `Drops`, `Arena.SameBut`: what is compared.
- `Loading.Alike`: two parts of the loader that keep what is compared.
- `PartsAlike.loadRule`, `PartsAlike.loadCaptureRule`: a rule is loaded alike if its parts are.
- `loadRule_alike` and the lemmas with it: a definition is loaded alike wherever it stands.
-/

namespace Highlight

/-- The locations of the same thing in a definition and in the one without the rule at `target`. What has
a location is a rule of the definition, or a capture map of one. -/
inductive Relocated (top : RuleDefinition) (target : Place) : String → String → Prop
  | rule {place : Place} : (top.at? place).isSome →
    Relocated top target place.text (Place.moved target place).text
  | captures {place : Place} {rule : RuleDefinition} (map : CaptureMap) : top.at? place = some rule →
    (rule.captureMap map).isSome →
    Relocated top target (place.below ++ map.text) ((Place.moved target place).below ++ map.text)

variable [Engine]

/-- The same rule but for its location. -/
structure SameRule (top : RuleDefinition) (target : Place) (rule rule' : Rule) : Prop where
  location : Relocated top target rule.location rule'.location
  eq : rule' = { rule with location := rule'.location }

/-- The same diagnostics in the same order, but for their locations and for some that are left out. These
are about the rule at `target`, and are counted. -/
inductive Drops (top : RuleDefinition) (target : Place) (kind : DiagnosticKind) :
    Nat → List Diagnostic → List Diagnostic → Prop
  | nil : Drops top target kind 0 [] []
  | keep {count : Nat} {d d' : Diagnostic} {ds ds' : List Diagnostic} :
    Relocated top target d.location d'.location → d'.kind = d.kind →
    Drops top target kind count ds ds' → Drops top target kind count (d :: ds) (d' :: ds')
  | drop {count : Nat} {ds ds' : List Diagnostic} : Drops top target kind count ds ds' →
    Drops top target kind (count + 1) (⟨target.text, kind⟩ :: ds) ds'

/-- The same was loaded, but for locations and for a number of diagnostics about the rule at `target`. -/
structure Arena.SameBut (top : RuleDefinition) (target : Place) (kind : DiagnosticKind) (count : Nat)
    (a a' : Arena) : Prop where
  rules : List.Forall₂ (SameRule top target) a.rules.toList a'.rules.toList
  diagnostics : Drops top target kind count a.diagnostics.toList a'.diagnostics.toList

variable {top : RuleDefinition} {target : Place} {kind : DiagnosticKind} {count count' : Nat}

namespace Drops

omit [Engine]

variable {ds ds' es es' : List Diagnostic}

/-- What is left out of two lists is left out of both together. -/
theorem append (h : Drops top target kind count ds ds') (h' : Drops top target kind count' es es') :
    Drops top target kind (count + count') (ds ++ es) (ds' ++ es') := by
  induction h with
  | nil => rwa [Nat.zero_add]
  | keep hlocation hkind _ ih => exact .keep hlocation hkind ih
  | @drop count ds ds' _ ih =>
    rw [Nat.add_right_comm]
    exact .drop ih

/-- Without the diagnostics that are left out there are as many fewer. -/
theorem length_eq (h : Drops top target kind count ds ds') : ds.length = ds'.length + count := by
  induction h with
  | nil => rfl
  | keep _ _ _ ih => simp only [List.length_cons, ih, Nat.add_right_comm]
  | drop _ ih => simp only [List.length_cons, ih, Nat.add_assoc]

end Drops

omit [Engine] in
/-- Related lists stay related when related items are put at one position. -/
theorem forall₂_set {α β : Type} {R : α → β → Prop} {xs : List α} {ys : List β}
    (h : List.Forall₂ R xs ys) {x : α} {y : β} (hxy : R x y) (i : Nat) :
    List.Forall₂ R (xs.set i x) (ys.set i y) := by
  induction h generalizing i with
  | nil => exact .nil
  | cons hfirst hrest ih =>
    cases i with
    | zero => exact .cons hxy hrest
    | succ i => exact .cons hfirst (ih i)

namespace Loading

variable {α β : Type}

/-- Two parts of the loader that give the same and load the same, but for locations and for a number of
diagnostics about the rule at `target`. -/
def Alike (top : RuleDefinition) (target : Place) (kind : DiagnosticKind) (count : Nat)
    (m m' : Loading α) : Prop :=
  ∀ (before : Nat) (a a' : Arena), a.SameBut top target kind before a' →
    (m a).1 = (m' a').1 ∧ (m a).2.SameBut top target kind (before + count) (m' a').2

theorem alike_pure (x : α) : Alike top target kind 0 (pure x) (pure x) := fun _ _ _ h => ⟨rfl, h⟩

/-- Two parts one after the other leave out what both do. -/
theorem Alike.bind {m m' : Loading α} {f f' : α → Loading β} (h : Alike top target kind count m m')
    (h' : ∀ x, Alike top target kind count' (f x) (f' x)) :
    Alike top target kind (count + count') (m >>= f) (m' >>= f') := by
  intro before a a' ha
  obtain ⟨hvalue, ha⟩ := h before a a' ha
  have hnext := h' (m a).1 _ _ _ ha
  rw [Nat.add_assoc, hvalue] at hnext
  show (f (m a).1 (m a).2).1 = (f' (m' a').1 (m' a').2).1 ∧ Arena.SameBut top target kind _
    (f (m a).1 (m a).2).2 (f' (m' a').1 (m' a').2).2
  rw [hvalue]
  exact hnext

/-- A part that counts nothing, in front of others. -/
theorem Alike.before {m m' : Loading α} {f f' : α → Loading β} (h : Alike top target kind 0 m m')
    (h' : ∀ x, Alike top target kind count (f x) (f' x)) :
    Alike top target kind count (m >>= f) (m' >>= f') := by
  have hbind := h.bind h'
  rwa [Nat.zero_add] at hbind

/-- Parts that count nothing, behind another. -/
theorem Alike.after {m m' : Loading α} {f f' : α → Loading β} (h : Alike top target kind count m m')
    (h' : ∀ x, Alike top target kind 0 (f x) (f' x)) :
    Alike top target kind count (m >>= f) (m' >>= f') := h.bind h'

theorem Alike.map {m m' : Loading α} (h : Alike top target kind count m m') (f : α → β) :
    Alike top target kind count (m >>= fun x => pure (f x)) (m' >>= fun x => pure (f x)) :=
  h.after fun x => alike_pure (f x)

/-- The reserved places are the same but for their locations. -/
theorem alike_reserve {location location' : String} (h : Relocated top target location location') :
    Alike top target kind 0 (reserve location) (reserve location') := by
  intro before a a' ha
  have hsize : a.rules.size = a'.rules.size := by
    have hlength := ha.rules.length_eq
    rwa [Array.length_toList, Array.length_toList] at hlength
  refine ⟨hsize, ?_, ha.diagnostics⟩
  show List.Forall₂ _ (a.rules.push _).toList (a'.rules.push _).toList
  rw [Array.toList_push, Array.toList_push]
  refine List.rel_append ha.rules (.cons ⟨h, ?_⟩ .nil)
  rw [hsize]
  rfl

/-- What is noted on both sides is noted of the same thing. -/
theorem alike_note {location location' : String} (h : Relocated top target location location')
    (noted : DiagnosticKind) : Alike top target kind 0 (note location noted) (note location' noted) := by
  intro before a a' ha
  refine ⟨rfl, ha.rules, ?_⟩
  show Drops _ _ _ _ (a.diagnostics.push _).toList (a'.diagnostics.push _).toList
  rw [Array.toList_push, Array.toList_push]
  exact ha.diagnostics.append (.keep h rfl .nil)

/-- What is noted of the rule at `target` in one place only. -/
theorem alike_drop : Alike top target kind 1 (note target.text kind) (pure ()) := by
  intro before a a' ha
  refine ⟨rfl, ha.rules, ?_⟩
  show Drops _ _ _ _ (a.diagnostics.push _).toList a'.diagnostics.toList
  rw [Array.toList_push, ← List.append_nil a'.diagnostics.toList]
  exact ha.diagnostics.append (.drop .nil)

/-- Rules that are the same but for their locations are filled in at the same number. -/
theorem alike_fill {rule rule' : Rule} (h : SameRule top target rule rule') :
    Alike top target kind 0 (fill rule) (fill rule') := by
  intro before a a' ha
  refine ⟨rfl, ?_, ha.diagnostics⟩
  have hid : rule'.id = rule.id := by rw [h.eq]
  show List.Forall₂ _ (a.rules.setIfInBounds _ _).toList (a'.rules.setIfInBounds _ _).toList
  rw [Array.toList_setIfInBounds, Array.toList_setIfInBounds, hid]
  exact forall₂_set ha.rules h rule.id

variable {location location' : String}

theorem alike_scopeName (h : Relocated top target location location') (value : Option String) :
    Alike top target kind 0 (scopeName value location) (scopeName value location') := by
  unfold scopeName
  split
  · exact alike_pure none
  · split
    · exact alike_pure _
    · exact (alike_note h _).map _

/-- A pattern that is refused is noted on both sides, or on neither. -/
theorem alike_pattern (h : Relocated top target location location') (value : Option String) :
    Alike top target kind 0 (pattern value location) (pattern value location') := by
  unfold pattern
  simp only
  split
  · exact alike_pure _
  · exact (alike_note h _).map _

theorem alike_endPattern (h : Relocated top target location location') (value : Option String) :
    Alike top target kind 0 (endPattern value location) (endPattern value location') := by
  unfold endPattern
  simp only
  split
  · exact alike_pure _
  · split
    · exact alike_pure _
    · exact (alike_note h _).map _

end Loading

/-! ## The parts of a rule -/

open Loading

/-- How many diagnostics come of loading a definition, given how many come of loading each part once. -/
def RuleDefinition.total (d : RuleDefinition) (loadedAs : LoadedAs) (counts : RulePart → Nat) : Nat :=
  ((d.loadedParts loadedAs).map counts).sum

/-- Loads the captures for one end of a region, or for a pattern. -/
def loadSide (d : RuleDefinition) (p : Place) (side : CaptureMap) : Loading CaptureRules :=
  loadCaptures ((d.captureMap (d.mapFor side)).getD []) (p.below ++ (d.mapFor side).text) []

/-- Loads what a rule has besides its names and its repository. -/
def loadKind (d : RuleDefinition) (p : Place) : Shape → Loading (RuleKind × Bool)
  | .link reference => pure (.link reference, true)
  | .group => do
    let rules ← loadPatterns (d.patterns.getD []) p.below 0
    return (.group ⟨rules, none⟩, true)
  | .single => do
    let (pattern, usable) ← pattern d.keys.matchText p.text
    let captures ← loadSide d p .shared
    return (.single ⟨pattern, captures⟩, usable)
  | .region => do
    let (opening, openingUsable) ← pattern d.keys.beginText p.text
    let (closing, closingUsable) ← endPattern d.keys.endText p.text
    let openingCaptures ← loadSide d p .opening
    let closingCaptures ← loadSide d p .closing
    let contentName ← scopeName d.keys.contentName p.text
    let rules ← loadPatterns (d.patterns.getD []) p.below 0
    return (.region ⟨opening, openingCaptures, closing, closingCaptures, contentName,
      d.keys.endLast, rules⟩, openingUsable && closingUsable)
  | .guarded => do
    let (opening, openingUsable) ← pattern d.keys.beginText p.text
    let (condition, conditionUsable) ← endPattern d.keys.whileText p.text
    let openingCaptures ← loadSide d p .opening
    let conditionCaptures ← loadSide d p .condition
    let contentName ← scopeName d.keys.contentName p.text
    let rules ← loadPatterns (d.patterns.getD []) p.below 0
    return (.guarded ⟨opening, openingCaptures, condition, conditionCaptures, contentName, rules⟩,
      openingUsable && conditionUsable)

section

variable {p : Place} (hp : p ≠ [])
include hp

theorem loadPatternList_eq (definitions : Option (List RuleDefinition)) :
    loadPatternList definitions p.text = loadPatterns (definitions.getD []) p.below 0 := by
  rw [Place.below_eq hp]
  cases definitions <;> rfl

theorem loadEntries_eq (definitions : Option (List (String × RuleDefinition))) :
    loadEntries definitions p.text = loadRepository (definitions.getD []) p.below := by
  rw [Place.below_eq hp]
  cases definitions <;> rfl

theorem loadCaptureMap_eq (definitions : Option (List (String × RuleDefinition)))
    (map : CaptureMap) :
    loadCaptureMap definitions (p.text ++ ("." ++ map.text)) =
      loadCaptures (definitions.getD []) (p.below ++ map.text) [] := by
  rw [Place.below_eq hp, String.append_assoc]
  cases definitions <;> rfl

/-- The captures for one end are loaded from the map for that end, or else from the one for both. -/
theorem loadSide_eq (d : RuleDefinition) (side : CaptureMap) :
    (if (d.captureMap side).isSome then loadCaptureMap (d.captureMap side) (p.text ++ ("." ++ side.text))
      else loadCaptureMap d.captures (p.text ++ ("." ++ CaptureMap.shared.text))) =
    loadSide d p side := by
  rw [loadCaptureMap_eq hp, loadCaptureMap_eq hp]
  unfold loadSide RuleDefinition.mapFor
  split <;> rfl

/-- How a rule is loaded, by its parts. -/
theorem loadRule_eq (d : RuleDefinition) : loadRule d p.text =
    match classify d.keys d.patterns.isSome with
    | .error kind => do
      note p.text kind
      return none
    | .ok shape => do
      let id ← reserve p.text
      let name ← scopeName d.keys.name p.text
      let entries ← loadRepository (d.repository.getD []) p.below
      let (kind, usable) ← loadKind d p shape
      fill ⟨id, p.text, d.keys.comment, name, entries, d.keys.disabled || !usable, kind⟩
      return some id := by
  have hopening := loadSide_eq hp d .opening
  have hclosing := loadSide_eq hp d .closing
  have hcondition := loadSide_eq hp d .condition
  have hshared : loadCaptureMap d.captures (p.text ++ ("." ++ CaptureMap.shared.text)) =
      loadSide d p .shared := by
    rw [← loadSide_eq hp]
    exact (ite_self _).symm
  obtain ⟨keys, captures, beginCaptures, endCaptures, whileCaptures, patterns, repository⟩ := d
  rw [loadRule]
  split
  · rename_i hclassify
    simp only [hclassify]
  · rename_i shape hclassify
    simp only [hclassify, loadEntries_eq hp, loadPatternList_eq hp]
    cases shape with
    | group => rfl
    | link reference => rfl
    | single =>
      simp only [loadKind, ← hshared]
      rfl
    | region =>
      simp only [loadKind, ← hopening, ← hclosing]
      rfl
    | guarded =>
      simp only [loadKind, ← hopening, ← hcondition]
      rfl

/-- How a rule for a capture group is loaded, by its parts. -/
theorem loadCaptureRule_eq (d : RuleDefinition) : loadCaptureRule d p.text = do
    let id ← reserve p.text
    let name ← scopeName d.keys.name p.text
    let contentName ← scopeName d.keys.contentName p.text
    let rules ← loadPatterns (d.patterns.getD []) p.below 0
    let entries ← loadRepository (d.repository.getD []) p.below
    fill ⟨id, p.text, d.keys.comment, name, entries, false, .group ⟨rules, contentName⟩⟩
    return id := by
  obtain ⟨keys, captures, beginCaptures, endCaptures, whileCaptures, patterns, repository⟩ := d
  simp only [loadCaptureRule, loadEntries_eq hp, loadPatternList_eq hp]

end

/-- A part of one definition at a place is loaded like the part of another at another place. -/
def PartAlike (top : RuleDefinition) (target : Place) (kind : DiagnosticKind) (count : Nat)
    (d d' : RuleDefinition) (p p' : Place) : RulePart → Prop
  | .patterns => Alike top target kind count (loadPatterns (d.patterns.getD []) p.below 0)
      (loadPatterns (d'.patterns.getD []) p'.below 0)
  | .repository => Alike top target kind count (loadRepository (d.repository.getD []) p.below)
      (loadRepository (d'.repository.getD []) p'.below)
  | .captures map => Alike top target kind count
      (loadCaptures ((d.captureMap map).getD []) (p.below ++ map.text) [])
      (loadCaptures ((d'.captureMap map).getD []) (p'.below ++ map.text) [])

/-- Two definitions at two places with the same keys and with parts that are loaded alike. -/
structure PartsAlike (top : RuleDefinition) (target : Place) (kind : DiagnosticKind)
    (counts : RulePart → Nat) (d d' : RuleDefinition) (p p' : Place) : Prop where
  keys : d'.keys = d.keys
  isSome_patterns : d'.patterns.isSome = d.patterns.isSome
  isSome_captures : ∀ map, (d'.captureMap map).isSome = (d.captureMap map).isSome
  parts : ∀ part, PartAlike top target kind (counts part) d d' p p' part

namespace PartsAlike

variable {counts : RulePart → Nat} {d d' : RuleDefinition} {p p' : Place}
  (h : PartsAlike top target kind counts d d' p p') (hlocation : Relocated top target p.text p'.text)
include h

/-- The patterns are a part that is loaded alike. -/
theorem patterns : Alike top target kind (counts .patterns)
    (loadPatterns (d.patterns.getD []) p.below 0) (loadPatterns (d'.patterns.getD []) p'.below 0) :=
  h.parts .patterns

theorem repository : Alike top target kind (counts .repository)
    (loadRepository (d.repository.getD []) p.below)
    (loadRepository (d'.repository.getD []) p'.below) :=
  h.parts .repository

/-- The captures for one end are a part that is loaded alike, from the same one of the two maps. -/
theorem side (side : CaptureMap) : Alike top target kind (counts (.captures (d.mapFor side)))
    (loadSide d p side) (loadSide d' p' side) := by
  have hmap : d'.mapFor side = d.mapFor side := by
    unfold RuleDefinition.mapFor
    rw [h.isSome_captures]
  unfold loadSide
  rw [hmap]
  exact h.parts (.captures (d.mapFor side))

include hlocation

/-- What a rule has besides its repository is loaded alike, whatever its kind. -/
theorem loadKind (shape : Shape) : Alike top target kind (((d.partsFor shape).tail.map counts).sum)
    (loadKind d p shape) (Highlight.loadKind d' p' shape) := by
  unfold Highlight.loadKind
  rw [h.keys]
  cases shape with
  | link reference => exact alike_pure _
  | group => exact h.patterns.map _
  | single =>
    have hshared := h.side .shared
    rw [RuleDefinition.mapFor_shared] at hshared
    refine (alike_pattern hlocation _).before fun pattern => ?_
    exact hshared.map _
  | region =>
    refine (alike_pattern hlocation _).before fun opening => ?_
    refine (alike_endPattern hlocation _).before fun closing => ?_
    refine (h.side .opening).bind fun openingCaptures => ?_
    refine (h.side .closing).bind fun closingCaptures => ?_
    refine (alike_scopeName hlocation _).before fun contentName => ?_
    exact h.patterns.map _
  | guarded =>
    refine (alike_pattern hlocation _).before fun opening => ?_
    refine (alike_endPattern hlocation _).before fun condition => ?_
    refine (h.side .opening).bind fun openingCaptures => ?_
    refine (h.side .condition).bind fun conditionCaptures => ?_
    refine (alike_scopeName hlocation _).before fun contentName => ?_
    exact h.patterns.map _

/-- **A rule is loaded alike if its parts are.** -/
theorem loadRule (hp : p ≠ []) (hp' : p' ≠ []) : Alike top target kind (d.total .rule counts)
    (loadRule d p.text) (Highlight.loadRule d' p'.text) := by
  rw [loadRule_eq hp, loadRule_eq hp', h.keys, h.isSome_patterns]
  unfold RuleDefinition.total RuleDefinition.loadedParts
  cases classify d.keys d.patterns.isSome with
  | error refused => exact (alike_note hlocation _).map _
  | ok shape =>
    have hsum : ((d.partsFor shape).map counts).sum
        = counts .repository + (((d.partsFor shape).tail.map counts).sum + 0) := by
      cases shape <;> rfl
    simp only
    rw [hsum]
    refine (alike_reserve hlocation).before fun id => ?_
    refine (alike_scopeName hlocation _).before fun name => ?_
    refine h.repository.bind fun entries => ?_
    refine (h.loadKind hlocation shape).bind fun loaded => ?_
    exact (alike_fill ⟨hlocation, rfl⟩).map _

/-- A rule for a capture group is loaded alike if its parts are. -/
theorem loadCaptureRule (hp : p ≠ []) (hp' : p' ≠ []) : Alike top target kind (d.total .group counts)
    (loadCaptureRule d p.text) (Highlight.loadCaptureRule d' p'.text) := by
  rw [loadCaptureRule_eq hp, loadCaptureRule_eq hp', h.keys]
  refine (alike_reserve hlocation).before fun id => ?_
  refine (alike_scopeName hlocation _).before fun name => ?_
  refine (alike_scopeName hlocation _).before fun contentName => ?_
  refine h.patterns.bind fun rules => ?_
  refine h.repository.bind fun entries => ?_
  exact (alike_fill ⟨hlocation, rfl⟩).map _

end PartsAlike

/-! ## Lists and maps -/

theorem loadPatterns_cons (rule : RuleDefinition) (rest : List RuleDefinition) (p : Place) (n : Nat) :
    loadPatterns (rule :: rest) p.below n = do
      let id ← loadRule rule (Place.text (p ++ [.pattern n]))
      let ids ← loadPatterns rest p.below (n + 1)
      return id.toList ++ ids := by
  rw [loadPatterns, Place.text_concat, Step.text, ← String.append_assoc, ← String.append_assoc]

theorem loadRepository_cons (key : String) (rule : RuleDefinition)
    (rest : List (String × RuleDefinition)) (p : Place) :
    loadRepository ((key, rule) :: rest) p.below = do
      let id ← loadRule rule (Place.text (p ++ [.entry key]))
      let ids ← loadRepository rest p.below
      return id.toList.map (key, ·) ++ ids := by
  rw [loadRepository, Place.text_concat, Step.text, ← String.append_assoc]
  refine congrArg _ (funext fun id => congrArg _ (funext fun ids => ?_))
  cases id <;> rfl

/-- The first entry of a capture map is noted, or else loaded and put at its group. -/
theorem loadCaptures_cons (key : String) (rule : RuleDefinition)
    (rest : List (String × RuleDefinition)) (p : Place) (map : CaptureMap) (rules : CaptureRules) :
    loadCaptures ((key, rule) :: rest) (p.below ++ map.text) rules =
      (match captureGroup? key with
      | none => do
        note (p.below ++ map.text) (.invalidCaptureKey key)
        loadCaptures rest (p.below ++ map.text) rules
      | some group => do
        let id ← loadCaptureRule rule (Place.text (p ++ [.capture map key]))
        loadCaptures rest (p.below ++ map.text) (rules.put group id)) := by
  have hlocation : Place.text (p ++ [.capture map key]) = p.below ++ map.text ++ "." ++ key := by
    rw [Place.text_concat, Step.text, ← String.append_assoc, ← String.append_assoc]
  cases hgroup : captureGroup? key with
  | none => simp only [loadCaptures, hgroup]
  | some group => simp only [loadCaptures, hgroup, hlocation]

/-! ## The same definition at two places -/

/-- Without the rule at `target`, what stands at a place and below it stands at and below another. -/
def Place.Becomes (target p p' : Place) : Prop := ∀ rest, moved target (p ++ rest) = p' ++ rest

namespace Place.Becomes

omit [Engine]

variable {p p' : Place} (h : Becomes target p p')
include h

/-- What stands below a place moves with it. -/
theorem step (step : Step) : Becomes target (p ++ [step]) (p' ++ [step]) := by
  intro rest
  rw [List.append_assoc, List.append_assoc]
  exact h _

theorem moved_eq : moved target p = p' := by
  have hself := h []
  rwa [List.append_nil, List.append_nil] at hself

variable {d : RuleDefinition} (hat : top.HasAt p d)
include hat

/-- A rule at a place that becomes another is relocated there. -/
theorem location : Relocated top target p.text p'.text := by
  rw [← h.moved_eq]
  exact .rule (Option.isSome_of_eq_some hat.at_eq)

/-- So is a capture map of such a rule. -/
theorem map (map : CaptureMap) (hmap : (d.captureMap map).isSome) :
    Relocated top target (p.below ++ map.text) (p'.below ++ map.text) := by
  rw [← h.moved_eq]
  exact .captures map hat.at_eq hmap

end Place.Becomes

omit [Engine] in
/-- Parts that leave nothing out leave nothing out together. -/
theorem RuleDefinition.total_zero (d : RuleDefinition) (loadedAs : LoadedAs) :
    d.total loadedAs (fun _ => 0) = 0 := by
  simp [total]

/-- A rule whose parts are loaded alike, with no difference in what is noted. -/
theorem PartsAlike.rule_at {d d' : RuleDefinition} {p p' : Place} {step step' : Step}
    (h : PartsAlike top target kind (fun _ => 0) d d' (p ++ [step]) (p' ++ [step']))
    (hlocation : Relocated top target (p ++ [step]).text (p' ++ [step']).text) :
    Alike top target kind 0 (Highlight.loadRule d (p ++ [step]).text)
      (Highlight.loadRule d' (p' ++ [step']).text) := by
  have hrule := h.loadRule hlocation (by simp) (by simp)
  rwa [d.total_zero] at hrule

theorem PartsAlike.captureRule_at {d d' : RuleDefinition} {p p' : Place} {step step' : Step}
    (h : PartsAlike top target kind (fun _ => 0) d d' (p ++ [step]) (p' ++ [step']))
    (hlocation : Relocated top target (p ++ [step]).text (p' ++ [step']).text) :
    Alike top target kind 0 (Highlight.loadCaptureRule d (p ++ [step]).text)
      (Highlight.loadCaptureRule d' (p' ++ [step']).text) := by
  have hrule := h.loadCaptureRule hlocation (by simp) (by simp)
  rwa [d.total_zero] at hrule

mutual

/-- The parts of a definition are loaded alike wherever it stands. -/
theorem parts_alike : ∀ (d : RuleDefinition) {p p' : Place}, top.HasAt p d →
    Place.Becomes target p p' → PartsAlike top target kind (fun _ => 0) d d p p'
  | ⟨_, captures, beginCaptures, endCaptures, whileCaptures, patterns, repository⟩, _, _, hat, h =>
    ⟨rfl, rfl, fun _ => rfl, fun part => match part with
      | .patterns => patternList_alike patterns hat.patterns h
      | .repository => entries_alike repository hat.entry h
      | .captures .shared =>
        captureMap_alike captures .shared (hat.capture .shared) (h.map hat .shared) h
      | .captures .opening =>
        captureMap_alike beginCaptures .opening (hat.capture .opening) (h.map hat .opening) h
      | .captures .closing =>
        captureMap_alike endCaptures .closing (hat.capture .closing) (h.map hat .closing) h
      | .captures .condition =>
        captureMap_alike whileCaptures .condition (hat.capture .condition) (h.map hat .condition) h⟩

/-- A pattern list is loaded alike at both places, if there is one. -/
theorem patternList_alike : ∀ (definitions : Option (List RuleDefinition)) {p p' : Place},
    top.ListedAt p 0 (definitions.getD []) → Place.Becomes target p p' →
    Alike top target kind 0 (loadPatterns (definitions.getD []) p.below 0)
      (loadPatterns (definitions.getD []) p'.below 0)
  | none, _, _, _, _ => alike_pure []
  | some rules, _, _, hat, h => loadPatterns_alike rules hat fun i => h.step (.pattern (0 + i))

theorem entries_alike : ∀ (definitions : Option (List (String × RuleDefinition))) {p p' : Place},
    (∀ e ∈ definitions.getD [], top.HasAt (p ++ [.entry e.1]) e.2) → Place.Becomes target p p' →
    Alike top target kind 0 (loadRepository (definitions.getD []) p.below)
      (loadRepository (definitions.getD []) p'.below)
  | none, _, _, _, _ => alike_pure []
  | some entries, _, _, hat, h => loadRepository_alike entries hat fun e _ => h.step (.entry e.1)

theorem captureMap_alike : ∀ (definitions : Option (List (String × RuleDefinition)))
    (map : CaptureMap) {p p' : Place},
    (∀ e ∈ definitions.getD [], top.HasAt (p ++ [.capture map e.1]) e.2) →
    (definitions.isSome → Relocated top target (p.below ++ map.text) (p'.below ++ map.text)) →
    Place.Becomes target p p' →
    Alike top target kind 0 (loadCaptures (definitions.getD []) (p.below ++ map.text) [])
      (loadCaptures (definitions.getD []) (p'.below ++ map.text) [])
  | none, _, _, _, _, _, _ => alike_pure []
  | some entries, map, _, _, hat, hmap, h =>
    loadCaptures_alike entries map (hmap rfl) hat (fun e _ => h.step (.capture map e.1)) []

/-- A pattern list is loaded alike, also if it begins with another number. -/
theorem loadPatterns_alike : ∀ (definitions : List RuleDefinition) {p p' : Place} {n n' : Nat},
    top.ListedAt p n definitions →
    (∀ i, Place.Becomes target (p ++ [.pattern (n + i)]) (p' ++ [.pattern (n' + i)])) →
    Alike top target kind 0 (loadPatterns definitions p.below n)
      (loadPatterns definitions p'.below n')
  | [], _, _, _, _, _, _ => alike_pure []
  | rule :: rest, p, p', n, n', hat, h => by
    have hrest : ∀ i, Place.Becomes target (p ++ [.pattern (n + 1 + i)])
        (p' ++ [.pattern (n' + 1 + i)]) := by
      intro i
      rw [Nat.add_right_comm n, Nat.add_right_comm n']
      exact h (i + 1)
    rw [loadPatterns_cons, loadPatterns_cons]
    refine ((parts_alike rule hat.head (h 0)).rule_at ((h 0).location hat.head)).before fun id => ?_
    exact (loadPatterns_alike rest hat.tail hrest).map _

/-- A repository is loaded alike if each of its entries moves with it. -/
theorem loadRepository_alike : ∀ (definitions : List (String × RuleDefinition)) {p p' : Place},
    (∀ e ∈ definitions, top.HasAt (p ++ [.entry e.1]) e.2) →
    (∀ e ∈ definitions, Place.Becomes target (p ++ [.entry e.1]) (p' ++ [.entry e.1])) →
    Alike top target kind 0 (loadRepository definitions p.below) (loadRepository definitions p'.below)
  | [], _, _, _, _ => alike_pure []
  | (key, rule) :: rest, p, p', hat, h => by
    obtain ⟨hatRule, hatRest⟩ := List.forall_mem_cons.1 hat
    obtain ⟨hrule, hrest⟩ := List.forall_mem_cons.1 h
    rw [loadRepository_cons, loadRepository_cons]
    refine ((parts_alike rule hatRule hrule).rule_at (hrule.location hatRule)).before fun id => ?_
    exact (loadRepository_alike rest hatRest hrest).map _

/-- A capture map is loaded alike, whatever rules stand at their groups already. -/
theorem loadCaptures_alike : ∀ (definitions : List (String × RuleDefinition)) (map : CaptureMap)
    {p p' : Place}, Relocated top target (p.below ++ map.text) (p'.below ++ map.text) →
    (∀ e ∈ definitions, top.HasAt (p ++ [.capture map e.1]) e.2) →
    (∀ e ∈ definitions,
      Place.Becomes target (p ++ [.capture map e.1]) (p' ++ [.capture map e.1])) →
    ∀ rules : CaptureRules,
      Alike top target kind 0 (loadCaptures definitions (p.below ++ map.text) rules)
        (loadCaptures definitions (p'.below ++ map.text) rules)
  | [], _, _, _, _, _, _, rules => alike_pure rules
  | (key, rule) :: rest, map, p, p', hmap, hat, h, rules => by
    obtain ⟨hatRule, hatRest⟩ := List.forall_mem_cons.1 hat
    obtain ⟨hrule, hrest⟩ := List.forall_mem_cons.1 h
    rw [loadCaptures_cons, loadCaptures_cons]
    split
    · exact (alike_note hmap _).before fun _ => loadCaptures_alike rest map hmap hatRest hrest rules
    · refine ((parts_alike rule hatRule hrule).captureRule_at (hrule.location hatRule)).before
        fun id => ?_
      exact loadCaptures_alike rest map hmap hatRest hrest _

end

section

variable {d : RuleDefinition} {p p' : Place} {step step' : Step} (hat : top.HasAt (p ++ [step]) d)
  (h : Place.Becomes target (p ++ [step]) (p' ++ [step']))
include hat h

/-- **A rule is loaded alike wherever it stands.** -/
theorem loadRule_alike : Alike top target kind 0 (loadRule d (p ++ [step]).text)
    (loadRule d (p' ++ [step']).text) :=
  (parts_alike d hat h).rule_at (h.location hat)

/-- A rule for a capture group is loaded alike wherever it stands. -/
theorem loadCaptureRule_alike : Alike top target kind 0 (loadCaptureRule d (p ++ [step]).text)
    (loadCaptureRule d (p' ++ [step']).text) :=
  (parts_alike d hat h).captureRule_at (h.location hat)

end

end Highlight
