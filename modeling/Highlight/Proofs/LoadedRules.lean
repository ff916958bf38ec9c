import Highlight.Proofs.LoadOrder

/-!
# The rules that are made of what is loaded

The loader is followed once more as a program on the rules and diagnostics. Each part of it is said to
add the rules of some loads, in their order. What is said about a rule is said about the rules at the
end, so that nothing has to be carried along: the rules at the end are still those that this part has
left, from its first number on, and no diagnostic is lost.

- `Load.Makes`, `Load.Stands`: what is said of the rule that a load makes.
- `CaptureRules.Holds`: what is said of the rules for the groups of a capture map.
- `Laid`, `Loading.Lays`: what is said about the loader.
- `PartsLay.loadRule`, `PartsLay.loadCaptureRule`: a rule is as it should be if its parts are.
- `parts_lay` and the lemmas with it: what each part of the loader adds.
- `Grammar.makes_of_loadOrder`: the rules of a grammar.
-/

namespace Highlight

open Loading

variable [Engine]

/-! ## What is said of a rule -/

/-- The rules for capture groups that a rule has, each for one of its patterns. -/
def RuleKind.slots : RuleKind → List (CaptureMap × CaptureRules)
  | .group _ => []
  | .single m => [(.shared, m.captures)]
  | .region r => [(.opening, r.openingCaptures), (.closing, r.closingCaptures)]
  | .guarded w => [(.opening, w.openingCaptures), (.condition, w.conditionCaptures)]
  | .link _ => []

/-- Whether a part of a rule is a capture map. -/
def RulePart.isCaptures : RulePart → Bool
  | .captures _ => true
  | _ => false

/-- **What becomes of an entry of a capture map**, when the loads around it take the given numbers: it is
reported if its key names no group. Otherwise it is loaded, and its number stands at the group, unless a
later key of the map names the same group. -/
def EntryKept (diagnostics : List Diagnostic) (numbers : List (InnerLoad × RuleId)) (p : Place)
    (map : CaptureMap) (slot : CaptureRules) (key : String) (rule : RuleDefinition)
    (behind : List (String × RuleDefinition)) : Prop :=
  match captureGroup? key with
  | none => ⟨p.below ++ map.text, .invalidCaptureKey key⟩ ∈ diagnostics
  | some group => ∃ i m, (i, m) ∈ numbers ∧
      i.toLoad = ⟨.group, p ++ [.capture map key], rule⟩ ∧ i.held = !namesGroup group behind ∧
      (i.held = true → slot.get? group = some m)

namespace EntryKept

omit [Engine]

variable {diagnostics : List Diagnostic} {numbers more : List (InnerLoad × RuleId)} {p : Place}
  {map : CaptureMap} {slot : CaptureRules} {key : String} {rule : RuleDefinition}
  {behind : List (String × RuleDefinition)}

/-- An entry whose key names a group is loaded. -/
theorem loaded {group : Nat} (hkey : captureGroup? key = some group)
    (h : EntryKept diagnostics numbers p map slot key rule behind) : ∃ i m, (i, m) ∈ numbers ∧
      i.toLoad = ⟨.group, p ++ [.capture map key], rule⟩ ∧ i.held = !namesGroup group behind ∧
      (i.held = true → slot.get? group = some m) := by
  rw [EntryKept, hkey] at h
  exact h

/-- More numbers around an entry do not change what becomes of it. -/
theorem mono (h : EntryKept diagnostics numbers p map slot key rule behind) (hmore : numbers ⊆ more) :
    EntryKept diagnostics more p map slot key rule behind := by
  unfold EntryKept
  split
  · rename_i hkey
    rwa [EntryKept, hkey] at h
  · rename_i group hkey
    obtain ⟨i, m, hnumber, hload⟩ := h.loaded hkey
    exact ⟨i, m, hmore hnumber, hload⟩

end EntryKept

/-- The rule that a load makes under the given number. -/
structure Load.Makes (l : Load) (diagnostics : List Diagnostic) (n : RuleId) (rule : Rule) : Prop where
  location : rule.location = l.place.text
  owned : ∀ m, m ∈ rule.owned ↔ m ∈ heldNumbers l.inner (n + 1)
  slots : rule.kind.slots.map (fun slot => RulePart.captures (l.definition.mapFor slot.1)) =
    l.parts.filter RulePart.isCaptures
  entries : ∀ side slot, (side, slot) ∈ rule.kind.slots → ∀ front key inner behind,
    l.definition.captureEntries (l.definition.mapFor side) = front ++ (key, inner) :: behind →
    EntryKept diagnostics (numbered l.inner (n + 1)) l.place (l.definition.mapFor side) slot key inner
      behind

/-- The rule with the given number is the one that a load makes. -/
def Load.Stands (l : Load) (b : Arena) (n : RuleId) : Prop :=
  ∃ rule, b.rules[n]? = some rule ∧ l.Makes b.diagnostics.toList n rule

/-! ## The rules for capture groups -/

namespace CaptureRules

omit [Engine]

variable {rules : CaptureRules} {group : Nat} {rule : RuleId}

/-- Places that are added for a later group hold no rule. -/
theorem getElem?_padded (rules : CaptureRules) (n other : Nat) :
    ((rules ++ List.replicate n none)[other]?).join = rules.get? other := by
  rcases Nat.lt_or_ge other rules.length with hlt | hle
  · rw [List.getElem?_append_left hlt]
    rfl
  · rw [List.getElem?_append_right hle, List.getElem?_replicate, get?, List.getElem?_eq_none hle]
    split <;> rfl

/-- A rule that is put at a group stands there. -/
theorem get?_put_self (rules : CaptureRules) (group : Nat) (rule : RuleId) :
    (rules.put group rule).get? group = some rule := by
  unfold put get?
  rw [List.getElem?_set_self (by simp; omega)]
  rfl

/-- What stands at other groups stays. -/
theorem get?_put_other {other : Nat} (h : other ≠ group) :
    (rules.put group rule).get? other = rules.get? other := by
  have hpadded := getElem?_padded rules (group + 1 - rules.length) other
  rw [← hpadded]
  unfold put get?
  rw [List.getElem?_set_ne (Ne.symm h)]

/-- The rules of a capture map are those that stand at a group. -/
theorem mem_filterMap_iff {m : RuleId} :
    m ∈ rules.filterMap id ↔ ∃ group, rules.get? group = some m := by
  rw [List.mem_filterMap]
  constructor
  · rintro ⟨_, hmem, rfl⟩
    obtain ⟨group, hgroup⟩ := List.getElem?_of_mem hmem
    exact ⟨group, by rw [get?, hgroup]; rfl⟩
  · rintro ⟨group, hgroup⟩
    refine ⟨some m, List.mem_of_getElem? (i := group) ?_, rfl⟩
    rw [get?, Option.join_eq_some_iff] at hgroup
    exact hgroup

/-- The rules for the groups of a capture map whose entries take numbers from the given one on, when
`before` is what there was before. -/
structure Holds (diagnostics : List Diagnostic) (p : Place) (map : CaptureMap) (before : CaptureRules)
    (entries : List (String × RuleDefinition)) (n : Nat) (out : CaptureRules) : Prop where
  others : ∀ group, namesGroup group entries = false → out.get? group = before.get? group
  held : ∀ m, m ∈ out.filterMap id ↔ m ∈ heldNumbers (captureLoads p map entries) n ∨
    ∃ group, before.get? group = some m ∧ namesGroup group entries = false
  entries : ∀ front key inner behind, entries = front ++ (key, inner) :: behind →
    EntryKept diagnostics (numbered (captureLoads p map entries) n) p map out key inner behind

namespace Holds

variable {diagnostics : List Diagnostic} {p : Place} {map : CaptureMap} {before out : CaptureRules}
  {key : String} {inner : RuleDefinition} {rest : List (String × RuleDefinition)} {n : Nat}

theorem nil (diagnostics : List Diagnostic) (p : Place) (map : CaptureMap) (rules : CaptureRules)
    (n : Nat) : Holds diagnostics p map rules [] n rules where
  others _ _ := rfl
  held m := by
    rw [mem_filterMap_iff]
    simp [captureLoads, heldNumbers, numbered, namesGroup]
  entries front key inner behind heq := by simp at heq

/-- An entry whose key names no group is reported. -/
theorem skip (hkey : captureGroup? key = none)
    (hnoted : ⟨p.below ++ map.text, .invalidCaptureKey key⟩ ∈ diagnostics)
    (h : Holds diagnostics p map before rest n out) :
    Holds diagnostics p map before ((key, inner) :: rest) n out := by
  have hloads := captureLoads_of_none hkey p map inner rest
  have hnames : ∀ group, namesGroup group ((key, inner) :: rest) = namesGroup group rest := by
    intro group
    rw [namesGroup_cons, hkey]
    rfl
  refine ⟨fun group hgroup => h.others group (hnames group ▸ hgroup), fun m => ?_, ?_⟩
  · rw [hloads, h.held]
    simp only [hnames]
  · intro front key' inner' behind heq
    rw [hloads]
    cases front with
    | nil =>
      cases heq
      rw [EntryKept, hkey]
      exact hnoted
    | cons first front =>
      cases heq
      exact h.entries front key' inner' behind rfl

/-- An entry for a group takes the next number, which stands at the group until there is a later one. -/
theorem put {group : Nat} (hkey : captureGroup? key = some group)
    (h : Holds diagnostics p map (before.put group n) rest
      (n + (Load.mk .group (p ++ [.capture map key]) inner).order.length) out) :
    Holds diagnostics p map before ((key, inner) :: rest) n out := by
  have hloads := captureLoads_of_some hkey p map inner rest
  have hnames : ∀ other, namesGroup other ((key, inner) :: rest) =
      (group == other || namesGroup other rest) := by
    intro other
    rw [namesGroup_cons, hkey]
    rfl
  refine ⟨fun other hother => ?_, fun m => ?_, ?_⟩
  · rw [hnames, Bool.or_eq_false_iff, beq_eq_false_iff_ne] at hother
    rw [h.others other hother.2, get?_put_other (Ne.symm hother.1)]
  · have hnumbers : m ∈ heldNumbers (captureLoads p map ((key, inner) :: rest)) n ↔
        (namesGroup group rest = false ∧ m = n) ∨ m ∈ heldNumbers (captureLoads p map rest)
          (n + (Load.mk .group (p ++ [.capture map key]) inner).order.length) := by
      rw [hloads, heldNumbers_cons]
      cases namesGroup group rest <;> simp [Load.isKept]
    rw [h.held, hnumbers]
    constructor
    · rintro (hm | ⟨other, hother, hlater⟩)
      · exact .inl (.inr hm)
      · by_cases heq : other = group
        · subst heq
          rw [get?_put_self] at hother
          cases hother
          exact .inl (.inl ⟨hlater, rfl⟩)
        · rw [get?_put_other heq] at hother
          refine .inr ⟨other, hother, ?_⟩
          rw [hnames, hlater, Bool.or_false, beq_eq_false_iff_ne]
          exact Ne.symm heq
    · rintro ((⟨hlater, rfl⟩ | hm) | ⟨other, hother, hlater⟩)
      · exact .inr ⟨group, get?_put_self _ _ _, hlater⟩
      · exact .inl hm
      · rw [hnames, Bool.or_eq_false_iff, beq_eq_false_iff_ne] at hlater
        exact .inr ⟨other, by rw [get?_put_other (Ne.symm hlater.1), hother], hlater.2⟩
  · intro front key' inner' behind heq
    rw [hloads, numbered]
    cases front with
    | nil =>
      cases heq
      rw [EntryKept, hkey]
      refine ⟨_, n, List.mem_append_left _ List.mem_cons_self, rfl, rfl, fun hheld => ?_⟩
      rw [h.others group (by simpa using hheld), get?_put_self]
    | cons first front =>
      cases heq
      exact (h.entries front key' inner' behind rfl).mono (List.subset_append_right _ _)

end Holds

end CaptureRules

/-! ## Between two steps of the loader -/

/-- What is loaded later leaves the rules from a number on as they are, and no diagnostic is lost. -/
structure Arena.Stays (start : Nat) (a b : Arena) : Prop where
  rules : ∀ k, start ≤ k → k < a.rules.size → b.rules[k]? = a.rules[k]?
  diagnostics : a.diagnostics.toList ⊆ b.diagnostics.toList

/-- Since the loader had come to `base`, it has added the rules of some loads. They are as they should be
at the end if nothing happens to them until then, and so is all else that is said about the end. -/
structure Laid (base : Arena) (loads : List InnerLoad) (Q : Arena → Prop) (a : Arena) : Prop where
  size : a.rules.size = base.rules.size + (orderOf loads).length
  rules : ∀ k < base.rules.size, a.rules[k]? = base.rules[k]?
  diagnostics : base.diagnostics.toList ⊆ a.diagnostics.toList
  stands : ∀ b, a.Stays base.rules.size b → (∀ (k : Nat) (l : Load), (orderOf loads)[k]? = some l →
    l.Stands b (base.rules.size + k)) ∧ Q b

namespace Laid

variable {base a a' : Arena} {loads more : List InnerLoad} {Q R : Arena → Prop}

theorem refl (base : Arena) : Laid base [] (fun _ => True) base where
  size := rfl
  rules _ _ := rfl
  diagnostics := List.Subset.refl _
  stands _ _ := ⟨nofun, trivial⟩

theorem weaken (h : Laid base loads Q a) (hloads : orderOf loads = orderOf more)
    (hQ : ∀ b, Q b → R b) : Laid base more R a where
  size := hloads ▸ h.size
  rules := h.rules
  diagnostics := h.diagnostics
  stands b hb := by
    obtain ⟨hstands, hb⟩ := h.stands b hb
    rw [hloads] at hstands
    exact ⟨hstands, hQ b hb⟩

/-- What was added in two turns was added in one, and both properties hold of the end. -/
theorem trans (h : Laid base loads Q a) (h' : Laid a more R a') :
    Laid base (loads ++ more) (fun b => Q b ∧ R b) a' where
  size := by rw [h'.size, h.size, orderOf_append, List.length_append, Nat.add_assoc]
  rules k hk := by
    have hsize := h.size
    rw [h'.rules k (by omega), h.rules k hk]
  diagnostics := List.Subset.trans h.diagnostics h'.diagnostics
  stands b hb := by
    have hsize := h.size
    have hsize' := h'.size
    -- what the second part leaves alone is what the first part has left
    have hfirst : a.Stays base.rules.size b := by
      refine ⟨fun k hle hlt => ?_, List.Subset.trans h'.diagnostics hb.diagnostics⟩
      rw [hb.rules k hle (by omega), h'.rules k hlt]
    have hsecond : a'.Stays a.rules.size b := ⟨fun k hle => hb.rules k (by omega), hb.diagnostics⟩
    obtain ⟨hloads, hQ⟩ := h.stands b hfirst
    obtain ⟨hmore, hR⟩ := h'.stands b hsecond
    refine ⟨fun k l hl => ?_, hQ, hR⟩
    rw [orderOf_append] at hl
    rcases Nat.lt_or_ge k (orderOf loads).length with hlt | hle
    · rw [List.getElem?_append_left hlt] at hl
      exact hloads k l hl
    · rw [List.getElem?_append_right hle] at hl
      have hstands := hmore _ l hl
      have hk : a.rules.size + (k - (orderOf loads).length) = base.rules.size + k := by omega
      rwa [hk] at hstands

/-- Filling the place that was reserved in front of what is loaded within a rule. -/
theorem fill {blank rule : Rule} {i : InnerLoad} (hkept : i.isKept = true)
    (h : Laid { base with rules := base.rules.push blank } i.inner Q a) (hid : rule.id = base.rules.size)
    (hmakes : ∀ b, Q b → i.Makes b.diagnostics.toList base.rules.size rule) :
    Laid base [i] (fun _ => True) { a with rules := a.rules.setIfInBounds rule.id rule } where
  size := by
    have hsize := h.size
    simp only [Array.size_push] at hsize
    rw [orderOf_cons, orderOf_nil, List.append_nil, Load.order_of_kept hkept, List.length_cons,
      Array.size_setIfInBounds, hsize]
    omega
  rules k hk := by
    have hpushed := h.rules k (by simp only [Array.size_push]; omega)
    have hne : rule.id ≠ k := hid ▸ Nat.ne_of_gt hk
    rw [Array.getElem?_setIfInBounds_ne hne, hpushed, Array.getElem?_push_lt hk,
      Array.getElem?_eq_getElem hk]
  diagnostics := h.diagnostics
  stands b hb := by
    have hsize := h.size
    simp only [Array.size_push] at hsize
    have hrule : b.rules[base.rules.size]? = some rule := by
      have hset := hb.rules base.rules.size (Nat.le_refl _) (by simp; omega)
      rw [hset, hid, Array.getElem?_setIfInBounds_self_of_lt (by omega)]
    have hinner : a.Stays (base.rules.push blank).size b := by
      rw [Array.size_push]
      refine ⟨fun k hle hlt => ?_, hb.diagnostics⟩
      have hne : rule.id ≠ k := hid ▸ Nat.ne_of_lt hle
      rw [hb.rules k (by omega) (by simpa using hlt), Array.getElem?_setIfInBounds_ne hne]
    obtain ⟨hloads, hQ⟩ := h.stands b hinner
    refine ⟨fun k l hl => ?_, trivial⟩
    rw [orderOf_cons, orderOf_nil, List.append_nil, Load.order_of_kept hkept] at hl
    cases k with
    | zero =>
      cases hl
      exact ⟨rule, hrule, hmakes b hQ⟩
    | succ k =>
      have hstands := hloads k l hl
      simp only [Array.size_push] at hstands
      rwa [Nat.add_assoc, Nat.add_comm 1] at hstands

end Laid

namespace Loading

variable {α β : Type}

/-- A part of the loader that leads from arenas with one property to those with another. -/
def Leads (P : Arena → Prop) (m : Loading α) (Q : α → Arena → Prop) : Prop :=
  ∀ a, P a → Q (m a).1 (m a).2

/-- A part of the loader that adds the rules of some loads. What is said about its result depends on the
number that it begins with, and on the end. -/
def Lays (loads : List InnerLoad) (m : Loading α) (Q : α → Nat → Arena → Prop) : Prop :=
  ∀ a, Laid a loads (Q (m a).1 a.rules.size) (m a).2

/-- A part of the loader that adds no rules. -/
def Quiet (m : Loading α) : Prop :=
  ∀ a, (m a).2.rules = a.rules ∧ a.diagnostics.toList ⊆ (m a).2.diagnostics.toList

theorem leads_pure {P : Arena → Prop} {Q : α → Arena → Prop} {x : α} (h : ∀ a, P a → Q x a) :
    Leads P (pure x) Q := h

/-- Two parts of the loader one after the other. -/
theorem Leads.bind {P : Arena → Prop} {Q : α → Arena → Prop} {R : β → Arena → Prop} {m : Loading α}
    {f : α → Loading β} (h : Leads P m Q) (h' : ∀ x, Leads (Q x) (f x) R) : Leads P (m >>= f) R :=
  fun a ha => h' _ _ (h a ha)

variable {loads more : List InnerLoad} {Q : Arena → Prop}

/-- A part that adds some loads can come behind others. -/
theorem Lays.leads {m : Loading α} {R : α → Nat → Arena → Prop} (h : Lays more m R) (base : Arena) :
    Leads (Laid base loads Q) m fun x => Laid base (loads ++ more) fun b =>
      Q b ∧ R x (base.rules.size + (orderOf loads).length) b := by
  intro a ha
  have hboth := ha.trans (h a)
  rwa [ha.size] at hboth

/-- A part adds some loads if it leads from nothing added to these. -/
theorem lays_of_leads {m : Loading α} {R : α → Nat → Arena → Prop}
    (h : ∀ base, Leads (Laid base [] fun _ => True) m fun x => Laid base loads (R x base.rules.size)) :
    Lays loads m R := fun a => h a a (Laid.refl a)

/-- A part that adds no rules changes nothing about what was added. -/
theorem Quiet.leads {m : Loading α} (h : Quiet m) (base : Arena) :
    Leads (Laid base loads Q) m fun _ => Laid base loads Q := by
  intro a ha
  obtain ⟨hrules, hdiagnostics⟩ := h a
  refine ⟨by rw [hrules, ha.size], fun k hk => by rw [hrules, ha.rules k hk],
    List.Subset.trans ha.diagnostics hdiagnostics, fun b hb => ha.stands b ⟨fun k hle hlt => ?_, ?_⟩⟩
  · rw [hb.rules k hle (by rw [hrules]; exact hlt), hrules]
  · exact List.Subset.trans hdiagnostics hb.diagnostics

theorem quiet_pure (x : α) : Quiet (pure x) := fun _ => ⟨rfl, List.Subset.refl _⟩

theorem quiet_note (location : String) (kind : DiagnosticKind) : Quiet (note location kind) := by
  intro a
  refine ⟨rfl, ?_⟩
  show a.diagnostics.toList ⊆ (a.diagnostics.push _).toList
  rw [Array.toList_push]
  exact List.subset_append_left _ _

theorem Quiet.map {m : Loading α} (h : Quiet m) (f : α → β) : Quiet (m >>= fun x => pure (f x)) := h

/-- Reading a scope adds no rule. -/
theorem quiet_scopeName (value : Option String) (location : String) :
    Quiet (scopeName value location) := by
  unfold scopeName
  split
  · exact quiet_pure none
  · split
    · exact quiet_pure _
    · exact (quiet_note _ _).map _

/-- Reading a pattern adds no rule. -/
theorem quiet_pattern (value : Option String) (location : String) : Quiet (pattern value location) := by
  unfold pattern
  simp only
  split
  · exact quiet_pure _
  · exact (quiet_note _ _).map _

theorem quiet_endPattern (value : Option String) (location : String) :
    Quiet (endPattern value location) := by
  unfold endPattern
  simp only
  split
  · exact quiet_pure _
  · split
    · exact quiet_pure _
    · exact (quiet_note _ _).map _

/-- What is noted is there at the end. -/
theorem lays_note (location : String) (kind : DiagnosticKind) :
    Lays [] (note location kind) fun _ _ b => ⟨location, kind⟩ ∈ b.diagnostics.toList := by
  intro a
  have hquiet := (quiet_note location kind).leads a a (Laid.refl a)
  refine { hquiet with stands := fun b hb => ⟨nofun, hb.diagnostics ?_⟩ }
  show _ ∈ (a.diagnostics.push _).toList
  rw [Array.toList_push]
  exact List.mem_append_right _ List.mem_cons_self

/-- What follows on a reserved number, and fills it in. -/
theorem lays_reserve {location : String} {f : RuleId → Loading α} {R : α → Nat → Arena → Prop}
    (h : ∀ base : Arena, Leads
      (Laid { base with rules := base.rules.push (Arena.blank base.rules.size location) } []
        fun _ => True) (f base.rules.size) fun x => Laid base loads (R x base.rules.size)) :
    Lays loads (reserve location >>= f) R := fun a => h a _ (Laid.refl _)

/-- The reserved place is filled in with the rule that its load makes. -/
theorem leads_fill {base : Arena} {blank rule : Rule} {i : InnerLoad} (hkept : i.isKept = true)
    (hinner : i.inner = loads) (hid : rule.id = base.rules.size)
    (hmakes : ∀ b, Q b → i.Makes b.diagnostics.toList base.rules.size rule) :
    Leads (Laid { base with rules := base.rules.push blank } loads Q) (Loading.fill rule)
      fun _ => Laid base [i] fun _ => True := by
  subst hinner
  exact fun _ ha => ha.fill hkept hid hmakes

end Loading

/-! ## The parts of a rule -/

/-- A part of a definition at a place adds the rules of its loads and answers with the numbers that are to
be held. -/
def PartLays (d : RuleDefinition) (p : Place) : RulePart → Prop
  | .patterns => Lays (d.partLoads p .patterns) (loadPatterns (d.patterns.getD []) p.below 0)
      fun ids n _ => ids = heldNumbers (d.partLoads p .patterns) n
  | .repository => Lays (d.partLoads p .repository) (loadRepository (d.repository.getD []) p.below)
      fun ids n _ => ids.map Prod.snd = heldNumbers (d.partLoads p .repository) n
  | .captures map => Lays (d.partLoads p (.captures map))
      (loadCaptures (d.captureEntries map) (p.below ++ map.text) [])
      fun out n b => CaptureRules.Holds b.diagnostics.toList p map [] (d.captureEntries map) n out

/-- All parts of a definition at a place add the rules of their loads. -/
def PartsLay (d : RuleDefinition) (p : Place) : Prop := ∀ part, PartLays d p part

/-- What a rule has besides its repository, when the given parts of it take numbers from `n` on. -/
structure KindMakes (d : RuleDefinition) (p : Place) (diagnostics : List Diagnostic)
    (parts : List RulePart) (n : RuleId) (kind : RuleKind) : Prop where
  owned : ∀ m, m ∈ kind.patterns ++ kind.captureRules ↔
    m ∈ heldNumbers (parts.flatMap (d.partLoads p)) n
  slots : kind.slots.map (fun slot => RulePart.captures (d.mapFor slot.1)) =
    parts.filter RulePart.isCaptures
  entries : ∀ side slot, (side, slot) ∈ kind.slots → ∀ front key inner behind,
    d.captureEntries (d.mapFor side) = front ++ (key, inner) :: behind →
    EntryKept diagnostics (numbered (parts.flatMap (d.partLoads p)) n) p (d.mapFor side) slot key inner
      behind

section

variable {d : RuleDefinition} {p : Place} {diagnostics : List Diagnostic} {n : RuleId}

omit [Engine] in
/-- With nothing there before, the rules of a capture map are those whose numbers are held. -/
theorem CaptureRules.Holds.mem_iff {map : CaptureMap} {entries : List (String × RuleDefinition)}
    {out : CaptureRules} (h : Holds diagnostics p map [] entries n out) (m : RuleId) :
    m ∈ out.filterMap id ↔ m ∈ heldNumbers (captureLoads p map entries) n := by
  rw [h.held]
  simp [get?]

/-- A list of patterns besides the repository. -/
theorem kindMakes_patterns {contentName : Option ScopeName} {ids : List RuleId}
    (h : ids = heldNumbers (d.partLoads p .patterns) n) :
    KindMakes d p diagnostics [.patterns] n (.group ⟨ids, contentName⟩) where
  owned m := by
    rw [h]
    simp [RuleKind.patterns, RuleKind.captureRules]
  slots := rfl
  entries _ _ hslot := by cases hslot

/-- The rules for the groups of a single pattern. -/
theorem kindMakes_single (pattern : Pattern) {out : CaptureRules}
    (h : CaptureRules.Holds diagnostics p (d.mapFor .shared) []
      (d.captureEntries (d.mapFor .shared)) n out) :
    KindMakes d p diagnostics [.captures (d.mapFor .shared)] n (.single ⟨pattern, out⟩) where
  owned m := by
    rw [List.flatMap_singleton]
    exact h.mem_iff m
  slots := rfl
  entries side slot hslot front key inner behind heq := by
    cases List.mem_singleton.1 hslot
    rw [List.flatMap_singleton]
    exact h.entries front key inner behind heq

/-- The rules for the groups of the two patterns of a region, and a list of patterns. -/
theorem kindMakes_sides {kind : RuleKind} {first second : CaptureMap} {out out' : CaptureRules}
    (hslots : kind.slots = [(first, out), (second, out')])
    (hcaptures : kind.captureRules = out.filterMap id ++ out'.filterMap id)
    (hfirst : CaptureRules.Holds diagnostics p (d.mapFor first) []
      (d.captureEntries (d.mapFor first)) n out)
    (hsecond : CaptureRules.Holds diagnostics p (d.mapFor second) [] (d.captureEntries (d.mapFor second))
      (n + (orderOf (d.partLoads p (.captures (d.mapFor first)))).length) out')
    (hpatterns : kind.patterns = heldNumbers (d.partLoads p .patterns)
      (n + (orderOf (d.partLoads p (.captures (d.mapFor first)) ++
        d.partLoads p (.captures (d.mapFor second)))).length)) :
    KindMakes d p diagnostics [.captures (d.mapFor first), .captures (d.mapFor second), .patterns] n
      kind where
  owned m := by
    simp only [List.flatMap_cons, List.flatMap_nil, List.append_nil, heldNumbers_append, hcaptures,
      List.mem_append, hfirst.mem_iff, hsecond.mem_iff, hpatterns, orderOf_append, List.length_append,
      Nat.add_assoc]
    exact or_comm.trans or_assoc
  slots := by rw [hslots]; rfl
  entries side slot hslot front key inner behind heq := by
    rw [hslots] at hslot
    simp only [List.flatMap_cons, List.flatMap_nil, List.append_nil, numbered_append]
    rcases List.mem_pair.1 hslot with hslot | hslot
    · cases hslot
      exact (hfirst.entries front key inner behind heq).mono (List.subset_append_left _ _)
    · cases hslot
      refine (hsecond.entries front key inner behind heq).mono ?_
      exact List.subset_append_of_subset_right _ (List.subset_append_left _ _)

omit [Engine] in
theorem parts_rule {shape : Shape} (hshape : classify d.keys d.patterns.isSome = .ok shape) :
    (Load.mk .rule p d).parts = .repository :: (d.partsFor shape).tail := by
  show d.loadedParts .rule = _
  unfold RuleDefinition.loadedParts
  rw [hshape]
  cases shape <;> rfl

omit [Engine] in
/-- Within a rule its repository comes first, and then the other parts of its kind. -/
theorem inner_rule {shape : Shape} (hshape : classify d.keys d.patterns.isSome = .ok shape) :
    (Load.mk .rule p d).inner =
      d.partLoads p .repository ++ (d.partsFor shape).tail.flatMap (d.partLoads p) := by
  rw [Load.inner, parts_rule hshape, List.flatMap_cons]

omit [Engine] in
theorem inner_group :
    (Load.mk .group p d).inner = d.partLoads p .patterns ++ d.partLoads p .repository := by
  simp [Load.inner, Load.parts, RuleDefinition.loadedParts]

/-- A rule is as it should be if its repository and its kind are. -/
theorem KindMakes.makes {shape : Shape} {rule : Rule}
    (hshape : classify d.keys d.patterns.isSome = .ok shape) (hlocation : rule.location = p.text)
    (hentries : rule.repository.map Prod.snd = heldNumbers (d.partLoads p .repository) (n + 1))
    (h : KindMakes d p diagnostics (d.partsFor shape).tail
      (n + 1 + (orderOf (d.partLoads p .repository)).length) rule.kind) :
    (Load.mk .rule p d).Makes diagnostics n rule := by
  have hinner := inner_rule (p := p) hshape
  refine ⟨hlocation, fun m => ?_, ?_, ?_⟩
  · have howned := h.owned m
    rw [List.mem_append] at howned
    rw [hinner, heldNumbers_append, List.mem_append, ← howned, ← hentries, Rule.owned, List.mem_append,
      List.mem_append]
    exact or_right_comm.trans or_comm
  · rw [parts_rule hshape, h.slots]
    rfl
  · intro side slot hslot front key inner behind heq
    rw [hinner, numbered_append]
    exact (h.entries side slot hslot front key inner behind heq).mono (List.subset_append_right _ _)

/-- The rule for a capture group, and the rule that is the whole grammar. -/
theorem makes_group {rule : Rule} {ids : List RuleId} {contentName : Option ScopeName}
    (hkind : rule.kind = .group ⟨ids, contentName⟩) (hlocation : rule.location = p.text)
    (hpatterns : ids = heldNumbers (d.partLoads p .patterns) (n + 1))
    (hentries : rule.repository.map Prod.snd = heldNumbers (d.partLoads p .repository)
      (n + 1 + (orderOf (d.partLoads p .patterns)).length)) :
    (Load.mk .group p d).Makes diagnostics n rule := by
  refine ⟨hlocation, fun m => ?_, ?_, ?_⟩
  · rw [inner_group, heldNumbers_append, List.mem_append, ← hentries, ← hpatterns, Rule.owned, hkind]
    simp [RuleKind.patterns, RuleKind.captureRules]
  · rw [hkind]
    rfl
  · intro side slot hslot
    rw [hkind] at hslot
    cases hslot

end

namespace PartsLay

variable {d : RuleDefinition} {p : Place} (h : PartsLay d p)
include h

theorem patterns : Lays (d.partLoads p .patterns) (loadPatterns (d.patterns.getD []) p.below 0)
    fun ids n _ => ids = heldNumbers (d.partLoads p .patterns) n := h .patterns

theorem repository : Lays (d.partLoads p .repository) (loadRepository (d.repository.getD []) p.below)
    fun ids n _ => ids.map Prod.snd = heldNumbers (d.partLoads p .repository) n := h .repository

/-- The captures for one end lay the loads of the map that counts for it. -/
theorem side (side : CaptureMap) : Lays (d.partLoads p (.captures (d.mapFor side))) (loadSide d p side)
    fun out n b => CaptureRules.Holds b.diagnostics.toList p (d.mapFor side) []
      (d.captureEntries (d.mapFor side)) n out := h (.captures (d.mapFor side))

/-- What a rule has besides its repository. -/
theorem loadKind (shape : Shape) : Lays ((d.partsFor shape).tail.flatMap (d.partLoads p))
    (loadKind d p shape) fun out n b =>
      KindMakes d p b.diagnostics.toList (d.partsFor shape).tail n out.1 := by
  refine lays_of_leads fun base => ?_
  cases shape with
  | link reference =>
    refine leads_pure fun a ha => ha.weaken rfl fun b _ => ⟨fun m => ?_, rfl, fun _ _ hslot => ?_⟩
    · simp [RuleDefinition.partsFor, RuleKind.patterns, RuleKind.captureRules, heldNumbers, numbered]
    · cases hslot
  | group =>
    refine (h.patterns.leads base).bind fun rules => ?_
    refine leads_pure fun a ha => ha.weaken (by simp [RuleDefinition.partsFor]) ?_
    rintro b ⟨-, hrules⟩
    exact kindMakes_patterns hrules
  | single =>
    refine ((quiet_pattern _ _).leads base).bind fun pattern => ?_
    refine ((h.side .shared).leads base).bind fun captures => ?_
    refine leads_pure fun a ha => ha.weaken ?_ ?_
    · simp [RuleDefinition.partsFor, RuleDefinition.mapFor_shared]
    · rintro b ⟨-, hcaptures⟩
      have hkind := kindMakes_single pattern.1 hcaptures
      rw [RuleDefinition.mapFor_shared] at hkind
      exact hkind
  | region =>
    refine ((quiet_pattern _ _).leads base).bind fun opening => ?_
    refine ((quiet_endPattern _ _).leads base).bind fun closing => ?_
    refine ((h.side .opening).leads base).bind fun openingCaptures => ?_
    refine ((h.side .closing).leads base).bind fun closingCaptures => ?_
    refine ((quiet_scopeName _ _).leads base).bind fun contentName => ?_
    refine (h.patterns.leads base).bind fun rules => ?_
    refine leads_pure fun a ha => ha.weaken (by simp [RuleDefinition.partsFor]) ?_
    rintro b ⟨⟨⟨-, hopening⟩, hclosing⟩, hrules⟩
    exact kindMakes_sides rfl rfl hopening hclosing hrules
  | guarded =>
    refine ((quiet_pattern _ _).leads base).bind fun opening => ?_
    refine ((quiet_endPattern _ _).leads base).bind fun condition => ?_
    refine ((h.side .opening).leads base).bind fun openingCaptures => ?_
    refine ((h.side .condition).leads base).bind fun conditionCaptures => ?_
    refine ((quiet_scopeName _ _).leads base).bind fun contentName => ?_
    refine (h.patterns.leads base).bind fun rules => ?_
    refine leads_pure fun a ha => ha.weaken (by simp [RuleDefinition.partsFor]) ?_
    rintro b ⟨⟨⟨-, hopening⟩, hcondition⟩, hrules⟩
    exact kindMakes_sides rfl rfl hopening hcondition hrules

variable (hp : p ≠ [])
include hp

/-- **A rule is as it should be if its parts are.** It takes a number unless it is dropped. -/
theorem loadRule (held : Bool) : Lays [⟨⟨.rule, p, d⟩, held⟩] (loadRule d p.text)
    fun id n _ => id = if (Load.mk .rule p d).isKept then some n else none := by
  rw [loadRule_eq hp]
  cases hshape : classify d.keys d.patterns.isSome with
  | error kind =>
    have hdropped : (Load.mk .rule p d).isKept = false := by rw [Load.isKept, hshape]; rfl
    refine lays_of_leads fun base => ?_
    refine ((quiet_note _ _).leads base).bind fun _ => leads_pure fun a ha => ha.weaken ?_ ?_
    · rw [orderOf_cons, Load.order_of_dropped hdropped]
      rfl
    · intro b _
      rw [hdropped]
      rfl
  | ok shape =>
    have hkept : (Load.mk .rule p d).isKept = true := by rw [Load.isKept, hshape]; rfl
    refine lays_reserve fun base => ?_
    refine ((quiet_scopeName _ _).leads _).bind fun name => ?_
    refine (h.repository.leads _).bind fun entries => ?_
    refine ((h.loadKind shape).leads _).bind fun kind => ?_
    refine (leads_fill (i := ⟨⟨.rule, p, d⟩, held⟩) hkept (inner_rule hshape) rfl ?_).bind fun _ => ?_
    · rintro b ⟨⟨-, hentries⟩, hkind⟩
      rw [Array.size_push] at hentries hkind
      exact hkind.makes hshape rfl hentries
    · refine leads_pure fun a ha => ha.weaken rfl fun b _ => ?_
      rw [hkept]
      rfl

/-- The rule for a capture group takes a number in any case. -/
theorem loadCaptureRule (held : Bool) : Lays [⟨⟨.group, p, d⟩, held⟩] (loadCaptureRule d p.text)
    fun id n _ => id = n := by
  rw [loadCaptureRule_eq hp]
  refine lays_reserve fun base => ?_
  refine ((quiet_scopeName _ _).leads _).bind fun name => ?_
  refine ((quiet_scopeName _ _).leads _).bind fun contentName => ?_
  refine (h.patterns.leads _).bind fun rules => ?_
  refine (h.repository.leads _).bind fun entries => ?_
  refine (leads_fill (i := ⟨⟨.group, p, d⟩, held⟩) rfl inner_group rfl ?_).bind fun _ => ?_
  · rintro b ⟨⟨-, hrules⟩, hentries⟩
    rw [Array.size_push] at hrules hentries
    exact makes_group rfl rfl hrules hentries
  · exact leads_pure fun a ha => ha.weaken rfl fun b _ => rfl

end PartsLay

/-! ## The loader -/

omit [Engine] in
/-- A rule in front of a pattern list or repository, with its number if it takes one. -/
theorem heldNumbers_cons_held {i : InnerLoad} (hheld : i.held = true) (rest : List InnerLoad) (n : Nat) :
    heldNumbers (i :: rest) n = (if i.isKept then some n else none).toList ++
      heldNumbers rest (n + i.order.length) := by
  rw [heldNumbers_cons, hheld, Bool.and_true]
  cases i.isKept <;> rfl

mutual

/-- The parts of a definition add the rules of their loads wherever it stands. -/
theorem parts_lay : ∀ (d : RuleDefinition) (p : Place), PartsLay d p
  | ⟨_, captures, beginCaptures, endCaptures, whileCaptures, patterns, repository⟩, p, part =>
    match part with
    | .patterns => lays_patternList patterns p
    | .repository => lays_entries repository p
    | .captures .shared => lays_captureMap captures p .shared
    | .captures .opening => lays_captureMap beginCaptures p .opening
    | .captures .closing => lays_captureMap endCaptures p .closing
    | .captures .condition => lays_captureMap whileCaptures p .condition

theorem lays_patternList : ∀ (definitions : Option (List RuleDefinition)) (p : Place),
    Lays (patternLoads p 0 (definitions.getD [])) (loadPatterns (definitions.getD []) p.below 0)
      fun ids n _ => ids = heldNumbers (patternLoads p 0 (definitions.getD [])) n
  | none, p => lays_loadPatterns [] p 0
  | some rules, p => lays_loadPatterns rules p 0

theorem lays_entries : ∀ (definitions : Option (List (String × RuleDefinition))) (p : Place),
    Lays (entryLoads p (definitions.getD [])) (loadRepository (definitions.getD []) p.below)
      fun ids n _ => ids.map Prod.snd = heldNumbers (entryLoads p (definitions.getD [])) n
  | none, p => lays_loadRepository [] p
  | some entries, p => lays_loadRepository entries p

theorem lays_captureMap : ∀ (definitions : Option (List (String × RuleDefinition))) (p : Place)
    (map : CaptureMap), Lays (captureLoads p map (definitions.getD []))
      (loadCaptures (definitions.getD []) (p.below ++ map.text) [])
      fun out n b => CaptureRules.Holds b.diagnostics.toList p map [] (definitions.getD []) n out
  | none, p, map => lays_loadCaptures [] p map []
  | some entries, p, map => lays_loadCaptures entries p map []

/-- A pattern list lays its patterns and answers with the numbers of those that are kept. -/
theorem lays_loadPatterns : ∀ (rules : List RuleDefinition) (p : Place) (k : Nat),
    Lays (patternLoads p k rules) (loadPatterns rules p.below k)
      fun ids n _ => ids = heldNumbers (patternLoads p k rules) n
  | [], _, _ => fun a => (Laid.refl a).weaken rfl fun _ _ => rfl
  | rule :: rest, p, k => by
    rw [loadPatterns_cons]
    refine lays_of_leads fun base => ?_
    refine (((parts_lay rule (p ++ [.pattern k])).loadRule (by simp) true).leads base).bind fun id => ?_
    refine ((lays_loadPatterns rest p (k + 1)).leads base).bind fun ids => ?_
    refine leads_pure fun a ha => ha.weaken rfl ?_
    rintro b ⟨⟨-, hid⟩, hids⟩
    rw [hid, hids, patternLoads, heldNumbers_cons_held rfl]
    simp

/-- A repository lays its entries and answers with the numbers of those that are kept. -/
theorem lays_loadRepository : ∀ (entries : List (String × RuleDefinition)) (p : Place),
    Lays (entryLoads p entries) (loadRepository entries p.below)
      fun ids n _ => ids.map Prod.snd = heldNumbers (entryLoads p entries) n
  | [], _ => fun a => (Laid.refl a).weaken rfl fun _ _ => rfl
  | (key, rule) :: rest, p => by
    rw [loadRepository_cons]
    refine lays_of_leads fun base => ?_
    refine (((parts_lay rule (p ++ [.entry key])).loadRule (by simp) true).leads base).bind fun id => ?_
    refine ((lays_loadRepository rest p).leads base).bind fun ids => ?_
    refine leads_pure fun a ha => ha.weaken rfl ?_
    rintro b ⟨⟨-, hid⟩, hids⟩
    have hloads : entryLoads p ((key, rule) :: rest) =
        ⟨⟨.rule, p ++ [.entry key], rule⟩, true⟩ :: entryLoads p rest := rfl
    rw [List.map_append, hids, hid, hloads, heldNumbers_cons_held rfl]
    simp [Function.comp_def]

/-- A capture map lays the entries that name a group, and reports the others. -/
theorem lays_loadCaptures : ∀ (entries : List (String × RuleDefinition)) (p : Place)
    (map : CaptureMap) (rules : CaptureRules),
    Lays (captureLoads p map entries) (loadCaptures entries (p.below ++ map.text) rules)
      fun out n b => CaptureRules.Holds b.diagnostics.toList p map rules entries n out
  | [], p, map, rules => fun a => (Laid.refl a).weaken rfl fun _ _ => .nil _ p map rules _
  | (key, rule) :: rest, p, map, rules => by
    rw [loadCaptures_cons]
    refine lays_of_leads fun base => ?_
    split
    · rename_i hkey
      refine ((lays_note _ _).leads base).bind fun _ => ?_
      intro a ha
      refine ((lays_loadCaptures rest p map rules).leads base a ha).weaken ?_ ?_
      · rw [captureLoads_of_none hkey]
        rfl
      · rintro b ⟨⟨-, hnoted⟩, hrest⟩
        exact hrest.skip hkey hnoted
    · rename_i group hkey
      refine (((parts_lay rule (p ++ [.capture map key])).loadCaptureRule (by simp)
        (!namesGroup group rest)).leads base).bind fun id => ?_
      intro a ha
      refine ((lays_loadCaptures rest p map (rules.put group id)).leads base a ha).weaken ?_ ?_
      · rw [captureLoads_of_some hkey]
        rfl
      · rintro b ⟨⟨-, hid⟩, hrest⟩
        subst hid
        refine CaptureRules.Holds.put hkey ?_
        simpa using hrest

end

namespace GrammarDefinition

/-- A grammar's definition as what is loaded for it. -/
def whole (d : GrammarDefinition) : InnerLoad := ⟨⟨.group, [], d.top⟩, true⟩

/-- The rules that are made of a definition, in the order of their numbers. -/
def loadOrder (d : GrammarDefinition) : List Load := orderOf [d.whole]

end GrammarDefinition

namespace Grammar

/-- The first rule of a grammar is laid as a group around all others. -/
theorem lays_loadRoot (d : GrammarDefinition) (scope : Scope) :
    Lays [d.whole] (loadRoot d scope) fun _ _ _ => True := by
  have hparts := parts_lay d.top []
  refine lays_reserve fun base => ?_
  refine (hparts.patterns.leads _).bind fun rules => ?_
  refine (hparts.repository.leads _).bind fun entries => ?_
  refine leads_fill rfl inner_group rfl ?_
  rintro b ⟨⟨-, hrules⟩, hentries⟩
  rw [Array.size_push] at hrules hentries
  exact makes_group rfl rfl hrules hentries

/-- **The rules of a grammar are those that are made of its definition**, in the order in which they are
loaded. -/
theorem makes_of_loadOrder {d : GrammarDefinition} {g : Grammar} (hd : ofDefinition d = .ok g) :
    g.rules.size = d.loadOrder.length ∧ ∀ n l, d.loadOrder[n]? = some l →
      ∃ rule, g.rule? n = some rule ∧ l.Makes g.diagnostics n rule := by
  obtain ⟨scope, -, rfl⟩ := exists_scope_of_ofDefinition hd
  have hlaid := lays_loadRoot d scope Arena.empty
  have hempty : Arena.empty.rules.size = 0 := rfl
  obtain ⟨hstands, -⟩ := hlaid.stands _ ⟨fun _ _ _ => rfl, List.Subset.refl _⟩
  refine ⟨?_, fun n l hl => ?_⟩
  · have hsize := hlaid.size
    rwa [hempty, Nat.zero_add] at hsize
  · have hrule := hstands n l hl
    rwa [hempty, Nat.zero_add] at hrule

end Grammar

end Highlight
