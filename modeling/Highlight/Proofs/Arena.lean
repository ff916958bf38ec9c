import Highlight.Grammar
import Mathlib.Data.List.Perm.Subperm

/-!
# The rules of a loaded grammar

A rule takes its number before the rules in it are loaded, and only it gets to know their numbers. So
the rules of a grammar are a forest: each is owned at most once, by a rule with a smaller number. Two
capture keys for one group are why it can be owned by none.

The loader is followed as a program on the array of rules. `Pending` is what holds between any two of
its steps: the rules loaded since some point are a forest whose roots are the numbers that have not
been handed to an owner yet.

- `Rule.owned`: the numbers of the rules that a rule owns.
- `Forest`: rules numbered from a number on, with the roots that no rule among them owns.
- `Forest.append`, `Forest.cons`: how forests are put together.
- `Pending`, `Loading.Keeps`, `Loading.Grows`: what is said about the loader.
- `loadRule_grows` and the lemmas with it: what each part of the loader adds.
- `Grammar.forest_of_ofDefinition`: the rules of a grammar that loads.
-/

namespace Highlight

variable [Engine]

/-- The numbers of the rules that a rule owns. -/
def Rule.owned (r : Rule) : List RuleId :=
  r.kind.patterns ++ r.repository.map Prod.snd ++ r.kind.captureRules

/-- The walk goes on to the rules that a rule owns. -/
theorem Rule.map_children (r : Rule) : r.children.map Prod.fst = r.owned := by
  simp [children, owned, Function.comp_def]

/-- Rules that are numbered from a number on. Of their numbers, the roots and the numbers owned by the
rules among them are different ones; a rule has a smaller number than those that it owns; and the
rules for capture groups are groups. -/
structure Forest (start : Nat) (rules : List Rule) (roots : List RuleId) : Prop where
  distinct : (roots ++ rules.flatMap Rule.owned).Subperm (List.range' start rules.length)
  id_eq : ∀ {i : Nat} {rule : Rule}, rules[i]? = some rule → start + i = rule.id
  lt_owned : ∀ {i : Nat} {rule : Rule}, rules[i]? = some rule →
    ∀ id : Nat, id ∈ rule.owned → start + i < id
  captures : ∀ {i : Nat} {rule : Rule}, rules[i]? = some rule →
    ∀ id : Nat, id ∈ rule.kind.captureRules →
      ∃ other g, rules[id - start]? = some other ∧ other.kind = .group g

namespace Forest

variable {start : Nat} {rules more : List Rule} {roots others : List RuleId}

theorem nil (start : Nat) : Forest start [] [] where
  distinct := List.nil_subperm
  id_eq h := by simp at h
  lt_owned h := by simp at h
  captures h := by simp at h

/-- Roots can be left out. -/
theorem of_subperm (h : Forest start rules roots) (hroots : others.Subperm roots) :
    Forest start rules others :=
  { h with distinct := ((List.subperm_append_right _).2 hroots).trans h.distinct }

/-- Roots and owned rules are among the rules of the forest. -/
theorem mem_range (h : Forest start rules roots) {id : Nat}
    (hid : id ∈ roots ++ rules.flatMap Rule.owned) : start ≤ id ∧ id < start + rules.length := by
  have hmem := h.distinct.subset hid
  rw [List.mem_range'_1] at hmem
  exact hmem

theorem root_range (h : Forest start rules roots) {id : Nat} (hid : id ∈ roots) :
    start ≤ id ∧ id < start + rules.length :=
  h.mem_range (List.mem_append_left _ hid)

/-- What a rule of a forest owns is in the forest. -/
theorem owned_range (h : Forest start rules roots) {i : Nat} {rule : Rule}
    (hrule : rules[i]? = some rule) {id : Nat} (hid : id ∈ rule.owned) :
    start ≤ id ∧ id < start + rules.length :=
  h.mem_range (List.mem_append_right _
    (List.mem_flatMap.2 ⟨rule, List.mem_of_getElem? hrule, hid⟩))

/-- Forests one after the other are a forest. -/
theorem append (h : Forest start rules roots) (h' : Forest (start + rules.length) more others) :
    Forest start (rules ++ more) (roots ++ others) where
  distinct := by
    have hboth : List.Subperm
        ((roots ++ rules.flatMap Rule.owned) ++ (others ++ more.flatMap Rule.owned))
        (List.range' start rules.length ++ List.range' (start + rules.length) more.length) :=
      ((List.subperm_append_right _).2 h.distinct).trans
        ((List.subperm_append_left _).2 h'.distinct)
    rw [List.range'_append_1] at hboth
    rw [List.flatMap_append, List.length_append]
    refine List.Subperm.trans (List.Perm.subperm ?_) hboth
    -- the same four lists in another order
    rw [List.append_assoc, List.append_assoc]
    refine List.Perm.append_left roots ?_
    rw [← List.append_assoc, ← List.append_assoc]
    exact List.Perm.append_right _ List.perm_append_comm
  id_eq {i rule} hrule := by
    rcases Nat.lt_or_ge i rules.length with hlt | hle
    · rw [List.getElem?_append_left hlt] at hrule
      exact h.id_eq hrule
    · rw [List.getElem?_append_right hle] at hrule
      rw [← h'.id_eq hrule]
      omega
  lt_owned {i rule} hrule id hid := by
    rcases Nat.lt_or_ge i rules.length with hlt | hle
    · rw [List.getElem?_append_left hlt] at hrule
      exact h.lt_owned hrule id hid
    · rw [List.getElem?_append_right hle] at hrule
      have := h'.lt_owned hrule id hid
      omega
  captures {i rule} hrule id hid := by
    have howned : id ∈ rule.owned := List.mem_append_right _ hid
    rcases Nat.lt_or_ge i rules.length with hlt | hle
    · rw [List.getElem?_append_left hlt] at hrule
      obtain ⟨other, g, hother, hg⟩ := h.captures hrule id hid
      have hrange := h.owned_range hrule howned
      exact ⟨other, g, by rwa [List.getElem?_append_left (by omega)], hg⟩
    · rw [List.getElem?_append_right hle] at hrule
      obtain ⟨other, g, hother, hg⟩ := h'.captures hrule id hid
      have hrange := h'.owned_range hrule howned
      refine ⟨other, g, ?_, hg⟩
      rw [List.getElem?_append_right (by omega)]
      rwa [Nat.sub_add_eq] at hother

/-- A rule in front of a forest whose roots it owns. -/
theorem cons {rule : Rule} (h : Forest (start + 1) rules roots) (hid : start = rule.id)
    (howned : rule.owned.Subperm roots) (hcaptures : ∀ id : Nat, id ∈ rule.kind.captureRules →
      ∃ other g, rules[id - (start + 1)]? = some other ∧ other.kind = .group g) :
    Forest start (rule :: rules) [start] where
  distinct := by
    rw [List.flatMap_cons, List.length_cons, List.range'_succ, List.singleton_append,
      List.subperm_cons]
    exact ((List.subperm_append_right _).2 howned).trans h.distinct
  id_eq {i other} hother := by
    cases i with
    | zero =>
      cases hother
      exact hid
    | succ i =>
      rw [← h.id_eq hother]
      omega
  lt_owned {i other} hother id hid := by
    cases i with
    | zero =>
      cases hother
      exact (h.root_range (howned.subset hid)).1
    | succ i =>
      have := h.lt_owned hother id hid
      omega
  captures {i other} hother id hid := by
    have hshift : start + 1 ≤ id → ∀ found, rules[id - (start + 1)]? = some found →
        (rule :: rules)[id - start]? = some found := by
      intro hle found hfound
      have hsub : id - start = id - (start + 1) + 1 := by omega
      rwa [hsub, List.getElem?_cons_succ]
    cases i with
    | zero =>
      cases hother
      obtain ⟨found, g, hfound, hg⟩ := hcaptures id hid
      have hrange := h.root_range (howned.subset (List.mem_append_right _ hid))
      exact ⟨found, g, hshift hrange.1 found hfound, hg⟩
    | succ i =>
      obtain ⟨found, g, hfound, hg⟩ := h.captures hother id hid
      have hrange := h.owned_range hother (List.mem_append_right _ hid)
      exact ⟨found, g, hshift hrange.1 found hfound, hg⟩

end Forest

/-! ## Between two steps of the loader -/

/-- Since the loader had come to `base`, it has added a forest. The rules with the numbers given as
`captures` are groups. -/
def Pending (base : Array Rule) (roots captures : List RuleId) (rules : Array Rule) : Prop :=
  (∃ added : List Rule, rules.toList = base.toList ++ added ∧ Forest base.size added roots) ∧
    ∀ id : Nat, id ∈ captures → ∃ other g, rules[id]? = some other ∧ other.kind = .group g

namespace Pending

variable {base rules rules' : Array Rule} {roots roots' captures captures' : List RuleId}

theorem refl (base : Array Rule) : Pending base [] [] base :=
  ⟨⟨[], (List.append_nil _).symm, .nil base.size⟩, nofun⟩

/-- What was added in two turns was added in one, with the roots of both. -/
theorem trans (h : Pending base roots captures rules)
    (h' : Pending rules roots' captures' rules') :
    Pending base (roots ++ roots') (captures ++ captures') rules' := by
  obtain ⟨⟨added, hadded, hforest⟩, hcaptures⟩ := h
  obtain ⟨⟨more, hmore, hforest'⟩, hcaptures'⟩ := h'
  have hsize : rules.size = base.size + added.length := by
    rw [← Array.length_toList, hadded, List.length_append, Array.length_toList]
  rw [hsize] at hforest'
  refine ⟨⟨added ++ more, ?_, hforest.append hforest'⟩, fun id hid => ?_⟩
  · rw [hmore, hadded, List.append_assoc]
  · rcases List.mem_append.1 hid with hid | hid
    · obtain ⟨other, g, hother, hg⟩ := hcaptures id hid
      refine ⟨other, g, ?_, hg⟩
      obtain ⟨hlt, -⟩ := Array.getElem?_eq_some_iff.1 hother
      rw [← Array.getElem?_toList] at hother ⊢
      rw [hmore, List.getElem?_append_left (by simpa using hlt)]
      exact hother
    · exact hcaptures' id hid

/-- Roots and capture rules can be left out. -/
theorem weaken (h : Pending base roots captures rules) (hroots : roots'.Subperm roots)
    (hcaptures : captures' ⊆ captures) : Pending base roots' captures' rules := by
  obtain ⟨⟨added, hadded, hforest⟩, hgroups⟩ := h
  exact ⟨⟨added, hadded, hforest.of_subperm hroots⟩, fun id hid => hgroups id (hcaptures hid)⟩

/-- Filling the place that was reserved in front of a forest. -/
theorem fill {blank rule : Rule} (h : Pending (base.push blank) roots captures rules)
    (hid : base.size = rule.id) (howned : rule.owned.Subperm roots)
    (hcaptures : rule.kind.captureRules ⊆ captures) :
    Pending base [rule.id] [] (rules.setIfInBounds rule.id rule) := by
  obtain ⟨⟨added, hadded, hforest⟩, hgroups⟩ := h
  rw [Array.size_push] at hforest
  refine ⟨⟨rule :: added, ?_, ?_⟩, nofun⟩
  · rw [Array.toList_setIfInBounds, hadded, Array.toList_push, ← hid, List.append_assoc,
      ← Array.length_toList, List.set_append_right _ _ (Nat.le_refl _), Nat.sub_self]
    rfl
  · rw [← hid]
    refine hforest.cons hid howned fun id hmem => ?_
    obtain ⟨other, g, hother, hg⟩ := hgroups id (hcaptures hmem)
    refine ⟨other, g, ?_, hg⟩
    -- a rule for a capture group is a root, so it lies behind the reserved place
    have hrange := hforest.root_range (howned.subset (List.mem_append_right _ hmem))
    rw [← Array.getElem?_toList, hadded, List.getElem?_append_right (by simpa using hrange.1)]
      at hother
    simpa using hother

end Pending

namespace Loading

variable {α β : Type}

/-- A part of the loader that leads from arrays of rules with one property to those with another. -/
def Keeps (P : Array Rule → Prop) (m : Loading α) (Q : α → Array Rule → Prop) : Prop :=
  ∀ a : Arena, P a.rules → Q (m a).1 (m a).2.rules

/-- A part of the loader that adds a forest. -/
def Grows (m : Loading α) (roots captures : α → List RuleId) : Prop :=
  ∀ a : Arena, Pending a.rules (roots (m a).1) (captures (m a).1) (m a).2.rules

theorem keeps_pure {P : Array Rule → Prop} {Q : α → Array Rule → Prop} {x : α}
    (h : ∀ rules, P rules → Q x rules) : Keeps P (pure x) Q := fun a ha => h a.rules ha

/-- Two parts of the loader one after the other. -/
theorem Keeps.bind {P : Array Rule → Prop} {Q : α → Array Rule → Prop} {Q' : β → Array Rule → Prop}
    {m : Loading α} {f : α → Loading β} (h : Keeps P m Q) (h' : ∀ x, Keeps (Q x) (f x) Q') :
    Keeps P (m >>= f) Q' := fun a ha => h' _ _ (h a ha)

/-- A part that adds a forest can come behind others. -/
theorem Grows.keeps {m : Loading α} {roots captures : α → List RuleId}
    (h : Grows m roots captures) (base : Array Rule) (before known : List RuleId) :
    Keeps (Pending base before known) m
      fun x => Pending base (before ++ roots x) (known ++ captures x) :=
  fun a ha => ha.trans (h a)

/-- A part adds a forest if it leads from nothing added to a forest added. -/
theorem grows_of_keeps {m : Loading α} {roots captures : α → List RuleId}
    (h : ∀ base, Keeps (Pending base [] []) m fun x => Pending base (roots x) (captures x)) :
    Grows m roots captures := fun a => h a.rules a (Pending.refl a.rules)

variable {P : Array Rule → Prop}

theorem keeps_note (location : String) (kind : DiagnosticKind) :
    Keeps P (note location kind) fun _ => P := fun _ ha => ha

/-- Reading a scope adds diagnostics at most. -/
theorem keeps_scopeName (value : Option String) (location : String) :
    Keeps P (scopeName value location) fun _ => P := by
  unfold scopeName
  split
  · exact fun _ ha => ha
  · split
    · exact fun _ ha => ha
    · exact fun _ ha => ha

/-- Reading a pattern adds diagnostics at most. -/
theorem keeps_pattern (value : Option String) (location : String) :
    Keeps P (pattern value location) fun _ => P := by
  unfold pattern
  simp only
  split
  · exact fun _ ha => ha
  · exact fun _ ha => ha

theorem keeps_endPattern (value : Option String) (location : String) :
    Keeps P (endPattern value location) fun _ => P := by
  unfold endPattern
  simp only
  split
  · exact fun _ ha => ha
  · split
    · exact fun _ ha => ha
    · exact fun _ ha => ha

/-- What follows on a reserved number adds a forest if it does so behind the reserved place. -/
theorem grows_reserve {location : String} {f : RuleId → Loading α} {roots captures : α → List RuleId}
    (h : ∀ base : Array Rule, Keeps (Pending (base.push (Arena.blank base.size location)) [] [])
      (f base.size) fun x => Pending base (roots x) (captures x)) :
    Grows (reserve location >>= f) roots captures :=
  fun a => h a.rules ⟨a.rules.push _, a.diagnostics⟩ (Pending.refl _)

/-- A rule that is filled in takes its place in front of the rules that it owns. -/
theorem keeps_fill {base : Array Rule} {blank rule : Rule} {roots captures : List RuleId}
    (hid : base.size = rule.id) (howned : rule.owned.Subperm roots)
    (hcaptures : rule.kind.captureRules ⊆ captures) :
    Keeps (Pending (base.push blank) roots captures) (fill rule)
      fun _ => Pending base [rule.id] [] := fun _ ha => ha.fill hid howned hcaptures

/-- A rule for a capture group is filled in as a group. -/
theorem keeps_fillGroup {base : Array Rule} {blank rule : Rule} {g : Group}
    {roots captures : List RuleId} (hid : base.size = rule.id) (howned : rule.owned.Subperm roots)
    (hkind : rule.kind = .group g) :
    Keeps (Pending (base.push blank) roots captures) (fill rule)
      fun _ => Pending base [rule.id] [rule.id] := by
  intro a ha
  have hnone : rule.kind.captureRules ⊆ captures := by
    rw [hkind]
    exact List.nil_subset captures
  refine ⟨(ha.fill hid howned hnone).1, fun id hmem => ?_⟩
  obtain ⟨added, hadded, -⟩ := ha.1
  have hlt : base.size < a.rules.size := by
    have hsize := congrArg List.length hadded
    rw [List.length_append, Array.length_toList, Array.length_toList, Array.size_push] at hsize
    omega
  rw [hid] at hlt
  rw [List.mem_singleton] at hmem
  subst hmem
  exact ⟨rule, g, Array.getElem?_setIfInBounds_self_of_lt hlt, hkind⟩

end Loading

/-! ## The loader -/

open Loading

omit [Engine] in
/-- A rule that is put at a group may take the place of another one, which is owned by none then. -/
theorem CaptureRules.subperm_put (rules : CaptureRules) (group : Nat) (rule : RuleId) :
    ((rules.put group rule).filterMap id).Subperm (rules.filterMap id ++ [rule]) := by
  have hset : ∀ (rules : CaptureRules) (group : Nat),
      ((rules.set group (some rule)).filterMap id).Subperm (rules.filterMap id ++ [rule]) := by
    intro rules
    induction rules with
    | nil => exact fun _ => List.nil_subperm
    | cons first rest ih =>
      intro group
      cases group with
      | zero =>
        rw [List.set_cons_zero,
          show (some rule :: rest).filterMap id = rule :: rest.filterMap id from rfl]
        refine (List.perm_append_singleton rule _).symm.subperm.trans ?_
        refine (List.subperm_append_right _).2 ?_
        cases first with
        | none => exact List.Subperm.refl _
        | some old => exact List.Subperm.cons_self
      | succ group =>
        rw [List.set_cons_succ]
        cases first with
        | none => exact ih group
        | some old => exact (List.subperm_cons old).2 (ih group)
  have hpadded : (rules ++ List.replicate (group + 1 - rules.length) none).filterMap id
      = rules.filterMap id := by
    simp [List.filterMap_append]
  unfold put
  rw [← hpadded]
  exact hset _ group

omit [Engine] in
theorem CaptureRules.put_subset (rules : CaptureRules) (group : Nat) (rule : RuleId) :
    (rules.put group rule).filterMap id ⊆ rules.filterMap id ++ [rule] :=
  (rules.subperm_put group rule).subset

/-- The captures for one end of a region, or else those for both. -/
theorem keeps_ownOrShared {own shared : Option (List (String × RuleDefinition))}
    (hown : ∀ location, Grows (loadCaptureMap own location) (List.filterMap id)
      (List.filterMap id))
    (hshared : ∀ location, Grows (loadCaptureMap shared location) (List.filterMap id)
      (List.filterMap id)) (ownLocation sharedLocation : String) (base : Array Rule)
    (before known : List RuleId) :
    Keeps (Pending base before known)
      (if own.isSome then loadCaptureMap own ownLocation else loadCaptureMap shared sharedLocation)
      fun rules => Pending base (before ++ rules.filterMap id) (known ++ rules.filterMap id) := by
  split
  · exact (hown ownLocation).keeps base before known
  · exact (hshared sharedLocation).keeps base before known

omit [Engine] in
/-- The loader meets a rule's repository first, then its captures, then its patterns. -/
theorem subperm_owned (entries opening closing patterns : List RuleId) :
    (entries ++ (patterns ++ (opening ++ closing))).Subperm
      (((entries ++ opening) ++ closing) ++ patterns) := by
  rw [List.append_assoc entries, List.append_assoc]
  exact (List.Perm.append_left entries List.perm_append_comm).subperm

mutual

/-- Loading a rule adds a forest with the rule as its only root, or nothing. -/
theorem loadRule_grows : ∀ (definition : RuleDefinition) (location : String),
    Grows (loadRule definition location) Option.toList fun _ => []
  | ⟨keys, captures, beginCaptures, endCaptures, whileCaptures, patterns, repository⟩, location => by
    rw [loadRule]
    split
    · intro a
      exact Pending.refl a.rules
    · rename_i shape _
      refine grows_reserve fun base => ?_
      refine (keeps_scopeName keys.name location).bind fun name => ?_
      refine ((loadEntries_grows repository location).keeps _ [] []).bind fun entries => ?_
      -- what the kind of the rule needs is loaded behind the repository
      refine Keeps.bind (Q := fun p => Pending (base.push (Arena.blank base.size location))
        (entries.map Prod.snd ++ (p.1.patterns ++ p.1.captureRules)) p.1.captureRules) ?_ ?_
      · split
        · refine keeps_pure fun _ h => h.weaken ?_ (List.Subset.refl _)
          simp [RuleKind.patterns, RuleKind.captureRules, List.Subperm.refl]
        · refine ((loadPatternList_grows patterns location).keeps _ _ []).bind fun rules => ?_
          refine keeps_pure fun _ h => h.weaken ?_ (List.Subset.refl _)
          simp [RuleKind.patterns, RuleKind.captureRules, List.Subperm.refl]
        · refine (keeps_pattern keys.matchText location).bind fun pattern => ?_
          refine ((loadCaptureMap_grows captures _).keeps _ _ []).bind fun rules => ?_
          exact keeps_pure fun _ h => h
        · refine (keeps_pattern keys.beginText location).bind fun opening => ?_
          refine (keeps_endPattern keys.endText location).bind fun closing => ?_
          refine (keeps_ownOrShared (loadCaptureMap_grows beginCaptures)
            (loadCaptureMap_grows captures) _ _ _ _ []).bind fun openingCaptures => ?_
          refine (keeps_ownOrShared (loadCaptureMap_grows endCaptures)
            (loadCaptureMap_grows captures) _ _ _ _ _).bind fun closingCaptures => ?_
          refine (keeps_scopeName keys.contentName location).bind fun contentName => ?_
          refine ((loadPatternList_grows patterns location).keeps _ _ _).bind fun rules => ?_
          refine keeps_pure fun _ h => h.weaken ?_ (List.subset_append_left _ _)
          exact subperm_owned (entries.map Prod.snd) _ _ rules
        · refine (keeps_pattern keys.beginText location).bind fun opening => ?_
          refine (keeps_endPattern keys.whileText location).bind fun condition => ?_
          refine (keeps_ownOrShared (loadCaptureMap_grows beginCaptures)
            (loadCaptureMap_grows captures) _ _ _ _ []).bind fun openingCaptures => ?_
          refine (keeps_ownOrShared (loadCaptureMap_grows whileCaptures)
            (loadCaptureMap_grows captures) _ _ _ _ _).bind fun conditionCaptures => ?_
          refine (keeps_scopeName keys.contentName location).bind fun contentName => ?_
          refine ((loadPatternList_grows patterns location).keeps _ _ _).bind fun rules => ?_
          refine keeps_pure fun _ h => h.weaken ?_ (List.subset_append_left _ _)
          exact subperm_owned (entries.map Prod.snd) _ _ rules
      · rintro ⟨kind, usable⟩
        refine Keeps.bind (Q := fun _ => Pending base [base.size] []) ?_
          fun _ => keeps_pure fun _ h => h
        refine keeps_fill rfl ?_ (List.Subset.refl _)
        -- the owned numbers begin with those of the patterns
        show (kind.patterns ++ entries.map Prod.snd ++ kind.captureRules).Subperm _
        rw [← List.append_assoc]
        exact (List.Perm.append_right _ List.perm_append_comm).subperm

/-- A rule for a capture group is always loaded, as a group. -/
theorem loadCaptureRule_grows : ∀ (definition : RuleDefinition) (location : String),
    Grows (loadCaptureRule definition location) (fun id => [id]) fun id => [id]
  | ⟨keys, captures, beginCaptures, endCaptures, whileCaptures, patterns, repository⟩, location => by
    rw [loadCaptureRule]
    refine grows_reserve fun base => ?_
    refine (keeps_scopeName keys.name location).bind fun name => ?_
    refine (keeps_scopeName keys.contentName location).bind fun contentName => ?_
    refine ((loadPatternList_grows patterns location).keeps _ [] []).bind fun rules => ?_
    refine ((loadEntries_grows repository location).keeps _ _ _).bind fun entries => ?_
    refine Keeps.bind (Q := fun _ => Pending base [base.size] [base.size]) ?_
      fun _ => keeps_pure fun _ h => h
    refine keeps_fillGroup rfl ?_ rfl
    simp [Rule.owned, RuleKind.patterns, RuleKind.captureRules, List.Subperm.refl]

/-- The patterns of a list are all handed to the rule with the list. -/
theorem loadPatternList_grows : ∀ (definitions : Option (List RuleDefinition)) (location : String),
    Grows (loadPatternList definitions location) (fun ids => ids) fun _ => []
  | none, _ => fun a => Pending.refl a.rules
  | some rules, _ => loadPatterns_grows rules _ 0

/-- The entries of a repository are all handed to the rule with the repository. -/
theorem loadEntries_grows : ∀ (definitions : Option (List (String × RuleDefinition)))
    (location : String), Grows (loadEntries definitions location) (List.map Prod.snd) fun _ => []
  | none, _ => fun a => Pending.refl a.rules
  | some entries, _ => loadRepository_grows entries _

/-- Of a capture map those that stand at a group in the end are handed on. -/
theorem loadCaptureMap_grows : ∀ (definitions : Option (List (String × RuleDefinition)))
    (location : String), Grows (loadCaptureMap definitions location) (List.filterMap id)
      (List.filterMap id)
  | none, _ => fun a => Pending.refl a.rules
  | some entries, location => fun a =>
    loadCaptures_keeps entries location [] a.rules [] [] a (Pending.refl a.rules)

theorem loadPatterns_grows : ∀ (definitions : List RuleDefinition) (location : String)
    (number : Nat), Grows (loadPatterns definitions location number) (fun ids => ids) fun _ => []
  | [], _, _ => fun a => Pending.refl a.rules
  | rule :: rest, location, number => by
    rw [loadPatterns]
    refine grows_of_keeps fun base => ?_
    refine ((loadRule_grows rule _).keeps base [] []).bind fun id => ?_
    refine ((loadPatterns_grows rest _ _).keeps base _ _).bind fun ids => ?_
    exact keeps_pure fun _ h => h

theorem loadRepository_grows : ∀ (definitions : List (String × RuleDefinition)) (location : String),
    Grows (loadRepository definitions location) (List.map Prod.snd) fun _ => []
  | [], _ => fun a => Pending.refl a.rules
  | (key, rule) :: rest, location => by
    rw [loadRepository]
    refine grows_of_keeps fun base => ?_
    refine ((loadRule_grows rule _).keeps base [] []).bind fun id => ?_
    refine ((loadRepository_grows rest _).keeps base _ _).bind fun ids => ?_
    split
    · exact keeps_pure fun _ h => h
    · exact keeps_pure fun _ h => h

/-- Going through a capture map with some rules at their groups already. -/
theorem loadCaptures_keeps : ∀ (definitions : List (String × RuleDefinition)) (location : String)
    (rules : CaptureRules) (base : Array Rule) (before known : List RuleId),
    Keeps (Pending base (before ++ rules.filterMap id) (known ++ rules.filterMap id))
      (loadCaptures definitions location rules)
      fun out => Pending base (before ++ out.filterMap id) (known ++ out.filterMap id)
  | [], _, _, _, _, _ => keeps_pure fun _ h => h
  | (key, rule) :: rest, location, rules, base, before, known => by
    rw [loadCaptures]
    split
    · exact (keeps_note _ _).bind fun _ => loadCaptures_keeps rest location rules base before known
    · rename_i group _
      refine ((loadCaptureRule_grows rule _).keeps base _ _).bind fun id => ?_
      intro a ha
      refine loadCaptures_keeps rest location (rules.put group id) base before known a ?_
      refine ha.weaken ?_ ?_
      · rw [List.append_assoc]
        exact (List.subperm_append_left _).2 (rules.subperm_put group id)
      · rw [List.append_assoc]
        exact List.append_subset.2 ⟨List.subset_append_left _ _,
          List.subset_append_of_subset_right _ (rules.put_subset group id)⟩

end

namespace Grammar

/-- The rules of a grammar are a forest in which nothing but the first rule is a root. The first rule
is a group. -/
theorem forest_ofScoped (d : GrammarDefinition) (scope : Scope) :
    Forest 0 (ofScoped d scope).rules.toList [rootRule] ∧
      ∃ rule g, (ofScoped d scope).rule? rootRule = some rule ∧ rule.kind = .group g := by
  -- the first rule is reserved in front of all others and filled in at the end
  have hroot : Keeps (Pending (#[].push (Arena.blank 0 "")) [] []) (do
      let rules ← loadPatterns d.patterns "" 0
      let entries ← loadRepository d.repository ""
      fill ⟨0, "", none, some (.ofScope scope), entries, false, .group ⟨rules, none⟩⟩)
      fun _ => Pending #[] [rootRule] [rootRule] := by
    refine ((loadPatterns_grows d.patterns "" 0).keeps _ [] []).bind fun rules => ?_
    refine ((loadRepository_grows d.repository "").keeps _ _ _).bind fun entries => ?_
    refine keeps_fillGroup rfl ?_ rfl
    simp [Rule.owned, RuleKind.patterns, RuleKind.captureRules, List.Subperm.refl]
  obtain ⟨⟨added, hadded, hforest⟩, hgroup⟩ :=
    hroot ⟨#[].push (Arena.blank 0 ""), #[]⟩ (Pending.refl _)
  have hrules : (ofScoped d scope).rules.toList = added := hadded
  rw [hrules]
  exact ⟨hforest, hgroup rootRule List.mem_cons_self⟩

/-- A grammar that loads was loaded with a scope that has no placeholders. -/
theorem exists_scope_of_ofDefinition {d : GrammarDefinition} {g : Grammar}
    (h : ofDefinition d = .ok g) :
    ∃ scope : Scope, scope.hasCaptures = false ∧ g = ofScoped d scope := by
  unfold ofDefinition at h
  split at h
  · cases h
  · split at h
    · cases h
    · rename_i scope _
      split at h
      · cases h
      · rename_i hcaptures
        cases h
        exact ⟨scope, Bool.eq_false_iff.2 hcaptures, rfl⟩

/-- **The rules of a grammar that loads are a forest** with the first rule as its root. -/
theorem forest_of_ofDefinition {d : GrammarDefinition} {g : Grammar}
    (h : ofDefinition d = .ok g) : Forest 0 g.rules.toList [rootRule] := by
  obtain ⟨scope, -, rfl⟩ := exists_scope_of_ofDefinition h
  exact (forest_ofScoped d scope).1

theorem root_of_ofDefinition {d : GrammarDefinition} {g : Grammar} (h : ofDefinition d = .ok g) :
    ∃ rule group, g.rule? rootRule = some rule ∧ rule.kind = .group group := by
  obtain ⟨scope, -, rfl⟩ := exists_scope_of_ofDefinition h
  exact (forest_ofScoped d scope).2

/-- The name of a grammar's first rule is the grammar's scope. -/
theorem name_root_of_ofDefinition {d : GrammarDefinition} {g : Grammar} (h : ofDefinition d = .ok g)
    {rule : Rule} (hrule : g.rule? rootRule = some rule) :
    rule.name = some (.ofScope g.scopeName) := by
  obtain ⟨scope, -, rfl⟩ := exists_scope_of_ofDefinition h
  -- loading ends with filling in the first rule
  have hfilled : ∃ (rules : Array Rule) (root : Rule),
      (ofScoped d scope).rules = rules.setIfInBounds 0 root ∧ root.name = some (.ofScope scope) :=
    ⟨_, _, rfl, rfl⟩
  obtain ⟨rules, root, hrules, hname⟩ := hfilled
  rw [rule?, hrules, rootRule, Array.getElem?_setIfInBounds_self] at hrule
  split at hrule
  · cases hrule
    exact hname
  · cases hrule

/-- The scope of a grammar has no placeholders. -/
theorem hasCaptures_of_ofDefinition {d : GrammarDefinition} {g : Grammar}
    (h : ofDefinition d = .ok g) : g.scopeName.hasCaptures = false := by
  obtain ⟨scope, hcaptures, rfl⟩ := exists_scope_of_ofDefinition h
  exact hcaptures

end Grammar

end Highlight
