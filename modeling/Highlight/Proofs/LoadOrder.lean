import Highlight.Proofs.LoadedAlike
import Mathlib.Data.List.Perm.Basic

/-!
# The order in which rules are loaded

Loading goes through a definition from the outside to the inside and gives each rule the next number as
it comes to it. So the rules of a grammar are those that are kept of its definition, one behind the other,
and the number of a rule is its position among them. Nearly every number ends up with the rule around it:
only a number for a capture group is forgotten when a later key of the same map names the group again.

- `Load`, `Load.order`: what is loaded, and the order in which all that is in it gets its numbers.
- `InnerLoad`, `Load.inner`: what is loaded right within a rule, and whether its number is held there.
- `numbered`: loads one behind the other with the numbers that they take.
- `getElem?_of_numbered`, `getElem?_orderOf_inner`: a number is a position.
- `Edge`, `perm_edgesOf`: each number is taken once, by a load that stands in one place.
-/

namespace Highlight

/-- A rule that the loader comes to: what it is loaded as, where it stands and what it is. -/
structure Load where
  loadedAs : LoadedAs
  place : Place
  definition : RuleDefinition

/-- A rule that the loader comes to within another one. -/
structure InnerLoad extends Load where
  /-- Whether the rule around it holds its number, if it takes one. -/
  held : Bool

/-- Whether a key of a capture map names a group. -/
def namesGroup (group : Nat) (entries : List (String × RuleDefinition)) : Bool :=
  entries.any fun e => captureGroup? e.1 == some group

/-- The rules of a pattern list that begins with the given number. -/
def patternLoads (p : Place) : Nat → List RuleDefinition → List InnerLoad
  | _, [] => []
  | n, rule :: rest => ⟨⟨.rule, p ++ [.pattern n], rule⟩, true⟩ :: patternLoads p (n + 1) rest

/-- The rules of a repository. -/
def entryLoads (p : Place) (entries : List (String × RuleDefinition)) : List InnerLoad :=
  entries.map fun e => ⟨⟨.rule, p ++ [.entry e.1], e.2⟩, true⟩

/-- The rules of a capture map. Those whose keys name no group are skipped, and a rule gives way to a later
one for the same group. -/
def captureLoads (p : Place) (map : CaptureMap) : List (String × RuleDefinition) → List InnerLoad
  | [] => []
  | (key, rule) :: rest =>
    match captureGroup? key with
    | none => captureLoads p map rest
    | some group =>
      ⟨⟨.group, p ++ [.capture map key], rule⟩, !namesGroup group rest⟩ :: captureLoads p map rest

theorem namesGroup_cons (group : Nat) (key : String) (rule : RuleDefinition)
    (rest : List (String × RuleDefinition)) :
    namesGroup group ((key, rule) :: rest) =
      (captureGroup? key == some group || namesGroup group rest) := rfl

/-- An entry whose key names no group is not loaded. -/
theorem captureLoads_of_none {key : String} (h : captureGroup? key = none) (p : Place) (map : CaptureMap)
    (rule : RuleDefinition) (rest : List (String × RuleDefinition)) :
    captureLoads p map ((key, rule) :: rest) = captureLoads p map rest := by
  rw [captureLoads, h]

/-- The number for an entry is held unless a later entry is for the same group. -/
theorem captureLoads_of_some {key : String} {group : Nat} (h : captureGroup? key = some group) (p : Place)
    (map : CaptureMap) (rule : RuleDefinition) (rest : List (String × RuleDefinition)) :
    captureLoads p map ((key, rule) :: rest) =
      ⟨⟨.group, p ++ [.capture map key], rule⟩, !namesGroup group rest⟩ :: captureLoads p map rest := by
  rw [captureLoads, h]

namespace RuleDefinition

/-- The entries of a capture map of a definition, none if the definition has no such map. -/
def captureEntries (d : RuleDefinition) (map : CaptureMap) : List (String × RuleDefinition) :=
  (d.captureMap map).getD []

/-- What is loaded of a part of the definition that stands at a place. -/
def partLoads (d : RuleDefinition) (p : Place) : RulePart → List InnerLoad
  | .patterns => patternLoads p 0 (d.patterns.getD [])
  | .repository => entryLoads p (d.repository.getD [])
  | .captures map => captureLoads p map (d.captureEntries map)

end RuleDefinition

namespace Load

/-- Whether a rule is made. A rule with the keys of no kind of rules is dropped. -/
def isKept (l : Load) : Bool :=
  match l.loadedAs with
  | .group => true
  | .rule => (classify l.definition.keys l.definition.patterns.isSome).isOk

/-- The parts of a rule that are loaded, in their order. -/
def parts (l : Load) : List RulePart := l.definition.loadedParts l.loadedAs

/-- What is loaded right within a rule. -/
def inner (l : Load) : List InnerLoad := l.parts.flatMap (l.definition.partLoads l.place)

end Load

/-! ## All that is loaded -/

theorem definition_of_mem_patternLoads {p : Place} {n : Nat} {rules : List RuleDefinition}
    {i : InnerLoad} (h : i ∈ patternLoads p n rules) : i.definition ∈ rules := by
  induction rules generalizing n with
  | nil => cases h
  | cons rule rest ih =>
    rcases List.mem_cons.1 h with rfl | h
    · exact List.mem_cons_self
    · exact List.mem_cons_of_mem _ (ih h)

theorem definition_of_mem_entryLoads {p : Place} {entries : List (String × RuleDefinition)}
    {i : InnerLoad} (h : i ∈ entryLoads p entries) : ∃ e ∈ entries, i.definition = e.2 := by
  obtain ⟨e, he, rfl⟩ := List.mem_map.1 h
  exact ⟨e, he, rfl⟩

/-- What is loaded of a capture map is what its entries hold. -/
theorem definition_of_mem_captureLoads {p : Place} {map : CaptureMap}
    {entries : List (String × RuleDefinition)} {i : InnerLoad}
    (h : i ∈ captureLoads p map entries) : ∃ e ∈ entries, i.definition = e.2 := by
  induction entries with
  | nil => cases h
  | cons e rest ih =>
    obtain ⟨key, rule⟩ := e
    rw [captureLoads] at h
    split at h
    · obtain ⟨e, he, heq⟩ := ih h
      exact ⟨e, List.mem_cons_of_mem _ he, heq⟩
    · rcases List.mem_cons.1 h with rfl | h
      · exact ⟨_, List.mem_cons_self, rfl⟩
      · obtain ⟨e, he, heq⟩ := ih h
        exact ⟨e, List.mem_cons_of_mem _ he, heq⟩

namespace RuleDefinition

variable {d : RuleDefinition}

/-- A pattern is smaller than the rule that it is in. -/
theorem sizeOf_lt_of_mem_patterns {rule : RuleDefinition} (h : rule ∈ d.patterns.getD []) :
    sizeOf rule < sizeOf d := by
  obtain ⟨keys, captures, beginCaptures, endCaptures, whileCaptures, patterns, repository⟩ := d
  cases patterns with
  | none => cases h
  | some rules =>
    have hlt := List.sizeOf_lt_of_mem (show rule ∈ rules from h)
    simp only [RuleDefinition.mk.sizeOf_spec, Option.some.sizeOf_spec]
    omega

/-- An entry of a map is smaller than the rule that the map is in. -/
theorem sizeOf_lt_of_mem_maps {entries : Entries RuleDefinition} (hentries : entries ∈ d.maps)
    {e : String × RuleDefinition} (h : e ∈ entries) : sizeOf e.2 < sizeOf d := by
  have hentry : sizeOf e < sizeOf entries := List.sizeOf_lt_of_mem h
  have hrule : sizeOf e.2 < sizeOf e := by
    obtain ⟨key, rule⟩ := e
    simp only [Prod.mk.sizeOf_spec]
    omega
  have hmap : sizeOf entries < sizeOf d := by
    obtain ⟨keys, captures, beginCaptures, endCaptures, whileCaptures, patterns, repository⟩ := d
    simp only [maps, List.mem_append, Option.mem_toList] at hentries
    rcases hentries with (((rfl | rfl) | rfl) | rfl) | rfl <;>
      simp only [RuleDefinition.mk.sizeOf_spec, Option.some.sizeOf_spec] <;> omega
  omega

theorem mem_maps_of_captureMap {map : CaptureMap} {entries : Entries RuleDefinition}
    (h : d.captureMap map = some entries) : entries ∈ d.maps := by
  cases map <;> simp only [captureMap] at h <;> simp [maps, h]

theorem mem_maps_of_repository {entries : Entries RuleDefinition}
    (h : d.repository = some entries) : entries ∈ d.maps := by
  simp [maps, h]

end RuleDefinition

namespace Load

/-- What is loaded within a rule is smaller. -/
theorem sizeOf_lt_of_mem_inner {l : Load} {i : InnerLoad} (h : i ∈ l.inner) :
    sizeOf i.definition < sizeOf l.definition := by
  have hmap : ∀ {map : Option (Entries RuleDefinition)} {e : String × RuleDefinition},
      (∀ entries, map = some entries → entries ∈ l.definition.maps) → e ∈ map.getD [] →
      sizeOf e.2 < sizeOf l.definition := by
    intro map e hmaps he
    cases map with
    | none => cases he
    | some entries => exact RuleDefinition.sizeOf_lt_of_mem_maps (hmaps entries rfl) he
  obtain ⟨part, -, hi⟩ := List.mem_flatMap.1 h
  cases part with
  | patterns =>
    exact RuleDefinition.sizeOf_lt_of_mem_patterns (definition_of_mem_patternLoads hi)
  | repository =>
    obtain ⟨e, he, heq⟩ := definition_of_mem_entryLoads hi
    rw [heq]
    exact hmap (fun _ => RuleDefinition.mem_maps_of_repository) he
  | captures map =>
    obtain ⟨e, he, heq⟩ := definition_of_mem_captureLoads hi
    rw [heq]
    exact hmap (fun _ => RuleDefinition.mem_maps_of_captureMap) he

/-- The rules that are made of a rule and of all that is in it, in the order of their numbers. -/
def order (l : Load) : List Load :=
  if l.isKept then l :: l.inner.attach.flatMap fun i => i.1.toLoad.order else []
termination_by sizeOf l.definition
decreasing_by exact sizeOf_lt_of_mem_inner i.2

end Load

/-- The rules that are made of several loads, one behind the other. -/
def orderOf (loads : List InnerLoad) : List Load := loads.flatMap fun i => i.order

namespace Load

variable {l : Load}

/-- A rule comes in front of all that is made of what is in it. -/
theorem order_of_kept (h : l.isKept = true) : l.order = l :: orderOf l.inner := by
  have hinner := List.flatMap_map Subtype.val (fun i : InnerLoad => i.order) l.inner.attach
  rw [List.attach_map_subtype_val] at hinner
  rw [order, if_pos h, ← hinner]
  rfl

/-- Nothing is made of what is in a rule that is dropped. -/
theorem order_of_dropped (h : l.isKept = false) : l.order = [] := by
  rw [order, if_neg (by simp [h])]

end Load

@[simp] theorem orderOf_nil : orderOf [] = [] := rfl

@[simp] theorem orderOf_cons (i : InnerLoad) (rest : List InnerLoad) :
    orderOf (i :: rest) = i.order ++ orderOf rest := List.flatMap_cons

@[simp] theorem orderOf_append (loads more : List InnerLoad) :
    orderOf (loads ++ more) = orderOf loads ++ orderOf more := List.flatMap_append

/-- Induction on all that is loaded: what holds of nothing, of loads behind one that is dropped, and of
loads behind one that is kept if it holds of what is loaded within that, holds of all loads. -/
theorem loads_induction {P : List InnerLoad → Prop} (nil : P [])
    (dropped : ∀ i rest, i.isKept = false → P rest → P (i :: rest))
    (kept : ∀ i rest, i.isKept = true → P i.inner → P rest → P (i :: rest))
    (loads : List InnerLoad) : P loads := by
  have hbounded : ∀ (n : Nat) (loads : List InnerLoad), (orderOf loads).length ≤ n → P loads := by
    intro n
    induction n using Nat.strong_induction_on with
    | _ n ih =>
      intro loads
      induction loads with
      | nil => exact fun _ => nil
      | cons i rest ihrest =>
        intro hlength
        rw [orderOf_cons, List.length_append] at hlength
        have hrest : P rest := ihrest (by omega)
        cases hkept : i.isKept with
        | false => exact dropped i rest hkept hrest
        | true =>
          -- the rule itself takes a number, so fewer are left for what is in it
          rw [Load.order_of_kept hkept, List.length_cons] at hlength
          exact kept i rest hkept (ih _ (by omega) i.inner (Nat.le_refl _)) hrest
  exact hbounded _ loads (Nat.le_refl _)

/-! ## Numbers -/

/-- Loads one behind the other that take numbers from the given one on, those that are kept with the
numbers that they take themselves. -/
def numbered : List InnerLoad → Nat → List (InnerLoad × RuleId)
  | [], _ => []
  | i :: rest, n => (if i.isKept then [(i, n)] else []) ++ numbered rest (n + i.order.length)

/-- Loads take the numbers behind those that the loads in front of them take, inner ones included.
-/
theorem numbered_append (loads more : List InnerLoad) (n : Nat) :
    numbered (loads ++ more) n = numbered loads n ++ numbered more (n + (orderOf loads).length) := by
  induction loads generalizing n with
  | nil => rfl
  | cons i rest ih =>
    rw [List.cons_append, numbered, ih, numbered, orderOf_cons, List.length_append, Nat.add_assoc,
      List.append_assoc]

/-- A load that is dropped takes no number. -/
theorem numbered_of_dropped {i : InnerLoad} (h : i.isKept = false) (rest : List InnerLoad) (n : Nat) :
    numbered (i :: rest) n = numbered rest n := by
  rw [numbered, Load.order_of_dropped h, h]
  rfl

/-- A load that is kept takes the first number, and what is in it takes the next ones. -/
theorem numbered_of_kept {i : InnerLoad} (h : i.isKept = true) (rest : List InnerLoad) (n : Nat) :
    numbered (i :: rest) n = (i, n) :: numbered rest (n + 1 + (orderOf i.inner).length) := by
  rw [numbered, Load.order_of_kept h, h, List.length_cons, Nat.add_comm _ 1, ← Nat.add_assoc]
  rfl

/-- The number of a load is its position. -/
theorem getElem?_of_numbered {loads : List InnerLoad} {n : Nat} {i : InnerLoad} {m : RuleId}
    (h : (i, m) ∈ numbered loads n) : ∃ k, m = n + k ∧ (orderOf loads)[k]? = some i.toLoad := by
  induction loads generalizing n with
  | nil => cases h
  | cons first rest ih =>
    have hrest : (i, m) ∈ numbered rest (n + first.order.length) →
        ∃ k, m = n + k ∧ (orderOf (first :: rest))[k]? = some i.toLoad := by
      intro h
      obtain ⟨k, rfl, hload⟩ := ih h
      refine ⟨first.order.length + k, Nat.add_assoc _ _ _, ?_⟩
      rw [orderOf_cons, List.getElem?_append_right (Nat.le_add_right _ _), Nat.add_sub_cancel_left]
      exact hload
    rcases List.mem_append.1 h with h | h
    · split at h
      · rename_i hkept
        rw [List.mem_singleton] at h
        cases h
        refine ⟨0, rfl, ?_⟩
        rw [orderOf_cons, Load.order_of_kept hkept]
        rfl
      · cases h
    · exact hrest h

/-- The numbers of the loads that are held. -/
def heldNumbers (loads : List InnerLoad) (n : Nat) : List RuleId :=
  ((numbered loads n).filter fun i => i.1.held).map Prod.snd

/-- A number is held if the rule around its load holds it. -/
theorem mem_heldNumbers {loads : List InnerLoad} {n : Nat} {m : RuleId} :
    m ∈ heldNumbers loads n ↔ ∃ i, (i, m) ∈ numbered loads n ∧ i.held = true := by
  simp [heldNumbers]

theorem heldNumbers_cons (i : InnerLoad) (rest : List InnerLoad) (n : Nat) :
    heldNumbers (i :: rest) n =
      (if i.isKept && i.held then [n] else []) ++ heldNumbers rest (n + i.order.length) := by
  rw [heldNumbers, numbered]
  cases hkept : i.isKept <;> cases hheld : i.held <;> simp [heldNumbers, hheld]

/-- The numbers that are held of several loads are those of the front and then those of the back. -/
theorem heldNumbers_append (loads more : List InnerLoad) (n : Nat) :
    heldNumbers (loads ++ more) n =
      heldNumbers loads n ++ heldNumbers more (n + (orderOf loads).length) := by
  rw [heldNumbers, numbered_append, List.filter_append, List.map_append]
  rfl

/-- What is loaded within a rule comes right behind it. -/
theorem getElem?_orderOf_inner {loads : List InnerLoad} {k j : Nat} {l l' : Load}
    (h : (orderOf loads)[k]? = some l) (h' : (orderOf l.inner)[j]? = some l') :
    (orderOf loads)[k + 1 + j]? = some l' := by
  induction loads using loads_induction generalizing k with
  | nil => cases h
  | dropped i rest hdropped ih =>
    rw [orderOf_cons, Load.order_of_dropped hdropped] at h ⊢
    exact ih h
  | kept i rest hkept ihinner ihrest =>
    rw [orderOf_cons, Load.order_of_kept hkept, List.cons_append] at h ⊢
    cases k with
    | zero =>
      cases h
      obtain ⟨hlt, -⟩ := List.getElem?_eq_some_iff.1 h'
      rw [Nat.zero_add, Nat.add_comm 1, List.getElem?_cons_succ, List.getElem?_append_left hlt]
      exact h'
    | succ k =>
      have hshift : k + 1 + 1 + j = k + 1 + j + 1 := by omega
      rw [List.getElem?_cons_succ] at h
      rw [hshift, List.getElem?_cons_succ]
      rcases Nat.lt_or_ge k (orderOf i.inner).length with hlt | hle
      · rw [List.getElem?_append_left hlt] at h
        have hinner := ihinner h
        obtain ⟨hlt', -⟩ := List.getElem?_eq_some_iff.1 hinner
        rw [List.getElem?_append_left hlt']
        exact hinner
      · rw [List.getElem?_append_right hle] at h
        have hrest := ihrest h
        have hsub : k + 1 + j - (orderOf i.inner).length = k - (orderOf i.inner).length + 1 + j := by
          omega
        rw [List.getElem?_append_right (by omega), hsub]
        exact hrest

/-! ## Who holds a number -/

/-- A rule that is loaded right within another one, with the numbers of both. -/
structure Edge where
  owner : RuleId
  load : InnerLoad
  number : RuleId

/-- All rules that are loaded right within others, when loads take numbers from the given one on. -/
def edgesOf (loads : List InnerLoad) (n : Nat) : List Edge :=
  ((orderOf loads).zipIdx n).flatMap fun entry =>
    (numbered entry.1.inner (entry.2 + 1)).map fun inner => ⟨entry.2, inner.1, inner.2⟩

/-- The edges are what is loaded right within each of the rules, with the number of that rule. -/
theorem mem_edgesOf {loads : List InnerLoad} {n : Nat} {e : Edge} :
    e ∈ edgesOf loads n ↔ ∃ k l, (orderOf loads)[k]? = some l ∧ e.owner = n + k ∧
      (e.load, e.number) ∈ numbered l.inner (n + k + 1) := by
  unfold edgesOf
  rw [List.mem_flatMap]
  constructor
  · rintro ⟨⟨l, k⟩, hentry, he⟩
    obtain ⟨hle, hload⟩ := List.mk_mem_zipIdx_iff_le_and_getElem?_sub.1 hentry
    obtain ⟨⟨i, m⟩, hinner, rfl⟩ := List.mem_map.1 he
    have hk : n + (k - n) = k := Nat.add_sub_of_le hle
    refine ⟨k - n, l, hload, hk.symm, ?_⟩
    rw [hk]
    exact hinner
  · rintro ⟨k, l, hload, howner, hinner⟩
    refine ⟨(l, n + k), ?_, List.mem_map.2 ⟨(e.load, e.number), hinner, ?_⟩⟩
    · refine List.mk_mem_zipIdx_iff_le_and_getElem?_sub.2 ⟨Nat.le_add_right n k, ?_⟩
      rw [Nat.add_sub_cancel_left]
      exact hload
    · rw [← howner]

/-- **Each number is taken once**: the numbers of the loads and of all that is loaded within them are the
numbers from the given one on. -/
theorem perm_edgesOf (loads : List InnerLoad) (n : Nat) :
    ((numbered loads n).map Prod.snd ++ (edgesOf loads n).map Edge.number).Perm
      (List.range' n (orderOf loads).length) := by
  induction loads using loads_induction generalizing n with
  | nil => exact .nil
  | dropped i rest hdropped ih =>
    have hedges : edgesOf (i :: rest) n = edgesOf rest n := by
      unfold edgesOf
      rw [orderOf_cons, Load.order_of_dropped hdropped]
      rfl
    rw [numbered_of_dropped hdropped, hedges, orderOf_cons, Load.order_of_dropped hdropped]
    exact ih n
  | kept i rest hkept ihinner ihrest =>
    have hedges : (edgesOf (i :: rest) n).map Edge.number =
        (numbered i.inner (n + 1)).map Prod.snd ++ (edgesOf i.inner (n + 1)).map Edge.number ++
          (edgesOf rest (n + 1 + (orderOf i.inner).length)).map Edge.number := by
      unfold edgesOf
      rw [orderOf_cons, Load.order_of_kept hkept, List.cons_append, List.zipIdx_cons,
        List.flatMap_cons, List.zipIdx_append, List.flatMap_append, List.map_append, List.map_append,
        List.map_map, List.append_assoc]
      rfl
    rw [numbered_of_kept hkept, hedges, orderOf_cons, Load.order_of_kept hkept, List.cons_append,
      List.length_cons, List.length_append, List.range'_succ, ← List.range'_append_1, List.map_cons,
      List.cons_append]
    refine List.Perm.cons n ?_
    -- the numbers of the loads behind the first one move to the back
    exact (List.perm_append_comm_assoc _ _ _).trans ((ihinner (n + 1)).append (ihrest _))

end Highlight
