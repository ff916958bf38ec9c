import Highlight.Scope.Basic

/-!
# The order of scopes

Scopes are ordered part by part, scope names scope by scope, and a shorter list comes before any
list that it begins. Every name comes before every placeholder; names are ordered by their
characters, placeholders by their numbers.

- `Name.order`, `Part.order`, `Scope.order`, `ScopeName.order`: the orders. They are total, and only
  equal things are not apart (the `TransCmp` and `LawfulEqCmp` instances).
- `Scope.isInitialOf`: `source.js` begins `source.js.jsx` and not `source.json`.
- `Scope.order_of_isInitialOf`: a scope comes before those that it begins.
- `ScopeName.sorted`: a list of scope names in order; `ScopeName.sorted_eq_iff` says that it is the
  only list with the same names in order.
-/

namespace Highlight

open Std

/-- The order of names. -/
def Name.order (a b : Name) : Ordering := List.compareLex (compareOn Char.toNat) a.chars b.chars

/-- The order of parts. -/
def Part.order : Part → Part → Ordering
  | .name a, .name b => a.order b
  | .name _, .capture _ => .lt
  | .capture _, .name _ => .gt
  | .capture a, .capture b => compare a b

/-- The order of scopes. -/
def Scope.order (a b : Scope) : Ordering := List.compareLex Part.order a.parts b.parts

/-- The order of scope names. -/
def ScopeName.order (a b : ScopeName) : Ordering := List.compareLex Scope.order a.scopes b.scopes

/-- Whether a scope's parts are the first parts of another. -/
def Scope.isInitialOf (s t : Scope) : Bool := s.parts.isPrefixOf t.parts

/-- The scope names in order. -/
def ScopeName.sorted (names : List ScopeName) : List ScopeName :=
  names.mergeSort fun a b => (a.order b).isLE

/-! ## The orders are total -/

section Keys

variable {α β : Type} {cmp : β → β → Ordering}

/-- What is ordered by a key is ordered as well as the keys are. -/
theorem transCmp_on [TransCmp cmp] (key : α → β) : TransCmp fun a b => cmp (key a) (key b) where
  eq_swap := OrientedCmp.eq_swap
  isLE_trans := TransCmp.isLE_trans

theorem lawfulEqCmp_on [LawfulEqCmp cmp] (key : α → β) (hkey : ∀ {a b}, key a = key b → a = b) :
    LawfulEqCmp fun a b => cmp (key a) (key b) where
  compare_self := ReflCmp.compare_self
  eq_of_compare h := hkey (LawfulEqCmp.eq_of_compare h)

end Keys

instance lawfulEqCmp_toNat : LawfulEqCmp (compareOn Char.toNat) :=
  lawfulEqCmp_on Char.toNat Char.toNat_inj.1

instance : TransCmp Name.order := transCmp_on Name.chars

instance : LawfulEqCmp Name.order := lawfulEqCmp_on Name.chars Name.ext

instance : TransCmp Part.order where
  eq_swap {a b} := by
    cases a <;> cases b
    case name.name a b => exact @OrientedCmp.eq_swap _ Name.order _ a b
    case capture.capture a b => exact @OrientedCmp.eq_swap _ (@compare UInt64 _) _ a b
    all_goals rfl
  isLE_trans {a b c} hab hbc := by
    cases a <;> cases b <;> cases c
    case name.name.name => exact @TransCmp.isLE_trans _ Name.order _ _ _ _ hab hbc
    case capture.capture.capture =>
      exact @TransCmp.isLE_trans _ (@compare UInt64 _) _ _ _ _ hab hbc
    all_goals first | rfl | contradiction

instance : LawfulEqCmp Part.order where
  compare_self {a} := by
    cases a with
    | name a => exact @ReflCmp.compare_self _ Name.order _ a
    | capture a => exact @ReflCmp.compare_self _ (@compare UInt64 _) _ a
  eq_of_compare {a b} h := by
    cases a <;> cases b
    case name.name => exact congrArg Part.name (@LawfulEqCmp.eq_of_compare _ Name.order _ _ _ h)
    case capture.capture =>
      exact congrArg Part.capture (@LawfulEqCmp.eq_of_compare _ (@compare UInt64 _) _ _ _ h)
    all_goals cases h

instance : TransCmp Scope.order := transCmp_on Scope.parts

instance : LawfulEqCmp Scope.order := lawfulEqCmp_on Scope.parts Scope.ext

instance : TransCmp ScopeName.order := transCmp_on ScopeName.scopes

instance : LawfulEqCmp ScopeName.order := lawfulEqCmp_on ScopeName.scopes ScopeName.ext

/-! ## Beginnings and sorted lists -/

theorem isLE_compareLex_of_isPrefixOf {as bs : List Part} (h : as.isPrefixOf bs = true) :
    (List.compareLex Part.order as bs).isLE = true := by
  induction as generalizing bs with
  | nil => cases bs <;> rfl
  | cons a as ih =>
    cases bs with
    | nil => cases h
    | cons b bs =>
      rw [List.isPrefixOf, Bool.and_eq_true, beq_iff_eq] at h
      obtain ⟨rfl, h⟩ := h
      rw [List.compareLex_cons_cons, @ReflCmp.compare_self _ Part.order _ a]
      exact ih h

/-- A scope comes before the scopes that it begins. -/
theorem Scope.order_of_isInitialOf {s t : Scope} (h : s.isInitialOf t = true) :
    (s.order t).isLE = true := isLE_compareLex_of_isPrefixOf h

namespace ScopeName

/-- Sorting leaves out no name and adds none. -/
theorem sorted_perm (names : List ScopeName) : (sorted names).Perm names :=
  List.mergeSort_perm names _

/-- No name comes before an earlier one. -/
theorem pairwise_sorted (names : List ScopeName) :
    (sorted names).Pairwise fun a b => (a.order b).isLE = true := by
  refine List.pairwise_mergeSort (fun _ _ _ => TransCmp.isLE_trans) (fun a b => ?_) names
  rw [@OrientedCmp.eq_swap _ order _ b a, Ordering.isLE_swap]
  cases a.order b <;> rfl

/-- **The names in order** are the only list that has them and is in order. -/
theorem sorted_eq_iff {names list : List ScopeName} :
    sorted names = list ↔
      list.Perm names ∧ list.Pairwise fun a b => (a.order b).isLE = true := by
  constructor
  · rintro rfl
    exact ⟨sorted_perm names, pairwise_sorted names⟩
  · rintro ⟨hperm, hordered⟩
    refine List.Perm.eq_of_pairwise (fun a b _ _ hab hba => ?_) (pairwise_sorted names) hordered
      ((sorted_perm names).trans hperm.symm)
    exact LawfulEqCmp.eq_of_compare (OrientedCmp.isLE_antisymm hab hba)

end ScopeName

end Highlight
