import Highlight.Proofs.ScopeSpelling
import Highlight.Scope.Resolve
import Mathlib.Data.List.Forall2

/-!
# Filled-in scopes

Captured text comes from documents, so nothing is known about it, and groups may name any offsets. What
takes the place of a placeholder is nevertheless one or more names, and everything else stays where it
is. So a scope name that was filled in is written and read like any other.

- `fillers`: the names that a captured text gives.
- `Part.Becomes`, `Part.becomes_resolve`: what takes the place of a part.
- `Scope.Becomes`, `Scope.becomes_resolve`: the same for all parts of a scope.
- `ScopeName.filled_scopes_valid`: all of it.
-/

namespace Highlight

variable (text : List Char) (groups : Groups)

/-! ## The names for a captured text -/

/-- The names that a captured text gives: its pieces between dots without the empty ones, in which
characters that a name cannot hold are replaced; or a single name when there is no such piece. -/
def fillers (captured : List Char) : List (List Char) :=
  match (Text.pieces '.' captured).filter fun piece => !piece.isEmpty with
  | [] => [Name.unmatched.chars]
  | piece :: pieces => (piece :: pieces).map (List.map nameCharOf)

theorem fillers_ne_nil (captured : List Char) : fillers captured ≠ [] := by
  unfold fillers
  split
  · exact List.cons_ne_nil _ _
  · exact List.cons_ne_nil _ _

/-- What a captured text gives can stand as a name. -/
theorem valid_of_mem_fillers {captured name : List Char} (h : name ∈ fillers captured) :
    name ≠ [] ∧ ∀ c ∈ name, isNameChar c = true := by
  unfold fillers at h
  split at h
  · rw [List.mem_singleton.1 h]
    exact ⟨Name.unmatched.nonempty, List.all_eq_true.1 Name.unmatched.valid⟩
  · rename_i piece pieces hpieces
    obtain ⟨kept, hkept, rfl⟩ := List.mem_map.1 h
    rw [← hpieces] at hkept
    have hne : kept ≠ [] := by simpa using (List.mem_filter.1 hkept).2
    refine ⟨by simpa using hne, fun c hc => ?_⟩
    obtain ⟨d, -, rfl⟩ := List.mem_map.1 hc
    exact isNameChar_nameCharOf d

namespace Part

/-- The parts for pieces of a captured text are names for those that are not empty. -/
theorem exists_names_filterMap (pieces : List (List Char)) :
    ∃ names : List Name, pieces.filterMap ofPiece? = names.map .name ∧
      names.map Name.chars =
        (pieces.filter fun piece => !piece.isEmpty).map (List.map nameCharOf) := by
  induction pieces with
  | nil => exact ⟨[], rfl, rfl⟩
  | cons piece pieces ih =>
    obtain ⟨names, hparts, hchars⟩ := ih
    cases piece with
    | nil => exact ⟨names, hparts, hchars⟩
    | cons c cs =>
      exact ⟨Name.ofPiece c cs :: names, congrArg (_ :: ·) hparts, congrArg (_ :: ·) hchars⟩

/-- Captured text stands for names only. -/
theorem exists_names_ofCaptured (captured : List Char) :
    ∃ names : List Name, ofCaptured captured = names.map .name ∧
      names.map Name.chars = fillers captured := by
  obtain ⟨names, hparts, hchars⟩ := exists_names_filterMap (Text.pieces '.' captured)
  unfold ofCaptured fillers
  rw [hparts]
  cases names with
  | nil =>
    have hnone := hchars.symm
    rw [List.map_nil, List.map_eq_nil_iff] at hnone
    rw [hnone]
    exact ⟨[Name.unmatched], rfl, rfl⟩
  | cons name names =>
    refine ⟨name :: names, rfl, ?_⟩
    rw [hchars]
    split
    · rename_i hnone
      rw [hnone] at hchars
      cases hchars
    · rename_i hsome
      rw [hsome]

/-! ## The parts of a scope -/

/-- What takes the place of a part: a name stays, and for a placeholder there are the names that the
text of its group gives. A group that took no text counts as one that took the empty text. -/
inductive Becomes : Part → List Part → Prop
  | name (n : Name) : Becomes (.name n) [.name n]
  | capture (group : UInt64) (names : List Name) :
    names.map Name.chars = fillers ((groups.text? text group.toNat).getD []) →
      Becomes (.capture group) (names.map .name)

/-- A part becomes what fills it. -/
theorem becomes_resolve (p : Part) : p.Becomes text groups (p.resolve text groups) := by
  cases p with
  | name n => exact .name n
  | capture group =>
    obtain ⟨names, hparts, hchars⟩ :=
      exists_names_ofCaptured ((groups.text? text group.toNat).getD [])
    rw [resolve, hparts]
    exact .capture group names hchars

end Part

/-- What takes the place of a scope: its parts, each of them filled in, in their order. -/
def Scope.Becomes (s filled : Scope) : Prop :=
  ∃ blocks, List.Forall₂ (Part.Becomes text groups) s.parts blocks ∧ filled.parts = blocks.flatten

/-- **A scope becomes what its parts become**, one behind the other. -/
theorem Scope.becomes_resolve (s : Scope) : s.Becomes text groups (s.resolve text groups) := by
  refine ⟨s.parts.map (Part.resolve text groups), ?_, List.flatMap_def ..⟩
  rw [List.forall₂_map_right_iff]
  exact List.forall₂_same.2 fun p _ => p.becomes_resolve text groups

/-! ## Scope names -/

namespace ScopeName

theorem resolve_hasCaptures (n : ScopeName) : (n.resolve text groups).hasCaptures = false := by
  simp only [hasCaptures, resolve, List.any_eq_false, List.mem_map]
  rintro r ⟨s, -, rfl⟩
  simp [s.resolve_hasCaptures text groups]

theorem resolve_eq_self {n : ScopeName} (h : n.hasCaptures = false) :
    n.resolve text groups = n := by
  have hscopes : n.scopes.map (Scope.resolve text groups) = n.scopes := by
    refine (List.map_congr_left fun s hs => ?_).trans (List.map_id n.scopes)
    have hplain : s.hasCaptures = false := by simpa using List.any_eq_false.1 h s hs
    exact Scope.resolve_eq_self hplain text groups
  simp only [resolve, hscopes]

/-- **Scope names that were filled in are scope names**, whatever the text is and whatever the groups
name. There are as many scopes as before and no placeholder is left. In each scope the names stay in
their order, and the place of each placeholder is taken by names: at least one, none of them empty, and
all of them made of name characters. What is written for the filled-in scope name is read as the same,
and without placeholders nothing changes. -/
theorem filled_scopes_valid (n : ScopeName) :
    (n.resolve text groups).scopes.length = n.scopes.length ∧
      (n.resolve text groups).hasCaptures = false ∧
      List.Forall₂ (Scope.Becomes text groups) n.scopes (n.resolve text groups).scopes ∧
      (∀ captured, fillers captured ≠ [] ∧
        ∀ name ∈ fillers captured, name ≠ [] ∧ ∀ c ∈ name, isNameChar c = true) ∧
      ofText (n.resolve text groups).text = .ok (n.resolve text groups) ∧
      (n.hasCaptures = false → n.resolve text groups = n) := by
  refine ⟨List.length_map _, n.resolve_hasCaptures text groups, ?_,
    fun captured => ⟨fillers_ne_nil captured, fun _ => valid_of_mem_fillers⟩,
    ofText_text _, n.resolve_eq_self text groups⟩
  show List.Forall₂ _ n.scopes (n.scopes.map (Scope.resolve text groups))
  rw [List.forall₂_map_right_iff]
  exact List.forall₂_same.2 fun s _ => s.becomes_resolve text groups

/-- The captured text has a dot, which divides names, and a letter that no name can hold. -/
theorem filled_scopes_valid_captured :
    let a : Name := { chars := ['a'] }
    let n : ScopeName := .ofScope ⟨[.name a, .capture 1], by simp⟩
    let plain : ScopeName := .ofScope (.ofPart (.name a))
    let text := ['x', '.', 'é']
    let groups : Groups := [none, some ⟨0, 4⟩]
    (n.resolve text groups).text = "a.x._" ∧
      ['_'] ∈ fillers text ∧ (∀ c ∈ ['_'], isNameChar c = true) ∧
      ofText "a.x._" = .ok (n.resolve text groups) ∧
      plain.hasCaptures = false ∧ plain.resolve text groups = plain := by
  intro a n plain text groups
  have htext : (n.resolve text groups).text = "a.x._" := by decide
  have hfiller : ['_'] ∈ fillers text := by decide
  have hplain : plain.hasCaptures = false := by decide
  obtain ⟨-, -, -, hvalid, hread, -⟩ := filled_scopes_valid text groups n
  obtain ⟨-, -, -, -, -, hsame⟩ := filled_scopes_valid text groups plain
  exact ⟨htext, hfiller, ((hvalid text).2 _ hfiller).2, htext ▸ hread, hplain, hsame hplain⟩

end ScopeName

end Highlight
