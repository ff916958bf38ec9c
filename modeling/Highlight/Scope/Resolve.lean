import Highlight.Match
import Highlight.Scope.Basic

/-!
# Filling in placeholders

A placeholder is replaced by the text that its group took. The outcome is a scope again: a dot in
the text begins a new part, any other character that a name cannot hold becomes `_`, and a text of
which nothing is left becomes `unmatched`.

- `Name.ofPiece`: a name for any text that is not empty.
- `Part.ofCaptured`: the parts for a captured text; `ofCaptured_ne_nil` says that there is one.
- `Scope.resolve`, `ScopeName.resolve`: the filled-in scopes.
- `Scope.resolve_hasCaptures`: no placeholder is left.
- `Scope.resolve_eq_self`: without placeholders there is nothing to fill in.
-/

namespace Highlight

/-- The character itself if a name can hold it, and `_` otherwise. -/
def nameCharOf (c : Char) : Char := if isNameChar c then c else '_'

theorem isNameChar_nameCharOf (c : Char) : isNameChar (nameCharOf c) = true := by
  unfold nameCharOf
  split
  · assumption
  · decide

/-- A name for a text, with each character that a name cannot hold replaced. -/
def Name.ofPiece (c : Char) (cs : List Char) : Name :=
  ⟨(c :: cs).map nameCharOf, by simp, by
    simp only [List.all_map, List.all_eq_true]
    intro x _
    exact isNameChar_nameCharOf x⟩

/-- What a placeholder becomes when there is nothing to fill in. -/
def Name.unmatched : Name := ⟨"unmatched".toList, by decide, by decide⟩

namespace Part

/-- The part for a piece of text, if the piece is not empty. -/
def ofPiece? : List Char → Option Part
  | [] => none
  | c :: cs => some (.name (Name.ofPiece c cs))

/-- The parts for a captured text. -/
def ofCaptured (captured : List Char) : List Part :=
  match (Text.pieces '.' captured).filterMap ofPiece? with
  | [] => [.name Name.unmatched]
  | p :: ps => p :: ps

/-- Captured text stands for one name at least. -/
theorem ofCaptured_ne_nil (captured : List Char) : ofCaptured captured ≠ [] := by
  unfold ofCaptured
  split <;> simp

/-- Captured text is never read as a placeholder. -/
theorem isCapture_of_mem_ofCaptured {captured : List Char} {p : Part}
    (h : p ∈ ofCaptured captured) : p.isCapture = false := by
  unfold ofCaptured at h
  split at h
  · simp only [List.mem_singleton] at h
    subst h
    rfl
  · rename_i q qs hq
    rw [← hq, List.mem_filterMap] at h
    obtain ⟨piece, -, hp⟩ := h
    cases piece with
    | nil => simp [ofPiece?] at hp
    | cons c cs =>
      simp only [ofPiece?, Option.some.injEq] at hp
      subst hp
      rfl

/-- The parts that take the place of a part. -/
def resolve (text : List Char) (groups : Groups) : Part → List Part
  | .name n => [.name n]
  | .capture group => ofCaptured ((groups.text? text group.toNat).getD [])

theorem resolve_ne_nil (text : List Char) (groups : Groups) (p : Part) :
    p.resolve text groups ≠ [] := by
  cases p with
  | name n => simp [resolve]
  | capture group => exact ofCaptured_ne_nil _

/-- A part that was filled in holds no placeholder. -/
theorem isCapture_of_mem_resolve {text : List Char} {groups : Groups} {p q : Part}
    (h : q ∈ p.resolve text groups) : q.isCapture = false := by
  cases p with
  | name n =>
    simp only [resolve, List.mem_singleton] at h
    subst h
    rfl
  | capture group => exact isCapture_of_mem_ofCaptured h

end Part

namespace Scope

/-- The scope with its placeholders filled in from a match in `text`. -/
def resolve (text : List Char) (groups : Groups) (s : Scope) : Scope :=
  ⟨s.parts.flatMap (Part.resolve text groups), by
    obtain ⟨p, ps, hp⟩ := List.exists_cons_of_ne_nil s.nonempty
    rw [hp, List.flatMap_cons]
    intro h
    exact Part.resolve_ne_nil text groups p (List.append_eq_nil_iff.1 h).1⟩

/-- **A filled scope has no placeholders.** -/
theorem resolve_hasCaptures (text : List Char) (groups : Groups) (s : Scope) :
    (s.resolve text groups).hasCaptures = false := by
  simp only [hasCaptures, resolve, List.any_eq_false, List.mem_flatMap]
  rintro q ⟨p, -, hq⟩
  simp [Part.isCapture_of_mem_resolve hq]

/-- A scope without placeholders is not changed by filling it. -/
theorem resolve_eq_self {s : Scope} (h : s.hasCaptures = false) (text : List Char)
    (groups : Groups) : s.resolve text groups = s := by
  obtain ⟨parts, hne⟩ := s
  have hparts : ∀ ps : List Part, ps.any Part.isCapture = false →
      ps.flatMap (Part.resolve text groups) = ps := by
    intro ps
    induction ps with
    | nil => exact fun _ => rfl
    | cons p ps ih =>
      intro h
      rw [List.any_cons, Bool.or_eq_false_iff] at h
      rw [List.flatMap_cons, ih h.2]
      cases p with
      | name n => rfl
      | capture group => cases h.1
  simp only [resolve, hparts parts h]

end Scope

namespace ScopeName

/-- The scope name with its placeholders filled in from a match in `text`. -/
def resolve (text : List Char) (groups : Groups) (n : ScopeName) : ScopeName :=
  ⟨n.scopes.map (Scope.resolve text groups), by simp [n.nonempty]⟩

end ScopeName

end Highlight
