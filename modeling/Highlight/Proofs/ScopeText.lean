import Highlight.Scope.Parse

/-!
# Scopes are read back from their written form

Every value of the types is written as a text that is read as that value again. Nothing has to be
assumed about where a scope comes from, because the types hold only what can be written: a scope that
was filled in with captured text is a scope like any other.

- `Part.read_chars`: a part, also a placeholder.
- `Scope.read_chars`, `Scope.ofText_text`: a scope.
-/

namespace Highlight

theorem isNameChar_of_isDigit {c : Char} (h : Text.isDigit c = true) : isNameChar c = true := by
  have hdigit : c.isDigit = true := h
  simp [isNameChar, Char.isAlphanum, hdigit]

/-- A list is read back when each of its members is. -/
theorem mapM_written {α β ε : Type} (read : α → Except ε β) (write : β → α)
    (h : ∀ b, read (write b) = .ok b) (bs : List β) : (bs.map write).mapM read = .ok bs := by
  induction bs with
  | nil => rfl
  | cons b bs ih =>
    rw [List.map_cons, List.mapM_cons, h, ih]
    rfl

namespace Part

theorem chars_ne_nil (p : Part) : p.chars ≠ [] := by
  cases p with
  | name n => exact n.nonempty
  | capture group => exact List.cons_ne_nil _ _

/-- A part has no dot in it. -/
theorem dot_not_mem_chars (p : Part) : '.' ∉ p.chars := by
  have hdot : isNameChar '.' = false := by decide
  cases p with
  | name n =>
    intro hmem
    have hname := List.all_eq_true.1 n.valid _ hmem
    rw [hdot] at hname
    cases hname
  | capture group =>
    intro hmem
    rcases List.mem_cons.1 hmem with h | h
    · cases h
    · have hdigit := List.all_eq_true.1 (Text.all_isDigit_ofNat group.toNat) _ h
      rw [isNameChar_of_isDigit hdigit] at hdot
      cases hdot

/-- A number has no braces around it. -/
theorem withoutBraces_ofNat (n : Nat) : withoutBraces (Text.ofNat n) = Text.ofNat n := by
  unfold withoutBraces
  split
  · rename_i rest heq
    -- a numeral begins with a digit
    have hall := Text.all_isDigit_ofNat n
    rw [heq, List.all_cons] at hall
    exact absurd hall (by simp [Text.isDigit])
  · rfl

/-- A part is read back from its written form. -/
theorem read_chars (p : Part) : read p.chars = .ok p := by
  cases p with
  | capture group =>
    show readCapture _ (Text.ofNat group.toNat) = _
    unfold readCapture
    rw [withoutBraces_ofNat, Text.numeral?_ofNat]
    simp only
    rw [if_pos group.toNat_lt, UInt64.ofNat_toNat]
  | name n =>
    have hdollar : isNameChar '$' = false := by decide
    have hvalid := n.valid
    show read n.chars = _
    unfold read
    split
    · rename_i heq
      exact absurd heq n.nonempty
    · rename_i rest heq
      rw [heq, List.all_cons, hdollar] at hvalid
      cases hvalid
    · exact dif_pos hvalid

end Part

namespace Scope

theorem mapM_read_chars (ps : List Part) :
    (ps.map Part.chars).mapM Part.read = .ok ps :=
  mapM_written Part.read Part.chars Part.read_chars ps

/-- The parts are found again between the dots. -/
theorem pieces_chars (s : Scope) : Text.pieces '.' s.chars = s.parts.map Part.chars := by
  refine Text.pieces_joined (by simpa using s.nonempty) fun cs hcs => ?_
  obtain ⟨p, -, rfl⟩ := List.mem_map.1 hcs
  exact p.dot_not_mem_chars

theorem chars_ne_nil (s : Scope) : s.chars ≠ [] := by
  intro h
  have hpieces := s.pieces_chars
  obtain ⟨p, ps, hparts⟩ := List.exists_cons_of_ne_nil s.nonempty
  rw [h, hparts, List.map_cons] at hpieces
  have hhead : [] = p.chars := (List.cons.inj hpieces).1
  exact p.chars_ne_nil hhead.symm

/-- A scope is read back from its written form. -/
theorem read_chars (s : Scope) : read s.chars = .ok s := by
  have hpieces := s.pieces_chars
  obtain ⟨parts, hne⟩ := s
  have hempty : (Scope.chars ⟨parts, hne⟩).isEmpty = false :=
    List.isEmpty_eq_false_iff.2 (chars_ne_nil _)
  unfold read
  rw [hempty, hpieces, mapM_read_chars]
  cases parts with
  | nil => exact absurd rfl hne
  | cons p ps => rfl

/-- **A scope is read back from its text.** -/
theorem ofText_text (s : Scope) : ofText s.text = .ok s := by
  unfold ofText text
  rw [String.toList_ofList, read_chars]

end Scope

end Highlight
