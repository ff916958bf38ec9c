import Highlight.Proofs.Matches

/-!
# Where a text occurs in another one

A search goes from place to place, and what it finds is told by offsets. Every offset that does not cut a
character has its place, which the search by halving finds, and a text occurs at an offset if it follows
behind the place.

- `Text.lastAtMost_key`: the search by halving finds the index of a key.
- `IndexedText.place?_eq_some_iff`: the place of an offset.
- `Text.OccursAt`, `Text.FirstFrom`: an occurrence, and the first one from an offset on.
- `IndexedText.occursAt_iff`, `IndexedText.firstFrom_iff`: both of them by places.
-/

namespace Highlight

namespace Text

/-! ## Searching by halving -/

/-- **The search by halving finds the index of a key**, if keys ascend and there are enough steps. -/
theorem lastAtMost_key {key : Nat → Nat} {count index : Nat}
    (hkey : ∀ i j, i < j → j < count → key i < key j) (steps : Nat) {low high : Nat}
    (hlow : low ≤ index) (hhigh : index < high) (hcount : high ≤ count)
    (hsteps : high ≤ low + steps + 1) : lastAtMost key (key index) steps low high = index := by
  induction steps generalizing low high with
  | zero =>
    show low = index
    omega
  | succ steps ih =>
    unfold lastAtMost
    by_cases hdone : high ≤ low + 1
    · rw [if_pos hdone]
      omega
    · rw [if_neg hdone]
      simp only
      by_cases hmiddle : (low + high) / 2 ≤ index
      · have hle : key ((low + high) / 2) ≤ key index := by
          rcases Nat.lt_or_eq_of_le hmiddle with hlt | heq
          · exact Nat.le_of_lt (hkey _ _ hlt (by omega))
          · exact Nat.le_of_eq (congrArg key heq)
        rw [if_pos hle]
        exact ih hmiddle hhigh hcount (by omega)
      · have hlt : key index < key ((low + high) / 2) := hkey _ _ (by omega) (by omega)
        rw [if_neg (Nat.not_le.2 hlt)]
        exact ih hlow (by omega) (by omega) (by omega)

/-! ## Occurrences -/

/-- A text occurs at an offset of another one. -/
def OccursAt (part text : List Char) (start : Nat) : Prop :=
  ∃ before after, text = before ++ part ++ after ∧ byteLength before = start

/-- The first occurrence of a text from an offset on. -/
structure FirstFrom (part text : List Char) (offset start : Nat) : Prop where
  le : offset ≤ start
  occurs : OccursAt part text start
  first : ∀ earlier, offset ≤ earlier → OccursAt part text earlier → start ≤ earlier

/-- Where a text occurs, all its characters do. -/
theorem OccursAt.subset {part text : List Char} {start : Nat} (h : OccursAt part text start) :
    part ⊆ text := by
  obtain ⟨before, after, rfl, -⟩ := h
  intro c hc
  simp [hc]

end Text

/-! ## Places -/

namespace IndexedText

variable {t : IndexedText}

theorem size_eq (t : IndexedText) : t.size = t.text.length := by
  simp [size, t.chars_eq]

theorem getElem?_offsetsFrom (start : Nat) (cs : List Char) {place : Nat} (h : place ≤ cs.length) :
    (Text.offsetsFrom start cs)[place]? = some (start + Text.byteLength (cs.take place)) := by
  induction cs generalizing start place with
  | nil =>
    obtain rfl : place = 0 := Nat.le_zero.1 h
    rfl
  | cons c cs ih =>
    cases place with
    | zero => rfl
    | succ place =>
      rw [Text.offsetsFrom, List.getElem?_cons_succ, ih _ (Nat.le_of_succ_le_succ h),
        List.take_succ_cons, Text.byteLength_cons, Nat.add_assoc]

/-- The offset of a place is the length of the text in front of it. -/
theorem offset_eq {place : Nat} (h : place ≤ t.size) : t.offset place = Text.byteLength (t.text.take place) := by
  rw [offset, t.offsets_eq, Array.getD_eq_getD_getElem?, List.getElem?_toArray,
    getElem?_offsetsFrom 0 _ (t.size_eq ▸ h), Option.getD_some, Nat.zero_add]

/-- Behind a text that follows, the offset is greater by its length. -/
theorem offset_add_length {part : List Char} {place : Nat} (hplace : place ≤ t.size)
    (hpart : part <+: t.text.drop place) :
    t.offset (place + part.length) = t.offset place + Text.byteLength part := by
  have hle : place + part.length ≤ t.size := by
    have hlength := hpart.length_le
    rw [List.length_drop] at hlength
    rw [size_eq] at hplace ⊢
    omega
  rw [offset_eq hle, offset_eq hplace, List.take_add, ← List.prefix_iff_eq_take.1 hpart,
    Text.byteLength_append]

/-- The place of the offset of a place is the place itself. -/
theorem place?_offset {place : Nat} (h : place ≤ t.size) : t.place? (t.offset place) = some place := by
  have hsize := t.size_offsets
  have hkey : ∀ i, i < t.offsets.size → t.offsets.getD i 0 = t.offset i := by
    intro i hi
    simp [offset, Array.getD, hi]
  have hascending : ∀ i j, i < j → j < t.offsets.size → t.offsets.getD i 0 < t.offsets.getD j 0 := by
    intro i j hij hj
    rw [hkey i (by omega), hkey j hj]
    exact offset_lt_offset hij (by omega)
  have hfound : Text.lastAtMost (fun i => t.offsets.getD i 0) (t.offset place) t.offsets.size 0
      t.offsets.size = place := by
    rw [← hkey place (by omega)]
    exact Text.lastAtMost_key hascending _ (Nat.zero_le place) (by omega) (Nat.le_refl _) (by omega)
  unfold place?
  simp only [hfound, beq_self_eq_true, Bool.and_true, decide_eq_true_eq]
  exact if_pos (by omega)

theorem place?_eq_some_iff {offset place : Nat} :
    t.place? offset = some place ↔ place ≤ t.size ∧ t.offset place = offset := by
  constructor
  · intro h
    exact ⟨le_size_of_place? h, offset_of_place? h⟩
  · rintro ⟨hle, rfl⟩
    exact place?_offset hle

/-- The boundaries of a text are the offsets of its places. -/
theorem isBoundary_iff {offset : Nat} :
    Text.IsBoundary t.text offset ↔ ∃ place, place ≤ t.size ∧ t.offset place = offset := by
  constructor
  · rintro ⟨before, after, htext, rfl⟩
    have hle : before.length ≤ t.size := by simp [size_eq, htext]
    refine ⟨before.length, hle, ?_⟩
    rw [offset_eq hle, htext, List.take_left]
  · rintro ⟨place, -, rfl⟩
    exact t.isBoundary_offset place

/-- A text occurs at the offsets of the places that it follows behind. -/
theorem occursAt_iff {part : List Char} {start : Nat} :
    Text.OccursAt part t.text start ↔
      ∃ place, place ≤ t.size ∧ t.offset place = start ∧ part <+: t.text.drop place := by
  constructor
  · rintro ⟨before, after, htext, rfl⟩
    rw [List.append_assoc] at htext
    have hle : before.length ≤ t.size := by simp [size_eq, htext]
    refine ⟨before.length, hle, ?_, ?_⟩
    · rw [offset_eq hle, htext, List.take_left]
    · rw [htext, List.drop_left]
      exact List.prefix_append _ _
  · rintro ⟨place, hle, rfl, after, hafter⟩
    refine ⟨t.text.take place, after, ?_, (offset_eq hle).symm⟩
    rw [List.append_assoc, hafter, List.take_append_drop]

/-- The first occurrence from an offset on is the first match of the text from the place of the offset
on. -/
theorem firstFrom_iff {part : List Char} {place start : Nat} (hplace : place ≤ t.size) :
    Text.FirstFrom part t.text (t.offset place) start ↔
      ∃ m : Match, m.IsFirst part t place ∧ t.offset m.start = start := by
  constructor
  · rintro ⟨hle, hoccurs, hfirst⟩
    obtain ⟨later, hlater, rfl, hpart⟩ := occursAt_iff.1 hoccurs
    refine ⟨.whole later part.length, ⟨le_of_offset_le hplace hle, hlater, hpart, ?_, rfl⟩, rfl⟩
    intro earlier hearlier (hlt : earlier < later) hpart'
    have hsize : earlier ≤ t.size := by omega
    have hstart := hfirst _ (t.offset_le_offset hearlier) (occursAt_iff.2 ⟨_, hsize, rfl, hpart'⟩)
    have hoffset : t.offset earlier < t.offset later := offset_lt_offset hlt hlater
    omega
  · rintro ⟨m, hm, rfl⟩
    refine ⟨t.offset_le_offset hm.le_start, occursAt_iff.2 ⟨_, hm.start_le, rfl, hm.occurs⟩, ?_⟩
    intro earlier hle hoccurs
    obtain ⟨other, hother, rfl, hpart'⟩ := occursAt_iff.1 hoccurs
    by_cases hearlier : other < m.start
    · exact absurd hpart' (hm.first other (le_of_offset_le hplace hle) hearlier)
    · exact t.offset_le_offset (by omega)

end IndexedText

end Highlight
