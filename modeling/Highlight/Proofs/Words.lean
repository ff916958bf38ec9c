import Highlight.Text.Pieces

/-!
# Words with blanks between them

The words of a text are what it has between its blanks. That is said here without the way in which they
are split off: a text is words with blanks between them, and the words that are split off are these.

- `Text.IsWord`, `Text.Spaced`: a word, and words with blanks between them.
- `Text.spaced_wordsFrom`: what is split off, by induction on the text.
- `Text.words_eq_iff`: the main statement.
- `Text.spaced_joined`: words with single spaces between them.
-/

namespace Highlight

namespace Text

/-- A word: at least one character and no blank. -/
def IsWord (word : List Char) : Prop := word ≠ [] ∧ ∀ c ∈ word, isBlank c = false

/-- A text is words with blanks between them. There may be blanks in front of the first word and behind
the last one. -/
inductive Spaced : List (List Char) → List Char → Prop
  | blanks {gap : List Char} : (∀ c ∈ gap, isBlank c = true) → Spaced [] gap
  | word {gap word rest : List Char} {words : List (List Char)} :
    (∀ c ∈ gap, isBlank c = true) → IsWord word → (∀ c ∈ rest.head?, isBlank c = true) →
      Spaced words rest → Spaced (word :: words) (gap ++ (word ++ rest))

/-- A word in front of all blanks. -/
theorem Spaced.first {word rest : List Char} {words : List (List Char)} (hword : IsWord word)
    (hhead : ∀ c ∈ rest.head?, isBlank c = true) (h : Spaced words rest) :
    Spaced (word :: words) (word ++ rest) :=
  .word (List.forall_mem_nil _) hword hhead h

/-- Another blank in front changes nothing. -/
theorem Spaced.cons_blank {words : List (List Char)} {cs : List Char} (h : Spaced words cs) {c : Char}
    (hc : isBlank c = true) : Spaced words (c :: cs) := by
  cases h with
  | blanks hgap => exact .blanks (List.forall_mem_cons.2 ⟨hc, hgap⟩)
  | word hgap hword hhead hrest =>
    rw [← List.cons_append]
    exact .word (List.forall_mem_cons.2 ⟨hc, hgap⟩) hword hhead hrest

/-- The words that are split off, the first of which is begun already. -/
theorem spaced_wordsFrom (begun cs : List Char)
    (hbegun : ∀ c ∈ begun, isBlank c = false) :
    Spaced (wordsFrom begun cs) (begun.reverse ++ cs) := by
  have hword : begun ≠ [] → IsWord begun.reverse := fun hne =>
    ⟨by simpa using hne, fun c hc => hbegun c (List.mem_reverse.1 hc)⟩
  induction cs generalizing begun with
  | nil =>
    rw [wordsFrom]
    split
    · rename_i hempty
      rw [List.isEmpty_iff.1 hempty]
      exact .blanks (by simp)
    · rename_i hempty
      exact .first (hword (by simpa using hempty)) (by simp) (.blanks (List.forall_mem_nil _))
  | cons c cs ih =>
    rw [wordsFrom]
    split
    · rename_i hblank
      have hrest := ih [] (List.forall_mem_nil _) (by simp)
      split
      · rename_i hempty
        rw [List.isEmpty_iff.1 hempty]
        exact hrest.cons_blank hblank
      · rename_i hempty
        exact .first (hword (by simpa using hempty)) (by simpa using hblank)
          (hrest.cons_blank hblank)
    · rename_i hblank
      have hmore : ∀ d ∈ c :: begun, isBlank d = false :=
        List.forall_mem_cons.2 ⟨Bool.eq_false_iff.2 hblank, hbegun⟩
      have hrest := ih (c :: begun) hmore fun _ =>
        ⟨by simp, fun d hd => hmore d (List.mem_reverse.1 hd)⟩
      simpa using hrest

theorem wordsFrom_gap {gap : List Char} (h : ∀ c ∈ gap, isBlank c = true) (cs : List Char) :
    wordsFrom [] (gap ++ cs) = wordsFrom [] cs := by
  induction gap with
  | nil => rfl
  | cons c gap ih =>
    obtain ⟨hc, hgap⟩ := List.forall_mem_cons.1 h
    rw [List.cons_append, wordsFrom, if_pos hc, if_pos List.isEmpty_nil, ih hgap]

theorem wordsFrom_word {word : List Char} (h : ∀ c ∈ word, isBlank c = false)
    (begun cs : List Char) :
    wordsFrom begun (word ++ cs) = wordsFrom (word.reverse ++ begun) cs := by
  induction word generalizing begun with
  | nil => rfl
  | cons c word ih =>
    obtain ⟨hc, hword⟩ := List.forall_mem_cons.1 h
    rw [List.cons_append, wordsFrom, if_neg (Bool.eq_false_iff.1 hc), ih hword, List.reverse_cons,
      List.append_assoc, List.singleton_append]

/-- A word ends in front of a blank or at the end. -/
theorem wordsFrom_of_head {begun rest : List Char} (hbegun : begun ≠ [])
    (h : ∀ c ∈ rest.head?, isBlank c = true) :
    wordsFrom begun rest = begun.reverse :: wordsFrom [] rest := by
  have hempty : ¬ begun.isEmpty = true := by simpa using hbegun
  cases rest with
  | nil => rw [wordsFrom, if_neg hempty, wordsFrom, if_pos List.isEmpty_nil]
  | cons c rest =>
    have hc : isBlank c = true := h c rfl
    rw [wordsFrom, if_pos hc, if_neg hempty, wordsFrom, if_pos hc, if_pos List.isEmpty_nil]

/-- **The words of a text** are those that it has with blanks between them. -/
theorem words_eq_iff {cs : List Char} {ws : List (List Char)} : words cs = ws ↔ Spaced ws cs := by
  constructor
  · rintro rfl
    exact spaced_wordsFrom [] cs (List.forall_mem_nil _)
  · intro h
    unfold words
    induction h with
    | blanks hgap =>
      have hnil := wordsFrom_gap hgap []
      rwa [List.append_nil] at hnil
    | word hgap hword hhead hrest ih =>
      obtain ⟨hne, hchars⟩ := hword
      rw [wordsFrom_gap hgap, wordsFrom_word hchars, List.append_nil,
        wordsFrom_of_head (by simpa using hne) hhead, List.reverse_reverse, ih]

/-- What is put together has the characters of the texts and what separates them. -/
theorem mem_joined {sep c : Char} {ps : List (List Char)} (h : c ∈ joined sep ps) :
    c = sep ∨ ∃ p ∈ ps, c ∈ p := by
  induction ps with
  | nil => cases h
  | cons p ps ih =>
    cases ps with
    | nil => exact .inr ⟨p, List.mem_cons_self, h⟩
    | cons q ps =>
      rw [joined, List.mem_append, List.mem_cons] at h
      rcases h with hp | rfl | h
      · exact .inr ⟨p, List.mem_cons_self, hp⟩
      · exact .inl rfl
      · rcases ih h with hsep | ⟨r, hr, hc⟩
        · exact .inl hsep
        · exact .inr ⟨r, List.mem_cons_of_mem _ hr, hc⟩

/-- Words with single spaces between them. -/
theorem spaced_joined {ws : List (List Char)} (h : ∀ w ∈ ws, IsWord w) :
    Spaced ws (joined ' ' ws) := by
  have hspace : isBlank ' ' = true := by decide
  induction ws with
  | nil => exact .blanks (by simp [joined])
  | cons w ws ih =>
    obtain ⟨hw, hws⟩ := List.forall_mem_cons.1 h
    have hrest := ih hws
    cases ws with
    | nil =>
      have hone := Spaced.first hw (by simp) (.blanks (List.forall_mem_nil _))
      rwa [List.append_nil] at hone
    | cons v ws =>
      exact .first hw (by simpa using hspace) (hrest.cons_blank hspace)

end Text

end Highlight
