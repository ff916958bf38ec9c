import Highlight.Text.Bytes
import Highlight.Text.Runs

/-!
# Texts with numbered characters

A search moves back and forth in a text, so the text's characters are kept in an array. A place is the
number of characters before it, and a table gives its offset. Every number names a place this way,
those past the end naming the end.

- `IndexedText`: a text with its characters and the offsets of its places.
- `IndexedText.ofText`: the table for a text.
- `IndexedText.charAt?`, `IndexedText.offset`, `IndexedText.place?`: the character behind a place, the
  offset of a place, and the place of an offset.
- `IndexedText.isBoundary_offset`: the offset of a place is a boundary of the text.
- `IndexedText.offset_lt_offset`, `IndexedText.le_of_offset_le`: places and offsets have one order.
-/

namespace Highlight

namespace Text

/-- The offsets of all places of a text that itself begins at an offset. -/
def offsetsFrom (start : Nat) : List Char → List Nat
  | [] => [start]
  | c :: cs => start :: offsetsFrom (start + c.utf8Size) cs

theorem offsetsFrom_ne_nil (start : Nat) (cs : List Char) : offsetsFrom start cs ≠ [] := by
  cases cs <;> simp [offsetsFrom]

/-- Each offset in the table is the length of a first part of the text. -/
theorem exists_split_of_mem_offsetsFrom {start n : Nat} {cs : List Char}
    (h : n ∈ offsetsFrom start cs) :
    ∃ before after, cs = before ++ after ∧ start + byteLength before = n := by
  induction cs generalizing start with
  | nil =>
    simp only [offsetsFrom, List.mem_singleton] at h
    exact ⟨[], [], rfl, by simp [h]⟩
  | cons c cs ih =>
    simp only [offsetsFrom, List.mem_cons] at h
    rcases h with rfl | h
    · exact ⟨[], c :: cs, rfl, by simp⟩
    · obtain ⟨before, after, rfl, hn⟩ := ih h
      exact ⟨c :: before, after, rfl, by simp only [byteLength_cons]; omega⟩

theorem length_offsetsFrom (start : Nat) (cs : List Char) :
    (offsetsFrom start cs).length = cs.length + 1 := by
  induction cs generalizing start with
  | nil => rfl
  | cons c cs ih => simp [offsetsFrom, ih]

/-- Offsets increase from the start of a text on. -/
theorem le_of_mem_offsetsFrom {start n : Nat} {cs : List Char} (h : n ∈ offsetsFrom start cs) :
    start ≤ n := by
  obtain ⟨before, -, -, hn⟩ := exists_split_of_mem_offsetsFrom h
  omega

/-- Each place has a greater offset than those before it. -/
theorem pairwise_offsetsFrom (start : Nat) (cs : List Char) :
    (offsetsFrom start cs).Pairwise (· < ·) := by
  induction cs generalizing start with
  | nil => simp [offsetsFrom]
  | cons c cs ih =>
    refine List.pairwise_cons.2 ⟨fun n hn => ?_, ih _⟩
    have hle := le_of_mem_offsetsFrom hn
    have hpos := c.utf8Size_pos
    omega

end Text

/-- A text whose characters are numbered. -/
structure IndexedText where
  text : List Char
  chars : Array Char
  /-- The offset of each place, in order. -/
  offsets : Array Nat
  chars_eq : chars = text.toArray
  offsets_eq : offsets = (Text.offsetsFrom 0 text).toArray

namespace IndexedText

/-- Numbers the characters of a text. -/
def ofText (text : List Char) : IndexedText :=
  ⟨text, text.toArray, (Text.offsetsFrom 0 text).toArray, rfl, rfl⟩

/-- The number of characters. -/
def size (t : IndexedText) : Nat := t.chars.size

/-- The number of bytes. -/
def byteLength (t : IndexedText) : Nat := t.offsets.back?.getD 0

/-- The character behind a place. -/
def charAt? (t : IndexedText) (place : Nat) : Option Char := t.chars[place]?

/-- The character in front of a place. -/
def charBefore? (t : IndexedText) (place : Nat) : Option Char :=
  if place = 0 then none else t.chars[place - 1]?

/-- The offset of a place. -/
def offset (t : IndexedText) (place : Nat) : Nat := t.offsets.getD place t.byteLength

/-- The place of an offset, if the offset names one. -/
def place? (t : IndexedText) (offset : Nat) : Option Nat :=
  let place := Text.lastAtMost (fun i => t.offsets.getD i 0) offset t.offsets.size 0 t.offsets.size
  if place < t.offsets.size && t.offset place == offset then some place else none

@[simp] theorem text_ofText (text : List Char) : (ofText text).text = text := rfl

theorem byteLength_mem (t : IndexedText) : t.byteLength ∈ Text.offsetsFrom 0 t.text := by
  have h : t.byteLength = ((Text.offsetsFrom 0 t.text).getLast?).getD 0 := by
    simp [byteLength, t.offsets_eq]
  rw [h, List.getLast?_eq_some_getLast (Text.offsetsFrom_ne_nil 0 t.text), Option.getD_some]
  exact List.getLast_mem _

/-- A place on the text has one of its offsets. -/
theorem offset_mem (t : IndexedText) (place : Nat) :
    t.offset place ∈ Text.offsetsFrom 0 t.text := by
  by_cases h : place < t.offsets.size
  · have h' : t.offset place = t.offsets[place] := by simp [offset, Array.getD, h]
    rw [h']
    have hm : t.offsets[place] ∈ t.offsets.toList := (Array.getElem_mem h).val
    have hl : t.offsets.toList = Text.offsetsFrom 0 t.text := by rw [t.offsets_eq]
    exact hl ▸ hm
  · have h' : t.offset place = t.byteLength := by simp [offset, Array.getD, h]
    rw [h']
    exact t.byteLength_mem

/-- A place never cuts a character in two. -/
theorem isBoundary_offset (t : IndexedText) (place : Nat) :
    Text.IsBoundary t.text (t.offset place) := by
  obtain ⟨before, after, h, hn⟩ := Text.exists_split_of_mem_offsetsFrom (t.offset_mem place)
  exact ⟨before, after, h, by omega⟩

/-- The place found for an offset has that offset. -/
theorem offset_of_place? {t : IndexedText} {offset place : Nat} (h : t.place? offset = some place) :
    t.offset place = offset := by
  simp only [place?] at h
  split at h
  · next hc =>
    simp only [Option.some.injEq] at h
    subst h
    simp only [Bool.and_eq_true, beq_iff_eq] at hc
    exact hc.2
  · simp at h

theorem size_offsets (t : IndexedText) : t.offsets.size = t.size + 1 := by
  simp [size, t.chars_eq, t.offsets_eq, Text.length_offsetsFrom]

/-- The place found for an offset is one of the text or its end. -/
theorem le_size_of_place? {t : IndexedText} {offset place : Nat} (h : t.place? offset = some place) :
    place ≤ t.size := by
  simp only [place?] at h
  split at h
  · next hc =>
    simp only [Option.some.injEq] at h
    subst h
    simp only [Bool.and_eq_true, decide_eq_true_eq, size_offsets] at hc
    rw [size_offsets]
    omega
  · simp at h

/-- Up to the end of the text, later places have greater offsets. -/
theorem offset_lt_offset {t : IndexedText} {a b : Nat} (hab : a < b) (hb : b ≤ t.size) :
    t.offset a < t.offset b := by
  have hsize := t.size_offsets
  have ha' : a < t.offsets.size := by omega
  have hb' : b < t.offsets.size := by omega
  have hpairwise := Text.pairwise_offsetsFrom 0 t.text
  have hlist : t.offsets.toList = Text.offsetsFrom 0 t.text := by rw [t.offsets_eq]
  rw [← hlist, List.pairwise_iff_getElem] at hpairwise
  have hlt := hpairwise a b (by simpa using ha') (by simpa using hb') hab
  simpa [offset, Array.getD, ha', hb'] using hlt

/-- A place of the text comes before another if its offset does. -/
theorem le_of_offset_le {t : IndexedText} {a b : Nat} (ha : a ≤ t.size)
    (h : t.offset a ≤ t.offset b) : a ≤ b := by
  rcases Nat.lt_or_ge b a with hlt | hle
  · exact absurd (offset_lt_offset hlt ha) (Nat.not_lt.2 h)
  · exact hle

end IndexedText

end Highlight
