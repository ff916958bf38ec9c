/-!
# Byte offsets into a text

A text is a list of characters, and a place in it is named by the number of UTF-8 bytes that come
before it. Not every number names a place: one past the end does not, and neither does one that
would cut a character in two.

- `byteLength`: the number of bytes of a text.
- `dropBytes?`, `takeBytes?`: the text after or before an offset, if the offset names a place.
- `slice?`: the text between two offsets.
- `IsBoundary`: the offsets that name a place, said without either function.
- `dropBytes?_eq_some_iff`, `takeBytes?_eq_some_iff`: the two cuts answer exactly at boundaries, and
  there they cut the text in two without losing anything.
-/

namespace Highlight

namespace Text

/-- The number of bytes of a text in UTF-8. -/
def byteLength : List Char → Nat
  | [] => 0
  | c :: cs => c.utf8Size + byteLength cs

@[simp] theorem byteLength_nil : byteLength [] = 0 := rfl

@[simp] theorem byteLength_cons (c : Char) (cs : List Char) :
    byteLength (c :: cs) = c.utf8Size + byteLength cs := rfl

@[simp] theorem byteLength_append (as bs : List Char) :
    byteLength (as ++ bs) = byteLength as + byteLength bs := by
  induction as with
  | nil => simp
  | cons a as ih => simp [ih, Nat.add_assoc]

@[simp] theorem byteLength_reverse (cs : List Char) : byteLength cs.reverse = byteLength cs := by
  induction cs with
  | nil => rfl
  | cons c cs ih => simp [ih, Nat.add_comm]

/-- Each character takes a byte at least. -/
theorem byteLength_eq_zero_iff {cs : List Char} : byteLength cs = 0 ↔ cs = [] := by
  cases cs with
  | nil => simp
  | cons c cs =>
    have := c.utf8Size_pos
    simp only [byteLength_cons, reduceCtorEq, iff_false]
    omega

/-- An offset names a place of a text when some first part of the text is that long. -/
def IsBoundary (text : List Char) (offset : Nat) : Prop :=
  ∃ before after, text = before ++ after ∧ byteLength before = offset

theorem isBoundary_zero (text : List Char) : IsBoundary text 0 := ⟨[], text, rfl, rfl⟩

theorem isBoundary_byteLength (text : List Char) : IsBoundary text (byteLength text) :=
  ⟨text, [], by simp, rfl⟩

/-- No place lies behind the end of a text. -/
theorem IsBoundary.le {text : List Char} {offset : Nat} (h : IsBoundary text offset) :
    offset ≤ byteLength text := by
  obtain ⟨before, after, rfl, rfl⟩ := h
  simp

/-- The text after the first `n` bytes, unless `n` is past the end or inside a character. -/
def dropBytes? (n : Nat) : List Char → Option (List Char)
  | [] => if n = 0 then some [] else none
  | c :: cs =>
    if n = 0 then some (c :: cs)
    else if c.utf8Size ≤ n then dropBytes? (n - c.utf8Size) cs
    else none

/-- The first `n` bytes of the text, unless `n` is past the end or inside a character. -/
def takeBytes? (n : Nat) : List Char → Option (List Char)
  | [] => if n = 0 then some [] else none
  | c :: cs =>
    if n = 0 then some []
    else if c.utf8Size ≤ n then (takeBytes? (n - c.utf8Size) cs).map (c :: ·)
    else none

/-- The text between two offsets, unless they are out of order or one of them names no place. -/
def slice? (text : List Char) (start stop : Nat) : Option (List Char) :=
  if start ≤ stop then (dropBytes? start text).bind (takeBytes? (stop - start)) else none

/-- The offset of the place one character after a place, or one past the offset given when the
text has no character there. -/
def nextPlace (text : List Char) (offset : Nat) : Nat :=
  match dropBytes? offset text with
  | some (c :: _) => offset + c.utf8Size
  | _ => offset + 1

/-- Dropping bytes cuts a text in two at the boundary behind them. -/
theorem dropBytes?_eq_some_iff {n : Nat} {text rest : List Char} :
    dropBytes? n text = some rest ↔ ∃ before, text = before ++ rest ∧ byteLength before = n := by
  induction text generalizing n with
  | nil =>
    by_cases h : n = 0
    · subst h
      simp only [dropBytes?, if_true, Option.some.injEq]
      constructor
      · rintro rfl
        exact ⟨[], rfl, rfl⟩
      · rintro ⟨before, heq, -⟩
        simp at heq
        exact heq.2.symm
    · simp only [dropBytes?, h, if_false, reduceCtorEq, false_iff]
      rintro ⟨before, heq, rfl⟩
      simp at heq
      simp [heq.1] at h
  | cons c cs ih =>
    have hc := c.utf8Size_pos
    by_cases h : n = 0
    · subst h
      simp only [dropBytes?, if_true, Option.some.injEq]
      constructor
      · rintro rfl
        exact ⟨[], rfl, rfl⟩
      · rintro ⟨before, heq, hlen⟩
        rw [byteLength_eq_zero_iff] at hlen
        simpa [hlen] using heq
    · by_cases hle : c.utf8Size ≤ n
      · simp only [dropBytes?, h, hle, if_false, if_true, ih]
        constructor
        · rintro ⟨before, rfl, hlen⟩
          exact ⟨c :: before, rfl, by simp [hlen]; omega⟩
        · rintro ⟨before, heq, hlen⟩
          cases before with
          | nil => simp at hlen; omega
          | cons b before =>
            simp only [List.cons_append, List.cons.injEq] at heq
            obtain ⟨rfl, rfl⟩ := heq
            exact ⟨before, rfl, by simp at hlen; omega⟩
      · simp only [dropBytes?, h, hle, if_false, reduceCtorEq, false_iff]
        rintro ⟨before, heq, hlen⟩
        cases before with
        | nil => simp at hlen; omega
        | cons b before =>
          simp only [List.cons_append, List.cons.injEq] at heq
          obtain ⟨rfl, rfl⟩ := heq
          simp at hlen
          omega

/-- Taking bytes cuts a text in two at the boundary behind them. -/
theorem takeBytes?_eq_some_iff {n : Nat} {text part : List Char} :
    takeBytes? n text = some part ↔ ∃ after, text = part ++ after ∧ byteLength part = n := by
  induction text generalizing n part with
  | nil =>
    by_cases h : n = 0
    · subst h
      simp only [takeBytes?, if_true, Option.some.injEq]
      constructor
      · rintro rfl
        exact ⟨[], rfl, rfl⟩
      · rintro ⟨after, heq, -⟩
        simp at heq
        exact heq.1.symm
    · simp only [takeBytes?, h, if_false, reduceCtorEq, false_iff]
      rintro ⟨after, heq, rfl⟩
      simp at heq
      simp [heq.1] at h
  | cons c cs ih =>
    have hc := c.utf8Size_pos
    by_cases h : n = 0
    · subst h
      simp only [takeBytes?, if_true, Option.some.injEq]
      constructor
      · rintro rfl
        exact ⟨c :: cs, rfl, rfl⟩
      · rintro ⟨after, -, hlen⟩
        exact (byteLength_eq_zero_iff.1 hlen).symm
    · by_cases hle : c.utf8Size ≤ n
      · simp only [takeBytes?, h, hle, if_false, if_true, Option.map_eq_some_iff, ih]
        constructor
        · rintro ⟨p, ⟨after, rfl, hlen⟩, rfl⟩
          exact ⟨after, rfl, by simp [hlen]; omega⟩
        · rintro ⟨after, heq, hlen⟩
          cases part with
          | nil => simp at hlen; omega
          | cons b p =>
            simp only [List.cons_append, List.cons.injEq] at heq
            obtain ⟨rfl, rfl⟩ := heq
            exact ⟨p, ⟨after, rfl, by simp at hlen; omega⟩, rfl⟩
      · simp only [takeBytes?, h, hle, if_false, reduceCtorEq, false_iff]
        rintro ⟨after, heq, hlen⟩
        cases part with
        | nil => simp at hlen; omega
        | cons b p =>
          simp only [List.cons_append, List.cons.injEq] at heq
          obtain ⟨rfl, rfl⟩ := heq
          simp at hlen
          omega

end Text

end Highlight
