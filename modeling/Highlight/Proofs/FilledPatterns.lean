import Highlight.Pattern
import Mathlib.Data.List.Basic

/-!
# Captured text stays text

The pattern that ends a region can name groups of the match that opened it. Their text is filled in with
its special characters escaped, and what comes out is read as a pattern once more. It is read piece by
piece: no text that was filled in goes together with what stands around it, and within that text every
item stands for its character. So captured text becomes neither an anchor nor a back-reference, and the
anchors of the pattern can be replaced before it is filled in or afterwards.

- `Pattern.map_char_items_quoted`: a quoted text is read as the text.
- `Pattern.Piece`, `Pattern.pieces`: a pattern as items and back-references.
- `Pattern.fillBackReferences_eq_flatMap`: filling in, piece by piece.
- `Pattern.items_flatMap_pieces`: pieces do not go together with each other.
- `Pattern.AreInert.filter_fillBackReferences`: the anchors are those of the pattern.
- `Pattern.le_digitsValue_of_mem_pieces`: the back-references that are left.
- `Pattern.AreInert.replaceEscapes_fillBackReferences`: anchors replaced before or afterwards.
- `Pattern.captured_text_stays_text`: all of it.
-/

namespace Highlight

namespace Pattern

/-! ## Items -/

theorem items_cons_of_ne {c : Char} (h : c ≠ '\\') (rest : List Char) :
    items (c :: rest) = .plain c :: items rest := by
  rw [items]
  rintro d rest' rfl
  exact absurd rfl h

/-! ## Quoted text -/

/-- The item that stands for a character in a quoted text. -/
def Item.quoting (c : Char) : Item := if isSpecial c then .pair c else .plain c

theorem quoted_cons (c : Char) (text : List Char) :
    quoted (c :: text) = (Item.quoting c).chars ++ quoted text := by
  rw [quoted, Item.quoting]
  split
  · rfl
  · rfl

/-- The backslash is special, so a character by itself is another one. -/
theorem quoting_cases (c : Char) :
    isSpecial c = true ∧ Item.quoting c = .pair c ∨ c ≠ '\\' ∧ Item.quoting c = .plain c := by
  unfold Item.quoting
  by_cases hspecial : isSpecial c = true
  · exact .inl ⟨hspecial, if_pos hspecial⟩
  · refine .inr ⟨?_, if_neg hspecial⟩
    rintro rfl
    exact hspecial (by decide)

theorem char_quoting (c : Char) : (Item.quoting c).char = c := by
  rcases quoting_cases c with ⟨-, hc⟩ | ⟨-, hc⟩
  · rw [hc, Item.char]
  · rw [hc, Item.char]

/-- A quoted text does not go together with what stands behind it. -/
theorem items_quoted_append (text rest : List Char) :
    items (quoted text ++ rest) = text.map Item.quoting ++ items rest := by
  induction text with
  | nil => rfl
  | cons c text ih =>
    rw [quoted_cons, List.append_assoc, List.map_cons, List.cons_append, ← ih]
    rcases quoting_cases c with ⟨-, hc⟩ | ⟨hne, hc⟩
    · rw [hc]
      rfl
    · rw [hc]
      exact items_cons_of_ne hne _

theorem items_quoted (text : List Char) : items (quoted text) = text.map Item.quoting := by
  have happend := items_quoted_append text []
  rwa [List.append_nil, items, List.append_nil] at happend

/-- **A quoted text is read as the text**: its characters and pairs stand for its characters. -/
theorem map_char_items_quoted (text : List Char) : (items (quoted text)).map Item.char = text := by
  rw [items_quoted, List.map_map]
  exact (List.map_congr_left fun c _ => char_quoting c).trans (List.map_id text)

/-- Only special characters are escaped. -/
theorem isSpecial_of_pair_mem {c : Char} {text : List Char}
    (h : Item.pair c ∈ items (quoted text)) : isSpecial c = true := by
  rw [items_quoted] at h
  obtain ⟨d, -, hd⟩ := List.mem_map.1 h
  rcases quoting_cases d with ⟨hspecial, hpair⟩ | ⟨-, hplain⟩
  · rw [hpair] at hd
    cases hd
    exact hspecial
  · rw [hplain] at hd
    cases hd

/-! ## Back-references -/

/-- A part of a pattern in which back-references may be filled in. -/
inductive Piece where
  | item (i : Item)
  /-- A back-reference, with all digits that stand behind the backslash. -/
  | reference (digits : List Char)
deriving DecidableEq

/-- The characters of a piece. -/
def Piece.chars : Piece → List Char
  | .item i => i.chars
  | .reference digits => '\\' :: digits

/-- What a piece is replaced by when captured text is filled in: a back-reference by a pattern for the
text that its group took, or by nothing if it took none. One whose number is too large for any group is
left alone. -/
def Piece.filled (text : List Char) (groups : Groups) : Piece → List Char
  | .item i => i.chars
  | .reference digits =>
    if Text.digitsValue digits < UInt64.size then
      quoted ((groups.text? text (Text.digitsValue digits)).getD [])
    else '\\' :: digits

/-- A pattern as pieces, from left to right. -/
def pieces : List Char → List Piece
  | [] => []
  | '\\' :: c :: rest =>
    if beginsReference c then
      .reference (c :: rest.takeWhile Text.isDigit) :: pieces (rest.dropWhile Text.isDigit)
    else .item (.pair c) :: pieces rest
  | c :: rest => .item (.plain c) :: pieces rest
termination_by cs => cs.length
decreasing_by
  · have hle := (List.dropWhile_suffix (l := rest) Text.isDigit).length_le
    simp only [List.length_cons]
    omega
  · simp only [List.length_cons]
    omega
  · simp only [List.length_cons]
    omega

theorem pieces_cons_of_ne {c : Char} (h : c ≠ '\\') (rest : List Char) :
    pieces (c :: rest) = .item (.plain c) :: pieces rest := by
  rw [pieces]
  rintro d rest' rfl
  exact absurd rfl h

/-- A backslash at the very end stands by itself. -/
theorem pieces_backslash : pieces ['\\'] = [.item (.plain '\\')] := by
  rw [pieces.eq_3 _ _ (by nofun), pieces]

theorem isDigit_of_beginsReference {c : Char} (h : beginsReference c = true) :
    Text.isDigit c = true :=
  (Bool.and_eq_true_iff.1 h).1

/-- The backslash does not stand for itself, nor do digits ask to be escaped. -/
theorem ne_backslash_of_isDigit {c : Char} (h : Text.isDigit c = true) : c ≠ '\\' := by
  rintro rfl
  exact absurd h (by decide)

/-- The digits of a back-reference. -/
def IsNumber (digits : List Char) : Prop :=
  ∃ c rest, digits = c :: rest ∧ beginsReference c = true ∧ ∀ d ∈ rest, Text.isDigit d = true

theorem isNumber_takeWhile {c : Char} (h : beginsReference c = true) (rest : List Char) :
    IsNumber (c :: rest.takeWhile Text.isDigit) :=
  ⟨c, _, rfl, h, List.all_eq_true.1 List.all_takeWhile⟩

theorem isNumber_of_mem_pieces {digits cs : List Char} (h : .reference digits ∈ pieces cs) :
    IsNumber digits := by
  induction cs using pieces.induct with
  | case1 =>
    rw [pieces] at h
    cases h
  | case2 c rest hreference ih =>
    rw [pieces, if_pos hreference] at h
    rcases List.mem_cons.1 h with heq | h
    · cases heq
      exact isNumber_takeWhile hreference rest
    · exact ih h
  | case3 c rest hpair ih =>
    rw [pieces, if_neg hpair] at h
    rcases List.mem_cons.1 h with heq | h
    · cases heq
    · exact ih h
  | case4 c rest hplain ih =>
    rw [pieces.eq_3 c rest hplain] at h
    rcases List.mem_cons.1 h with heq | h
    · cases heq
    · exact ih h

/-- What pieces spell is what they were read from. -/
theorem flatMap_chars_pieces (cs : List Char) : (pieces cs).flatMap Piece.chars = cs := by
  induction cs using pieces.induct with
  | case1 =>
    rw [pieces]
    rfl
  | case2 c rest hreference ih =>
    rw [pieces, if_pos hreference, List.flatMap_cons, ih]
    show '\\' :: c :: (rest.takeWhile Text.isDigit ++ rest.dropWhile Text.isDigit) = _
    rw [List.takeWhile_append_dropWhile]
  | case3 c rest hpair ih =>
    rw [pieces, if_neg hpair, List.flatMap_cons, ih]
    rfl
  | case4 c rest hplain ih =>
    rw [pieces.eq_3 c rest hplain, List.flatMap_cons, ih]
    rfl

/-! ## Filling in -/

theorem fillFrom_cons_of_ne {c : Char} (h : c ≠ '\\') (text : List Char) (groups : Groups)
    (skip : Bool) (rest : List Char) :
    fillFrom text groups skip (c :: rest) =
      if skip && Text.isDigit c then fillFrom text groups true rest
      else c :: fillFrom text groups false rest := by
  rw [fillFrom]
  rintro d rest' rfl
  exact absurd rfl h

/-- Digits that are to be left out are left out. -/
theorem fillFrom_true (text : List Char) (groups : Groups) (cs : List Char) :
    fillFrom text groups true cs =
      fillFrom text groups false (cs.dropWhile Text.isDigit) := by
  induction cs with
  | nil => rfl
  | cons c rest ih =>
    by_cases hdigit : Text.isDigit c = true
    · rw [List.dropWhile_cons_of_pos hdigit, ← ih,
        fillFrom_cons_of_ne (ne_backslash_of_isDigit hdigit), Bool.true_and, if_pos hdigit]
    · rw [List.dropWhile_cons_of_neg hdigit]
      by_cases hne : c = '\\'
      · subst hne
        cases rest with
        | nil => rfl
        | cons d rest => rfl
      · rw [fillFrom_cons_of_ne hne, fillFrom_cons_of_ne hne, Bool.true_and, Bool.false_and,
          if_neg hdigit, if_neg Bool.false_ne_true]

/-- Other digits are kept. -/
theorem fillFrom_false (text : List Char) (groups : Groups) (cs : List Char) :
    fillFrom text groups false cs = cs.takeWhile Text.isDigit ++
      fillFrom text groups false (cs.dropWhile Text.isDigit) := by
  induction cs with
  | nil => rfl
  | cons c rest ih =>
    by_cases hdigit : Text.isDigit c = true
    · rw [List.takeWhile_cons_of_pos hdigit, List.dropWhile_cons_of_pos hdigit, List.cons_append,
        ← ih, fillFrom_cons_of_ne (ne_backslash_of_isDigit hdigit), Bool.false_and,
        if_neg Bool.false_ne_true]
    · rw [List.takeWhile_cons_of_neg hdigit, List.dropWhile_cons_of_neg hdigit, List.nil_append]

/-- **Back-references are filled in piece by piece.** -/
theorem fillBackReferences_eq_flatMap (text : List Char) (groups : Groups) (cs : List Char) :
    fillBackReferences text groups cs = (pieces cs).flatMap (Piece.filled text groups) := by
  unfold fillBackReferences
  induction cs using pieces.induct with
  | case1 =>
    rw [pieces]
    rfl
  | case2 c rest hreference ih =>
    rw [pieces, if_pos hreference, List.flatMap_cons, ← ih, fillFrom, hreference, Bool.true_and,
      Piece.filled]
    by_cases hfits : Text.digitsValue (c :: rest.takeWhile Text.isDigit) < UInt64.size
    · rw [if_pos (decide_eq_true hfits), if_pos hfits, fillFrom_true]
    · rw [if_neg (by simpa using hfits), if_neg hfits, fillFrom_false]
      rfl
  | case3 c rest hpair ih =>
    rw [pieces, if_neg hpair, List.flatMap_cons, ← ih, fillFrom, Bool.eq_false_iff.2 hpair,
      Bool.false_and, if_neg Bool.false_ne_true]
    rfl
  | case4 c rest hplain ih =>
    rw [pieces.eq_3 c rest hplain, List.flatMap_cons, ← ih, fillFrom.eq_3 _ _ _ c rest hplain,
      Bool.false_and, if_neg Bool.false_ne_true]
    rfl

/-! ## Reading what comes out -/

/-- Digits are items by themselves. -/
theorem items_digits_append {digits : List Char} (h : ∀ d ∈ digits, Text.isDigit d = true)
    (rest : List Char) : items (digits ++ rest) = digits.map Item.plain ++ items rest := by
  induction digits with
  | nil => rfl
  | cons d digits ih =>
    obtain ⟨hd, hdigits⟩ := List.forall_mem_cons.1 h
    rw [List.cons_append, items_cons_of_ne (ne_backslash_of_isDigit hd), ih hdigits]
    rfl

/-- A back-reference that is left alone is read as a pair and digits. -/
theorem items_reference_append {digits : List Char} (h : IsNumber digits) (rest : List Char) :
    items ('\\' :: digits ++ rest) = items ('\\' :: digits) ++ items rest := by
  obtain ⟨c, digits, rfl, -, hdigits⟩ := h
  have hnil := items_digits_append hdigits []
  rw [List.append_nil] at hnil
  show Item.pair c :: items (digits ++ rest) = Item.pair c :: items digits ++ items rest
  rw [items_digits_append hdigits, hnil]
  show _ = Item.pair c :: (digits.map Item.plain ++ [] ++ items rest)
  rw [List.append_nil]

theorem items_filled_append (text : List Char) (groups : Groups) {digits : List Char}
    (h : IsNumber digits) (rest : List Char) :
    items (Piece.filled text groups (.reference digits) ++ rest) =
      items (Piece.filled text groups (.reference digits)) ++ items rest := by
  rw [Piece.filled]
  split
  · rw [items_quoted_append, items_quoted]
  · exact items_reference_append h rest

/-- **Pieces do not go together with each other**, when items stay what they are and what takes the
place of a back-reference does not go together with what stands behind it. -/
theorem items_flatMap_pieces {f : Piece → List Char} (hitem : ∀ i, f (.item i) = i.chars)
    (hreference : ∀ digits, IsNumber digits → ∀ rest,
      items (f (.reference digits) ++ rest) = items (f (.reference digits)) ++ items rest)
    (cs : List Char) :
    items ((pieces cs).flatMap f) = (pieces cs).flatMap fun p => items (f p) := by
  induction cs using pieces.induct with
  | case1 =>
    rw [pieces]
    rfl
  | case2 c rest hbegins ih =>
    rw [pieces, if_pos hbegins, List.flatMap_cons, List.flatMap_cons,
      hreference _ (isNumber_takeWhile hbegins rest), ih]
  | case3 c rest hpair ih =>
    rw [pieces, if_neg hpair, List.flatMap_cons, List.flatMap_cons, ← ih, hitem]
    rfl
  | case4 c rest hplain ih =>
    rw [pieces.eq_3 c rest hplain, List.flatMap_cons, List.flatMap_cons, ← ih, hitem]
    by_cases hne : c = '\\'
    · -- a backslash by itself is the last character
      cases rest with
      | nil =>
        subst hne
        rw [pieces]
        rfl
      | cons d rest => exact absurd rfl (hplain d rest hne)
    · show items (c :: _) = items [c] ++ _
      rw [items_cons_of_ne hne, items_cons_of_ne hne]
      rfl

/-- Whether an item is a pair with one of the letters. -/
def Item.has (letters : List Char) : Item → Bool
  | .plain _ => false
  | .pair c => letters.contains c

/-- Letters that are neither escaped in a quoted text nor the beginning of a back-reference. -/
def AreInert (letters : List Char) : Prop :=
  ∀ c ∈ letters, isSpecial c = false ∧ beginsReference c = false

instance (letters : List Char) : Decidable (AreInert letters) :=
  -- by going through the letters, not through all characters
  List.decidableBAll _ letters

variable {letters : List Char}

theorem AreInert.has_of_quoted (h : AreInert letters) {text : List Char} {i : Item}
    (hi : i ∈ items (quoted text)) : i.has letters = false := by
  cases i with
  | plain c => rfl
  | pair c =>
    show letters.contains c = false
    rw [List.contains_eq_mem, decide_eq_false_iff_not]
    intro hc
    have hspecial := isSpecial_of_pair_mem hi
    rw [(h c hc).1] at hspecial
    cases hspecial

theorem AreInert.has_of_reference (h : AreInert letters) {digits : List Char}
    (hdigits : IsNumber digits) {i : Item} (hi : i ∈ items ('\\' :: digits)) :
    i.has letters = false := by
  obtain ⟨c, digits, rfl, hbegins, hdigits⟩ := hdigits
  have hrest := items_digits_append hdigits []
  rw [List.append_nil] at hrest
  rcases List.mem_cons.1 hi with rfl | hi
  · show letters.contains c = false
    rw [List.contains_eq_mem, decide_eq_false_iff_not]
    intro hc
    rw [(h c hc).2] at hbegins
    cases hbegins
  · rw [hrest, items, List.append_nil] at hi
    obtain ⟨d, -, rfl⟩ := List.mem_map.1 hi
    rfl

/-- Nothing that takes the place of a back-reference has a pair with one of the letters, nor has the
back-reference. -/
theorem AreInert.filter_reference (h : AreInert letters) {digits : List Char}
    (hdigits : IsNumber digits) (text : List Char) (groups : Groups) :
    (items (Piece.filled text groups (.reference digits))).filter (Item.has letters) =
      (items (Piece.chars (.reference digits))).filter (Item.has letters) := by
  have hreference : (items ('\\' :: digits)).filter (Item.has letters) = [] := by
    rw [List.filter_eq_nil_iff]
    intro i hi
    rw [h.has_of_reference hdigits hi]
    exact Bool.false_ne_true
  show _ = (items ('\\' :: digits)).filter (Item.has letters)
  rw [Piece.filled]
  split
  · rw [hreference, List.filter_eq_nil_iff]
    intro i hi
    rw [h.has_of_quoted hi]
    exact Bool.false_ne_true
  · rfl

/-- **The pairs with one of the letters are those of the pattern**, in their order. -/
theorem AreInert.filter_fillBackReferences (h : AreInert letters) (text : List Char)
    (groups : Groups) (cs : List Char) :
    (items (fillBackReferences text groups cs)).filter (Item.has letters) =
      (items cs).filter (Item.has letters) := by
  have hread : items cs = (pieces cs).flatMap fun p => items p.chars := by
    have hpieces := items_flatMap_pieces (f := Piece.chars) (fun _ => rfl)
      (fun _ => items_reference_append) cs
    rwa [flatMap_chars_pieces] at hpieces
  rw [fillBackReferences_eq_flatMap, items_flatMap_pieces (fun _ => rfl)
    (fun _ => items_filled_append text groups), hread, List.filter_flatMap, List.filter_flatMap]
  refine List.flatMap_congr fun p hp => ?_
  cases p with
  | item i => rfl
  | reference digits => exact h.filter_reference (isNumber_of_mem_pieces hp) text groups

/-! ## Back-references in what comes out -/

theorem isSpecial_of_isDigit {c : Char} (h : Text.isDigit c = true) : isSpecial c = false := by
  have hrange : 48 ≤ c.toNat ∧ c.toNat ≤ 57 := by
    obtain ⟨hlow, hhigh⟩ := Bool.and_eq_true_iff.1 h
    exact ⟨of_decide_eq_true hlow, of_decide_eq_true hhigh⟩
  have hblank : Text.isBlank c = false := by
    simp only [Text.isBlank, Bool.or_eq_false_iff, Bool.and_eq_false_iff, decide_eq_false_iff_not,
      beq_eq_false_iff_ne]
    omega
  have hlisted : ("-\\\x7b\x7d*+?|^$.,[]()#".toList.all fun d => d.toNat < 48 || 57 < d.toNat) = true := by
    decide
  rw [isSpecial, hblank, Bool.or_false, List.contains_eq_mem, decide_eq_false_iff_not]
  intro hmem
  have houtside := List.all_eq_true.1 hlisted c hmem
  simp only [Bool.or_eq_true, decide_eq_true_eq] at houtside
  omega

/-- A quoted text has no back-references, and none begins in it. -/
theorem pieces_quoted_append (text rest : List Char) :
    pieces (quoted text ++ rest) = (text.map Item.quoting).map Piece.item ++ pieces rest := by
  induction text with
  | nil => rfl
  | cons c text ih =>
    rw [quoted_cons, List.append_assoc, List.map_cons, List.map_cons, List.cons_append, ← ih]
    rcases quoting_cases c with ⟨hspecial, hc⟩ | ⟨hne, hc⟩
    · have hbegins : ¬ beginsReference c = true := by
        intro hbegins
        rw [isSpecial_of_isDigit (isDigit_of_beginsReference hbegins)] at hspecial
        cases hspecial
      rw [hc]
      show pieces ('\\' :: c :: (quoted text ++ rest)) = _
      rw [pieces, if_neg hbegins]
    · rw [hc]
      exact pieces_cons_of_ne hne _

/-- Digits by themselves are no back-reference. -/
theorem mem_pieces_of_dropWhile {digits cs : List Char}
    (h : .reference digits ∈ pieces (cs.dropWhile Text.isDigit)) :
    .reference digits ∈ pieces cs := by
  induction cs with
  | nil => exact h
  | cons c rest ih =>
    by_cases hdigit : Text.isDigit c = true
    · rw [List.dropWhile_cons_of_pos hdigit] at h
      rw [pieces_cons_of_ne (ne_backslash_of_isDigit hdigit)]
      exact List.mem_cons_of_mem _ (ih h)
    · rwa [List.dropWhile_cons_of_neg hdigit] at h

/-- More digits do not make a number smaller. -/
theorem digitsValue_le_append (digits more : List Char) :
    Text.digitsValue digits ≤ Text.digitsValue (digits ++ more) := by
  unfold Text.digitsValue
  rw [List.foldl_append]
  generalize digits.foldl _ 0 = n
  induction more generalizing n with
  | nil => exact Nat.le_refl n
  | cons d more ih =>
    refine Nat.le_trans ?_ (ih _)
    show n ≤ 10 * n + Text.digitValue d
    omega

/-- **No back-reference is left** but those whose number is too large for any group. -/
theorem le_digitsValue_of_mem_pieces {text : List Char} {groups : Groups} {digits cs : List Char}
    (h : .reference digits ∈ pieces (fillBackReferences text groups cs)) :
    UInt64.size ≤ Text.digitsValue digits := by
  rw [fillBackReferences_eq_flatMap] at h
  induction cs using pieces.induct with
  | case1 =>
    rw [pieces, List.flatMap_nil, pieces] at h
    cases h
  | case2 c rest hbegins ih =>
    rw [pieces, if_pos hbegins, List.flatMap_cons, Piece.filled] at h
    split at h
    · rw [pieces_quoted_append] at h
      rcases List.mem_append.1 h with h | h
      · obtain ⟨_, -, heq⟩ := List.mem_map.1 h
        cases heq
      · exact ih h
    · rename_i hlarge
      -- the digits of captured text may follow those of the number
      rw [List.cons_append, List.cons_append, pieces, if_pos hbegins] at h
      rcases List.mem_cons.1 h with heq | h
      · cases heq
        rw [List.takeWhile_append_of_pos (List.all_eq_true.1 List.all_takeWhile), ← List.cons_append]
        exact Nat.le_trans (Nat.not_lt.1 hlarge) (digitsValue_le_append _ _)
      · rw [List.dropWhile_append_of_pos (List.all_eq_true.1 List.all_takeWhile)] at h
        exact ih (mem_pieces_of_dropWhile h)
  | case3 c rest hpair ih =>
    rw [pieces, if_neg hpair, List.flatMap_cons] at h
    change _ ∈ pieces ('\\' :: c :: _) at h
    rw [pieces, if_neg hpair] at h
    rcases List.mem_cons.1 h with heq | h
    · cases heq
    · exact ih h
  | case4 c rest hplain ih =>
    rw [pieces.eq_3 c rest hplain, List.flatMap_cons] at h
    change _ ∈ pieces (c :: _) at h
    by_cases hne : c = '\\'
    · cases rest with
      | nil =>
        subst hne
        rw [pieces, List.flatMap_nil] at h
        change _ ∈ pieces ['\\'] at h
        rw [pieces_backslash] at h
        rcases List.mem_cons.1 h with heq | h
        · cases heq
        · cases h
      | cons d rest => exact absurd rfl (hplain d rest hne)
    · rw [pieces_cons_of_ne hne] at h
      rcases List.mem_cons.1 h with heq | h
      · cases heq
      · exact ih h

/-! ## Anchors before and afterwards -/

theorem replaceEscapes_cons_of_ne {c : Char} (h : c ≠ '\\') (letters replacement rest : List Char) :
    replaceEscapes letters replacement (c :: rest) =
      c :: replaceEscapes letters replacement rest := by
  rw [replaceEscapes]
  rintro d rest' rfl
  exact absurd rfl h

/-- What takes the place of an anchor is kept when captured text is filled in. -/
theorem fillFrom_neverMatches_append (text : List Char) (groups : Groups) (rest : List Char) :
    fillFrom text groups false (neverMatches ++ rest) =
      neverMatches ++ fillFrom text groups false rest := by
  show fillFrom text groups false (Char.ofNat 0xFFFF :: rest) = _
  rw [fillFrom_cons_of_ne (by decide), Bool.false_and, if_neg Bool.false_ne_true]
  rfl

/-- The digits that a pattern begins with are those it begins with after replacing anchors. -/
theorem takeWhile_replaceEscapes (letters cs : List Char) :
    (replaceEscapes letters neverMatches cs).takeWhile Text.isDigit = cs.takeWhile Text.isDigit := by
  induction cs using items.induct with
  | case1 => rfl
  | case2 c rest _ =>
    rw [replaceEscapes]
    split
    · rfl
    · rfl
  | case3 c rest hpair ih =>
    rw [replaceEscapes.eq_3 _ _ c rest hpair, List.takeWhile_cons, List.takeWhile_cons, ih]

theorem dropWhile_replaceEscapes (letters cs : List Char) :
    (replaceEscapes letters neverMatches cs).dropWhile Text.isDigit =
      replaceEscapes letters neverMatches (cs.dropWhile Text.isDigit) := by
  induction cs with
  | nil => rfl
  | cons c rest ih =>
    by_cases hdigit : Text.isDigit c = true
    · rw [replaceEscapes_cons_of_ne (ne_backslash_of_isDigit hdigit),
        List.dropWhile_cons_of_pos hdigit, List.dropWhile_cons_of_pos hdigit, ih]
    · have hnone : (c :: rest).takeWhile Text.isDigit = [] := List.takeWhile_cons_of_neg hdigit
      rw [List.dropWhile_cons_of_neg hdigit]
      -- no digit was in front, so none is
      rw [← takeWhile_replaceEscapes letters] at hnone
      have hsplit := List.takeWhile_append_dropWhile (p := Text.isDigit)
        (l := replaceEscapes letters neverMatches (c :: rest))
      rwa [hnone, List.nil_append] at hsplit

theorem replaceEscapes_digits_append (letters replacement : List Char) {digits : List Char}
    (h : ∀ d ∈ digits, Text.isDigit d = true) (rest : List Char) :
    replaceEscapes letters replacement (digits ++ rest) =
      digits ++ replaceEscapes letters replacement rest := by
  induction digits with
  | nil => rfl
  | cons d digits ih =>
    obtain ⟨hd, hdigits⟩ := List.forall_mem_cons.1 h
    rw [List.cons_append, replaceEscapes_cons_of_ne (ne_backslash_of_isDigit hd), ih hdigits]
    rfl

theorem AreInert.replaceEscapes_pair (h : AreInert letters) {c : Char}
    (hc : isSpecial c = true ∨ beginsReference c = true) (replacement rest : List Char) :
    replaceEscapes letters replacement ('\\' :: c :: rest) =
      '\\' :: c :: replaceEscapes letters replacement rest := by
  have hnot : ¬ letters.contains c = true := by
    rw [List.contains_iff_mem]
    intro hmem
    rcases hc with hc | hc
    · exact absurd hc (Bool.eq_false_iff.1 (h c hmem).1)
    · exact absurd hc (Bool.eq_false_iff.1 (h c hmem).2)
  rw [replaceEscapes, if_neg hnot]

theorem AreInert.replaceEscapes_quoted_append (h : AreInert letters)
    (replacement text rest : List Char) :
    replaceEscapes letters replacement (quoted text ++ rest) =
      quoted text ++ replaceEscapes letters replacement rest := by
  induction text with
  | nil => rfl
  | cons c text ih =>
    rw [quoted_cons, List.append_assoc, List.append_assoc, ← ih]
    rcases quoting_cases c with ⟨hspecial, hc⟩ | ⟨hne, hc⟩
    · rw [hc]
      exact h.replaceEscapes_pair (.inl hspecial) replacement _
    · rw [hc]
      exact replaceEscapes_cons_of_ne hne letters replacement _

/-- **Anchors are replaced before captured text is filled in or afterwards**, to the same effect. -/
theorem AreInert.replaceEscapes_fillBackReferences (h : AreInert letters) (text : List Char)
    (groups : Groups) (cs : List Char) :
    replaceEscapes letters neverMatches (fillBackReferences text groups cs) =
      fillBackReferences text groups (replaceEscapes letters neverMatches cs) := by
  unfold fillBackReferences
  induction cs using pieces.induct with
  | case1 => rfl
  | case2 c rest hbegins ih =>
    rw [h.replaceEscapes_pair (.inr hbegins), fillFrom, fillFrom, hbegins, Bool.true_and,
      takeWhile_replaceEscapes]
    by_cases hfits : Text.digitsValue (c :: rest.takeWhile Text.isDigit) < UInt64.size
    · rw [if_pos (by simpa using hfits), if_pos (by simpa using hfits),
        h.replaceEscapes_quoted_append, fillFrom_true, fillFrom_true, ih, dropWhile_replaceEscapes]
    · rw [if_neg (by simpa using hfits), if_neg (by simpa using hfits),
        h.replaceEscapes_pair (.inr hbegins), fillFrom_false text groups rest,
        replaceEscapes_digits_append _ _ (List.all_eq_true.1 List.all_takeWhile), ih,
        fillFrom_false _ _ (replaceEscapes _ _ rest), takeWhile_replaceEscapes,
        dropWhile_replaceEscapes]
  | case3 c rest hpair ih =>
    rw [fillFrom, Bool.eq_false_iff.2 hpair, Bool.false_and, if_neg Bool.false_ne_true,
      replaceEscapes, replaceEscapes]
    split
    · rw [ih, fillFrom_neverMatches_append]
    · rw [ih, fillFrom, Bool.eq_false_iff.2 hpair, Bool.false_and, if_neg Bool.false_ne_true]
  | case4 c rest hplain ih =>
    rw [fillFrom.eq_3 _ _ _ c rest hplain, replaceEscapes.eq_3 _ _ c rest hplain, Bool.false_and,
      if_neg Bool.false_ne_true]
    by_cases hne : c = '\\'
    · cases rest with
      | nil =>
        subst hne
        rfl
      | cons d rest => exact absurd rfl (hplain d rest hne)
    · rw [replaceEscapes_cons_of_ne hne, fillFrom_cons_of_ne hne, Bool.false_and,
        if_neg Bool.false_ne_true, ih]

/-! ## The pattern of a region's end -/

variable [Engine]

/-- **Captured text stays text.** A pattern is items and back-references, and captured text is filled in
for each back-reference by itself. The text is read as its characters, and what is filled in does not go
together with what stands around it. So the anchors are those of the pattern, a back-reference is left
only if its number is too large for any group, and the anchors that do not match at the end of a region
may be replaced before or afterwards. -/
theorem captured_text_stays_text (text : List Char) (groups : Groups) (pattern : List Char) :
    (pieces pattern).flatMap Piece.chars = pattern ∧
      fillBackReferences text groups pattern =
        (pieces pattern).flatMap (Piece.filled text groups) ∧
      (∀ captured, (items (quoted captured)).map Item.char = captured) ∧
      items (fillBackReferences text groups pattern) =
        (pieces pattern).flatMap (fun p => items (p.filled text groups)) ∧
      (items (fillBackReferences text groups pattern)).filter (Item.has ['A', 'G', 'z', 'Z']) =
        (items pattern).filter (Item.has ['A', 'G', 'z', 'Z']) ∧
      (∀ digits, .reference digits ∈ pieces (fillBackReferences text groups pattern) →
        UInt64.size ≤ Text.digitsValue digits) ∧
      (ofEndText (fillBackReferences text groups pattern)).source =
        fillBackReferences text groups (ofEndText pattern).source := by
  have hanchors : AreInert ['A', 'G', 'z', 'Z'] := by decide
  have hends : AreInert ['z', 'Z'] := by decide
  refine ⟨flatMap_chars_pieces pattern, fillBackReferences_eq_flatMap text groups pattern,
    map_char_items_quoted, ?_, hanchors.filter_fillBackReferences text groups pattern,
    fun digits => le_digitsValue_of_mem_pieces,
    hends.replaceEscapes_fillBackReferences text groups pattern⟩
  rw [fillBackReferences_eq_flatMap]
  exact items_flatMap_pieces (fun _ => rfl) (fun _ => items_filled_append text groups) pattern

/-- The captured text is an anchor, but it is not read as one. -/
example : fillBackReferences ['\\', 'A'] [none, some ⟨0, 2⟩] ['\\', '1', '\\', 'A'] =
    ['\\', '\\', 'A', '\\', 'A'] := by decide

end Pattern

end Highlight
