import Highlight.Proofs.FilledPatterns

/-!
# Escapes replaced exactly

Anchors are replaced in the text of a pattern, before it is read as one. So it has to be right about
what is an anchor: the pattern is gone through from left to right, a backslash goes together with the
character behind it, whatever that is, and nothing else is touched. Where the escapes are can also be
found first, as byte offsets, and the text cut there in a second pass; as long as the letters that are
looked for have one byte each, no cut goes through a character.

- `Pattern.Reads`: the reading of a pattern, apart from the function for it.
- `Pattern.Reads.replaceEscapes_eq`: what is replaced, item by item.
- `Pattern.Reads.items_replaced`: how the result is read.
- `Pattern.replaceAtOffsets?`: replacing by offsets, in two passes.
- `Pattern.replaceAtOffsets?_eq`: the two passes give what the one gives.
- `Pattern.escapes_replaced_exactly`: all of it.
-/

namespace Highlight

namespace Pattern

variable {letters replacement cs : List Char} {is : List Item}

/-! ## Reading -/

/-- A pattern with its items, from left to right. A backslash makes a pair with the character behind
it, so it stands by itself only at the very end. -/
inductive Reads : List Char → List Item → Prop
  | nil : Reads [] []
  | plain {c : Char} {rest : List Char} {is : List Item} : c ≠ '\\' → Reads rest is →
      Reads (c :: rest) (.plain c :: is)
  | pair {c : Char} {rest : List Char} {is : List Item} : Reads rest is →
      Reads ('\\' :: c :: rest) (.pair c :: is)
  | last : Reads ['\\'] [.plain '\\']

theorem reads_items (cs : List Char) : Reads cs (items cs) := by
  induction cs using items.induct with
  | case1 => exact .nil
  | case2 c rest ih => exact .pair ih
  | case3 c rest hpair ih =>
    by_cases hc : c = '\\'
    · subst hc
      cases rest with
      | nil => exact .last
      | cons d rest => exact absurd rfl (hpair d rest rfl)
    · rw [items_cons_of_ne hc]
      exact .plain hc ih

/-- **A pattern is read in one way.** -/
theorem reads_iff : Reads cs is ↔ is = items cs := by
  constructor
  · intro h
    induction h with
    | nil => rfl
    | plain hc _ ih => rw [items_cons_of_ne hc, ih]
    | pair _ ih => rw [items, ih]
    | last => rfl
  · rintro rfl
    exact reads_items cs

/-- What is read spells the pattern. -/
theorem Reads.spell_eq (h : Reads cs is) : spell is = cs := by
  induction h with
  | nil => rfl
  | plain _ _ ih => exact congrArg _ ih
  | pair _ ih => exact congrArg _ (congrArg _ ih)
  | last => rfl

/-! ## Replacing items -/

/-- **Exactly the pairs with one of the letters are replaced**, and all else is kept in its order. -/
theorem Reads.replaceEscapes_eq (h : Reads cs is) (letters replacement : List Char) :
    replaceEscapes letters replacement cs =
      is.flatMap fun i => if i.has letters then replacement else i.chars := by
  induction h with
  | nil => rfl
  | plain hc _ ih =>
    rw [replaceEscapes_cons_of_ne hc, ih]
    rfl
  | @pair c rest is _ ih =>
    rw [replaceEscapes, List.flatMap_cons, ih, Item.has]
    split
    · rfl
    · rfl
  | last => rfl

/-- A text without backslashes does not go together with what stands behind it. -/
theorem items_append_of_notMem {text : List Char} (h : '\\' ∉ text) (rest : List Char) :
    items (text ++ rest) = text.map .plain ++ items rest := by
  induction text with
  | nil => rfl
  | cons c text ih =>
    rw [List.mem_cons, not_or] at h
    obtain ⟨hc, htext⟩ := h
    rw [List.cons_append, items_cons_of_ne (Ne.symm hc), ih htext]
    rfl

/-- **How the result is read**: each replaced pair has become plain characters, and all other items are
those of the pattern. -/
theorem Reads.items_replaced (h : Reads cs is) (hplain : '\\' ∉ replacement) (letters : List Char) :
    items (replaceEscapes letters replacement cs) =
      is.flatMap fun i => if i.has letters then replacement.map .plain else [i] := by
  induction h with
  | nil => rfl
  | plain hc _ ih =>
    rw [replaceEscapes_cons_of_ne hc, items_cons_of_ne hc, ih]
    rfl
  | @pair c rest is _ ih =>
    rw [replaceEscapes, List.flatMap_cons, Item.has]
    split
    · rw [items_append_of_notMem hplain, ih]
    · rw [items, ih]
      rfl
  | last => rfl

/-- None of the escapes is left. -/
theorem has_eq_false_of_mem_replaced (hplain : '\\' ∉ replacement) {i : Item}
    (hi : i ∈ items (replaceEscapes letters replacement cs)) : i.has letters = false := by
  rw [(reads_items cs).items_replaced hplain] at hi
  obtain ⟨j, -, hj⟩ := List.mem_flatMap.1 hi
  split at hj
  · obtain ⟨c, -, rfl⟩ := List.mem_map.1 hj
    rfl
  · rename_i hkept
    rw [List.mem_singleton.1 hj]
    exact Bool.eq_false_iff.2 hkept

/-- The second character of a pair. -/
def Item.escaped? : Item → Option Char
  | .plain _ => none
  | .pair c => some c

/-- The other escapes are kept in their order. -/
theorem filterMap_escaped?_replaced (hplain : '\\' ∉ replacement) (letters cs : List Char) :
    (items (replaceEscapes letters replacement cs)).filterMap Item.escaped? =
      ((items cs).filterMap Item.escaped?).filter fun c => !letters.contains c := by
  rw [(reads_items cs).items_replaced hplain]
  induction items cs with
  | nil => rfl
  | cons i is ih =>
    rw [List.flatMap_cons, List.filterMap_append, ih]
    cases i with
    | plain c => rfl
    | pair c =>
      have hpair : (Item.pair c :: is).filterMap Item.escaped? = c :: is.filterMap Item.escaped? := rfl
      rw [hpair, List.filter_cons, Item.has]
      cases letters.contains c with
      | true => simp [Function.comp_def, Item.escaped?]
      | false => rfl

theorem Reads.hasEscape_eq (h : Reads cs is) (letters : List Char) :
    hasEscape letters cs = is.any (Item.has letters) := by
  induction h with
  | nil => rfl
  | @plain c rest is hc _ ih =>
    rw [hasEscape, ih]
    · rfl
    · rintro d rest' rfl
      exact absurd rfl hc
  | pair _ ih =>
    rw [hasEscape, ih]
    rfl
  | last => rfl

/-- Without the escapes there is nothing to replace. -/
theorem replaceEscapes_eq_self (h : ∀ i ∈ items cs, i.has letters = false)
    (replacement : List Char) : replaceEscapes letters replacement cs = cs := by
  rw [(reads_items cs).replaceEscapes_eq]
  refine Eq.trans ?_ (reads_items cs).spell_eq
  refine List.flatMap_congr fun i hi => ?_
  rw [h i hi]
  rfl

/-! ## Replacing by offsets -/

/-- The pairs of a pattern that begins at an offset: the offset of each, and its second character. -/
def escapesFrom : Nat → List Char → List (Nat × Char)
  | _, [] => []
  | offset, '\\' :: c :: rest => (offset, c) :: escapesFrom (offset + 1 + c.utf8Size) rest
  | offset, c :: rest => escapesFrom (offset + c.utf8Size) rest

/-- A pattern from an offset on, with the two bytes at each of the given offsets replaced; none if an
offset is no boundary of characters, or if the offsets are out of order. -/
def cutFrom? (replacement pattern : List Char) : Nat → List Nat → Option (List Char)
  | last, [] => Text.dropBytes? last pattern
  | last, offset :: offsets => do
    let kept ← Text.slice? pattern last offset
    let more ← cutFrom? replacement pattern (offset + 2) offsets
    return kept ++ replacement ++ more

/-- The pattern with its escapes replaced in two passes: the first finds the offsets of the pairs that
have one of the letters, the second cuts the pattern there. -/
def replaceAtOffsets? (letters replacement pattern : List Char) : Option (List Char) :=
  let offsets := ((escapesFrom 0 pattern).filter fun e => letters.contains e.2).map Prod.fst
  if offsets.isEmpty then some pattern else cutFrom? replacement pattern 0 offsets

theorem utf8Size_of_lt {c : Char} (h : c.toNat < 128) : c.utf8Size = 1 := by
  have hval : c.val ≤ 0x7f := UInt32.le_iff_toNat_le.2 (Nat.le_of_lt_succ h)
  exact if_pos hval

theorem slice?_append (before part after : List Char) :
    Text.slice? (before ++ (part ++ after)) (Text.byteLength before)
      (Text.byteLength (before ++ part)) = some part := by
  have hdrop : Text.dropBytes? (Text.byteLength before) (before ++ (part ++ after)) =
      some (part ++ after) := Text.dropBytes?_eq_some_iff.2 ⟨before, rfl, rfl⟩
  have htake : Text.takeBytes? (Text.byteLength part) (part ++ after) = some part :=
    Text.takeBytes?_eq_some_iff.2 ⟨after, rfl, rfl⟩
  rw [Text.slice?, Text.byteLength_append, if_pos (Nat.le_add_right _ _), hdrop,
    Nat.add_sub_cancel_left]
  exact htake

/-- The second pass, with a part of the pattern done and another gone through since the last cut. -/
theorem cutFrom?_eq (hletters : ∀ c ∈ letters, c.utf8Size = 1) (replacement : List Char)
    {rest : List Char} (h : Reads rest is) (done kept : List Char) :
    cutFrom? replacement (done ++ (kept ++ rest)) (Text.byteLength done)
      (((escapesFrom (Text.byteLength (done ++ kept)) rest).filter fun e =>
        letters.contains e.2).map Prod.fst) =
      some (kept ++ replaceEscapes letters replacement rest) := by
  induction h generalizing done kept with
  | nil => exact Text.dropBytes?_eq_some_iff.2 ⟨done, rfl, rfl⟩
  | last => exact Text.dropBytes?_eq_some_iff.2 ⟨done, rfl, rfl⟩
  | @plain c rest is hc _ ih =>
    have hnext := ih done (kept ++ [c])
    have hoffset : Text.byteLength (done ++ (kept ++ [c])) =
        Text.byteLength (done ++ kept) + c.utf8Size := by
      simp [Nat.add_assoc]
    rw [hoffset] at hnext
    rw [escapesFrom, replaceEscapes_cons_of_ne hc]
    · simpa using hnext
    · rintro d rest' rfl
      exact absurd rfl hc
  | @pair c rest is _ ih =>
    have hsize : ('\\' : Char).utf8Size = 1 := rfl
    rw [escapesFrom, replaceEscapes]
    by_cases hc : letters.contains c = true
    · -- the pattern is cut in front of the pair and behind it
      have hnext := ih (done ++ (kept ++ ['\\', c])) []
      have hwidth : c.utf8Size = 1 := hletters c (by simpa using hc)
      have hoffset : Text.byteLength (done ++ (kept ++ ['\\', c])) =
          Text.byteLength (done ++ kept) + 2 := by
        simp [hsize, hwidth, Nat.add_assoc]
      rw [List.append_nil, hoffset] at hnext
      simp only [List.append_assoc, List.cons_append, List.nil_append] at hnext
      rw [if_pos hc, List.filter_cons, if_pos hc, List.map_cons, cutFrom?, slice?_append, hwidth,
        Option.bind_eq_bind, Option.bind_some, hnext]
      simp
    · have hnext := ih done (kept ++ ['\\', c])
      have hoffset : Text.byteLength (done ++ (kept ++ ['\\', c])) =
          Text.byteLength (done ++ kept) + 1 + c.utf8Size := by
        simp [hsize, Nat.add_assoc]
      rw [hoffset] at hnext
      rw [if_neg hc, List.filter_cons, if_neg hc]
      simpa using hnext

/-- **The two passes give what the one gives**, and no cut goes through a character, if the letters have
one byte each. -/
theorem replaceAtOffsets?_eq (hletters : ∀ c ∈ letters, c.utf8Size = 1) (replacement cs : List Char) :
    replaceAtOffsets? letters replacement cs = some (replaceEscapes letters replacement cs) := by
  have hcut : cutFrom? replacement cs 0 (((escapesFrom 0 cs).filter fun e =>
      letters.contains e.2).map Prod.fst) = some (replaceEscapes letters replacement cs) :=
    cutFrom?_eq hletters replacement (reads_items cs) [] []
  unfold replaceAtOffsets?
  simp only
  split
  · rename_i hnone
    rw [List.isEmpty_iff.1 hnone] at hcut
    exact (Text.dropBytes?_eq_some_iff.2 ⟨[], rfl, rfl⟩).symm.trans hcut
  · exact hcut

/-! ## All of it -/

/-- **Escapes are replaced exactly.** A pattern is read in one way, as characters and pairs from left to
right. What comes out has exactly the pairs with one of the letters replaced and is otherwise the pattern;
finding the escapes by their offsets and cutting the text there gives the same, and no cut goes through a
character. If what takes their place has no backslash, then it is read by itself: none of the escapes is
left, the others are kept in their order, and replacing them again changes nothing. -/
theorem escapes_replaced_exactly (letters : List Char) (hletters : ∀ c ∈ letters, c.toNat < 128)
    (replacement pattern : List Char) :
    let replaced := replaceEscapes letters replacement pattern
    (∀ is, Reads pattern is ↔ is = items pattern) ∧ spell (items pattern) = pattern ∧
      replaced = (items pattern).flatMap (fun i => if i.has letters then replacement else i.chars) ∧
      replaceAtOffsets? letters replacement pattern = some replaced ∧
      ('\\' ∉ replacement →
        items replaced =
          (items pattern).flatMap (fun i => if i.has letters then replacement.map .plain else [i]) ∧
        (∀ i ∈ items replaced, i.has letters = false) ∧ hasEscape letters replaced = false ∧
        (items replaced).filterMap Item.escaped? =
          ((items pattern).filterMap Item.escaped?).filter (fun c => !letters.contains c) ∧
        replaceEscapes letters replacement replaced = replaced) := by
  intro replaced
  have hread := reads_items pattern
  have hbytes : ∀ c ∈ letters, c.utf8Size = 1 := fun c hc => utf8Size_of_lt (hletters c hc)
  refine ⟨fun _ => reads_iff, hread.spell_eq, hread.replaceEscapes_eq letters replacement,
    replaceAtOffsets?_eq hbytes replacement pattern, fun hplain => ?_⟩
  have hnone : ∀ i ∈ items replaced, i.has letters = false :=
    fun _ => has_eq_false_of_mem_replaced hplain
  refine ⟨hread.items_replaced hplain letters, hnone, ?_,
    filterMap_escaped?_replaced hplain letters pattern, replaceEscapes_eq_self hnone replacement⟩
  rw [(reads_items replaced).hasEscape_eq, List.any_eq_false]
  intro i hi
  rw [hnone i hi]
  exact Bool.false_ne_true

/-- A double backslash in front of the letter, the anchor itself, a character of several bytes behind a
backslash, and a backslash at the very end. -/
theorem escapes_replaced_exactly_mixed :
    let pattern := ['\\', '\\', 'A', '\\', 'A', '\\', 'é', '\\']
    let replaced := ['\\', '\\', 'A', Char.ofNat 0xFFFF, '\\', 'é', '\\']
    (∀ c ∈ ['A'], c.toNat < 128) ∧ '\\' ∉ neverMatches ∧
      replaceEscapes ['A'] neverMatches pattern = replaced ∧
      replaceAtOffsets? ['A'] neverMatches pattern = some replaced ∧
      items replaced = [.pair '\\', .plain 'A', .plain (Char.ofNat 0xFFFF), .pair 'é', .plain '\\'] ∧
      replaceEscapes ['A'] neverMatches replaced = replaced := by
  intro pattern replaced
  have hletters : ∀ c ∈ ['A'], c.toNat < 128 := List.forall_mem_singleton.2 (by decide)
  have hplain : '\\' ∉ neverMatches := by decide
  have hreplaced : replaceEscapes ['A'] neverMatches pattern = replaced := by decide
  obtain ⟨-, -, -, hoffsets, hrest⟩ :=
    escapes_replaced_exactly ['A'] hletters neverMatches pattern
  obtain ⟨hitems, -, -, -, hagain⟩ := hrest hplain
  rw [hreplaced] at hoffsets hitems hagain
  refine ⟨hletters, hplain, hreplaced, hoffsets, ?_, hagain⟩
  rw [hitems]
  decide

end Pattern

end Highlight
