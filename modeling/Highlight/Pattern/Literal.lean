import Highlight.Pattern.Engine
import Highlight.Pattern.Program

/-!
# Patterns that are a text

A pattern whose items all stand for their characters is read as a text. The machine compares that text
and does nothing else, so it finds the first occurrence of the text. With that the programs of this
library are an engine.

- `Pattern.readFrom_spell`: reading such items, one by one.
- `Pattern.Program.verbatim`, `Pattern.Program.read_spell`: the program for a text.
- `Pattern.Program.tryAt?_verbatim`: what the machine does with it.
- `Pattern.Program.searchFrom?_eq_some_iff`: a search finds the match at the first place that has one.
- `Pattern.Program.findsText_verbatim`: the first occurrence of the text is found.
- The instance of `Engine` for `Pattern.Program`.
-/

namespace Highlight

namespace Pattern

variable {c : Char} {rest : List Char} {q : List Item}

/-- A character that is no letter or digit of ASCII is other than any of these. -/
theorem eq_letter_eq_false (hc : c.isAlphanum = false) (d : Char) (hd : d.isAlphanum = true) :
    (c = d) = False := by
  refine eq_false ?_
  rintro rfl
  rw [hd] at hc
  cases hc

theorem isDigit_of_isOctalDigit (h : isOctalDigit c = true) : Text.isDigit c = true := by
  obtain ⟨hlow, hhigh⟩ := Bool.and_eq_true_iff.1 h
  have hle : c.toNat ≤ 57 := Nat.le_trans (of_decide_eq_true hhigh) (by decide)
  exact Bool.and_eq_true_iff.2 ⟨hlow, decide_eq_true hle⟩

/-! ## Reading -/

variable {s : ReaderState}

/-- A character that says nothing of its own is added as it is. -/
theorem step_plain (hs : s.flags = .none) (hc : (Item.plain c).isLiteral = true) :
    step s c rest = .ok (s.pushCode c.toNat, rest) := by
  unfold step
  simp only
  split
  case h_13 =>
    rw [hs]
    rfl
  all_goals exact absurd hc (by decide)

theorem partEscape?_eq_none (hc : c.isAlphanum = false) (flags : Flags) :
    partEscape? flags c = none := by
  have hne := eq_letter_eq_false hc
  simp only [partEscape?, setEscape?, hne 'R' rfl, hne 'X' rfl, hne 'N' rfl, hne 'O' rfl, hne 'w' rfl,
    hne 'W' rfl, hne 'd' rfl, hne 'D' rfl, hne 's' rfl, hne 'S' rfl, hne 'h' rfl, hne 'H' rfl, if_false,
    Option.map_none]

theorem anchorEscape?_eq_none (hc : c.isAlphanum = false) (flags : Flags) :
    anchorEscape? flags c = none := by
  have hne := eq_letter_eq_false hc
  simp only [anchorEscape?, hne 'b' rfl, hne 'B' rfl, hne 'A' rfl, hne 'z' rfl, hne 'Z' rfl, hne 'G' rfl,
    hne 'y' rfl, hne 'Y' rfl, if_false]

theorem backReference?_eq_none (hc : c.isAlphanum = false) (groupCount : Nat) :
    backReference? groupCount (c :: rest) = none := by
  have hdigit : Text.isDigit c = false := by
    rw [Bool.eq_false_iff]
    exact fun h => Bool.eq_false_iff.1 hc (Text.isAlphanum_of_isDigit h)
  rw [backReference?, hdigit]
  rfl

theorem propertyOpening?_eq_none (hc : c.isAlphanum = false) :
    propertyOpening? (c :: rest) = none := by
  have hne := eq_letter_eq_false hc
  rw [propertyOpening?]
  all_goals simp [hne 'p' rfl, hne 'P' rfl]

theorem readCode?_eq_none (hc : c.isAlphanum = false) :
    readCode? false false (c :: rest) = .ok none := by
  have hne := eq_letter_eq_false hc
  have hdigit : ¬ isOctalDigit c = true := fun h =>
    Bool.eq_false_iff.1 hc (Text.isAlphanum_of_isDigit (isDigit_of_isOctalDigit h))
  rw [readCode?, if_neg hdigit]
  all_goals simp [hne 'x' rfl, hne 'o' rfl, hne 'u' rfl, hne '0' rfl]

theorem readEscapedChar_eq (hc : c.isAlphanum = false) :
    readEscapedChar (c :: rest) = .ok (c.toNat, rest) := by
  have hne := eq_letter_eq_false hc
  have hcontrol : controlEscape? c = none := by
    simp only [controlEscape?, hne 'n' rfl, hne 't' rfl, hne 'r' rfl, hne 'f' rfl, hne 'a' rfl,
      hne 'b' rfl, hne 'e' rfl, hne 'v' rfl, if_false]
  rw [readEscapedChar, hcontrol, Option.getD_none]
  all_goals simp [hne 'M' rfl, hne 'C' rfl, hne 'c' rfl]

/-- An escaped character that is no letter or digit is added as it is. -/
theorem readEscape_eq (hc : c.isAlphanum = false) :
    readEscape s (c :: rest) = .ok (s.pushCode c.toNat, rest) := by
  have hother : readOtherEscape s (c :: rest) = .ok (s.pushCode c.toNat, rest) := by
    unfold readOtherEscape
    rw [propertyOpening?_eq_none hc, readCode?_eq_none hc, readEscapedChar_eq hc]
    simp only [bind, Except.bind]
    split
    case h_5 => rfl
    all_goals
      rename_i heq
      cases heq
      exact absurd hc (by decide)
  unfold readEscape
  simp only [partEscape?_eq_none hc, anchorEscape?_eq_none hc, backReference?_eq_none hc]
  rw [if_neg (of_eq_false (eq_letter_eq_false hc 'K' rfl)), hother]

/-- The state after the characters of a text have been added one by one. -/
def ReaderState.pushText (s : ReaderState) (text : List Char) : ReaderState :=
  text.foldl (fun s c => s.pushCode c.toNat) s

/-- A literal item is one step, which adds its character. -/
theorem readFrom_item {i : Item} (hi : i.isLiteral = true) (hs : s.flags = .none) (steps : Nat) :
    readFrom (steps + 1) s (i.chars ++ rest) = readFrom steps (s.pushCode i.char.toNat) rest := by
  cases i with
  | plain c =>
    show readFrom (steps + 1) s (c :: rest) = _
    rw [readFrom, step_plain hs hi]
    rfl
  | pair c =>
    show readFrom (steps + 1) s ('\\' :: c :: rest) = _
    have hstep : step s '\\' (c :: rest) = .ok (s.pushCode c.toNat, rest) :=
      readEscape_eq (isAlphanum_of_pair hi)
    rw [readFrom, hstep]
    rfl

/-- **Literal items are read as the text of their characters.** -/
theorem readFrom_spell (hq : ∀ i ∈ q, i.isLiteral = true) {steps : Nat} (hs : s.flags = .none)
    (hsteps : (spell q).length ≤ steps) :
    readFrom steps s (spell q) = .ok (s.pushText (q.map Item.char)) := by
  induction q generalizing s steps with
  | nil =>
    show readFrom steps s [] = .ok s
    rw [readFrom]
  | cons i q ih =>
    obtain ⟨hi, hq⟩ := List.forall_mem_cons.1 hq
    have hlength : (spell (i :: q)).length = i.chars.length + (spell q).length := List.length_append
    have hpos : 0 < i.chars.length := by cases i <;> exact Nat.succ_pos _
    obtain ⟨steps, rfl⟩ : ∃ n, steps = n + 1 := ⟨steps - 1, by omega⟩
    have hrest : (spell q).length ≤ steps := by omega
    show readFrom (steps + 1) s (i.chars ++ spell q) = _
    rw [readFrom_item hi hs]
    exact ih hq hs hrest

/-! ## The tree -/

/-- One character as a tree. -/
def Node.ofChar (c : Char) : Node := .text .exact [c.toNat]

/-- A text as a tree. -/
def Node.ofText (text : List Char) : Node := .text .exact (text.map Char.toNat)

/-- Characters in a row are put together to a text. -/
theorem joinTexts_ofChar (c : Char) (text : List Char) :
    joinTexts ((c :: text).map Node.ofChar) = [.ofText (c :: text)] := by
  induction text generalizing c with
  | nil => rfl
  | cons next text ih =>
    have hjoin : joinTexts (Node.ofChar c :: (next :: text).map Node.ofChar) =
        [.ofText (c :: next :: text)] := by
      simp only [joinTexts, ih next]
      rfl
    exact hjoin

theorem ofParts_ofChar (text : List Char) : Node.ofParts (text.map Node.ofChar) = .ofText text := by
  cases text with
  | nil => rfl
  | cons c text =>
    have hparts : (text.map Node.ofChar).flatMap Node.toSequence = text.map Node.ofChar := by
      rw [List.flatMap_map]
      exact List.map_eq_flatMap.symm
    show Node.ofSequence (joinTexts (Node.ofChar c :: (text.map Node.ofChar).flatMap Node.toSequence)) = _
    rw [hparts, ← List.map_cons, joinTexts_ofChar]
    rfl

/-- The last alternative is its parts in a row, also if there is a single one. -/
theorem node_lastAlternative (g : OpenGroup) :
    g.lastAlternative.node = .ofParts (g.parts.reverse.map Part.standing) := by
  unfold OpenGroup.lastAlternative
  split
  · rename_i part heq
    rw [heq]
    show part.standing = Node.ofSequence (joinTexts [part.standing])
    cases part.standing <;> rfl
  · rfl

/-- The state in which the given parts have been read, last first, and no group is open. -/
def ReaderState.ofParts (parts : List Part) : ReaderState :=
  { ReaderState.initial with current := ⟨.whole, .none, [], parts⟩ }

theorem pushText_ofParts (parts : List Part) (text : List Char) :
    (ReaderState.ofParts parts).pushText text =
      .ofParts ((text.map fun c => Part.of (.ofChar c) true).reverse ++ parts) := by
  induction text generalizing parts with
  | nil => rfl
  | cons c text ih =>
    show (ReaderState.ofParts (Part.of (.ofChar c) true :: parts)).pushText text = _
    rw [ih, List.map_cons, List.reverse_cons, List.append_assoc]
    rfl

theorem pushText_initial (text : List Char) :
    ReaderState.initial.pushText text =
      .ofParts (text.map fun c => Part.of (.ofChar c) true).reverse := by
  have hparts := pushText_ofParts [] text
  rwa [List.append_nil] at hparts

/-- A text that has been read is one tree. -/
theorem finish_pushText (text : List Char) :
    (ReaderState.initial.pushText text).finish = .ok (.ofText text) := by
  have hnode : (ReaderState.ofParts
      (text.map fun c => Part.of (.ofChar c) true).reverse).current.lastAlternative.node =
        .ofText text := by
    rw [node_lastAlternative, ReaderState.ofParts, List.reverse_reverse, List.map_map]
    exact ofParts_ofChar text
  rw [pushText_initial]
  exact congrArg Except.ok hnode

/-! ## The program -/

/-- The program for a text that is taken as it is. -/
def Program.verbatim (text : List Char) : Program where
  code := match text with
    | [] => .nothing
    | c :: cs => .text (c :: cs)
  called := #[.never]
  groupCount := 0
  longest := false
  lead := text.head?.map fun c => .single c.toNat
  needs := []

theorem ofCodes_map_toNat (text : List Char) :
    Code.ofCodes (text.map Char.toNat) = (Program.verbatim text).code := by
  have hchars : (text.map Char.toNat).mapM
      (fun code => if code.isValidChar then some (Char.ofNat code) else none) = some text := by
    induction text with
    | nil => rfl
    | cons c text ih =>
      have hvalid : c.toNat.isValidChar := c.valid
      rw [List.map_cons, List.mapM_cons, ih, if_pos hvalid, Char.ofNat_toNat]
      rfl
  unfold Code.ofCodes
  rw [hchars]
  cases text <;> rfl

/-- A text refers to no group, so nothing is to be looked up. -/
theorem resolve_ofText (text : List Char) :
    ∃ table, (Draft.mk (.ofText text) 0 [] false).resolve = .ok ⟨.ofText text, table, 0, false⟩ :=
  ⟨_, rfl⟩

theorem ofResolved_ofText (text : List Char) (table : GroupTable) :
    Program.ofResolved ⟨.ofText text, table, 0, false⟩ = .ok (.verbatim text) := by
  have hcode : Program.ofResolved ⟨.ofText text, table, 0, false⟩ =
      .ok (let code := Code.ofCodes (text.map Char.toNat)
        ⟨code, #[.never], 0, false, if code.lead.passes then none else some code.lead.set,
          code.needs⟩) := rfl
  rw [hcode, ofCodes_map_toNat]
  cases text <;> rfl

/-- **The program for literal items** is the one for their text. -/
theorem Program.read_spell (hq : ∀ i ∈ q, i.isLiteral = true) :
    Program.read (spell q) = .ok (.verbatim (q.map Item.char)) := by
  have hdraft : Draft.read (spell q) = .ok ⟨.ofText (q.map Item.char), 0, [], false⟩ := by
    unfold Draft.read
    rw [readFrom_spell hq rfl (Nat.le_refl _)]
    simp only [bind, Except.bind, finish_pushText]
    rw [pushText_initial]
    rfl
  obtain ⟨table, hresolved⟩ := resolve_ofText (q.map Item.char)
  unfold Program.read
  simp only [bind, Except.bind, hdraft, hresolved, ofResolved_ofText]

/-! ## Matching -/

variable {m : Matcher} {text : List Char}

/-- The text that follows behind a place is compared character by character. -/
theorem placeAfterText?_eq_some_iff {place stop : Nat} :
    m.placeAfterText? m.text.size text place = some stop ↔
      text <+: m.text.text.drop place ∧ stop = place + text.length := by
  induction text generalizing place with
  | nil =>
    rw [Matcher.placeAfterText?, Option.some_inj]
    exact ⟨fun h => ⟨List.nil_prefix, h.symm⟩, fun h => h.2.symm⟩
  | cons c text ih =>
    have hsize : m.text.chars.size = m.text.text.length := by rw [m.text.chars_eq, List.size_toArray]
    unfold Matcher.placeAfterText?
    split
    · rename_i hplace
      have hdrop : m.text.text.drop place = m.text.chars[place] :: m.text.text.drop (place + 1) := by
        rw [List.drop_eq_getElem_cons (hsize ▸ hplace)]
        simp [m.text.chars_eq]
      rw [hdrop, List.cons_prefix_cons, List.length_cons]
      by_cases hc : m.text.chars[place] = c
      · have htaken : (place < m.text.size && m.text.chars[place] == c) = true := by
          rw [hc, beq_self_eq_true, Bool.and_true]
          exact decide_eq_true hplace
        rw [if_pos htaken, ih, show place + (text.length + 1) = place + 1 + text.length by omega]
        exact and_congr_left fun _ => (and_iff_right hc.symm).symm
      · have hother : ¬ (place < m.text.size && m.text.chars[place] == c) = true := by
          rw [beq_eq_false_iff_ne.2 hc, Bool.and_false]
          exact Bool.false_ne_true
        rw [if_neg hother]
        exact ⟨nofun, fun h => absurd h.1.1.symm hc⟩
    · rename_i hplace
      have hdrop : m.text.text.drop place = [] := List.drop_eq_nil_of_le (by omega)
      rw [hdrop, List.prefix_nil]
      exact ⟨nofun, fun h => nomatch h.1⟩

/-- What is left to do is done in order. -/
theorem Matcher.run_cons (m : Matcher) (steps : Nat) {s : State} (task : Task) (tasks : List Task)
    (h : s.tasks = task :: tasks) : m.run (steps + 1) s = (m.step tasks s task).bind (m.run steps) := by
  conv => lhs; unfold run
  rw [h]
  dsimp only
  cases m.step tasks s task <;> rfl

namespace Program

/-- The machine has no other way to go back to, so all is done once the text was compared. -/
theorem run_verbatim (text : List Char) (place steps : Nat) :
    m.run (steps + 2) ((verbatim text).initial m place) =
      (m.placeAfterText? m.text.size text place).map fun stop =>
        { (verbatim text).initial m place with tasks := [], place := stop } := by
  cases text with
  | nil => rfl
  | cons c text =>
    have hstep : m.step [] ((verbatim (c :: text)).initial m place) (.code (.text (c :: text))) =
        (m.placeAfterText? m.text.size (c :: text) place).map fun stop =>
          { (verbatim (c :: text)).initial m place with tasks := [], place := stop } := by
      show m.carryOut [] _ (.text (c :: text)) = _
      unfold Matcher.carryOut
      dsimp only
      split
      · rename_i stop hstop
        rw [show m.placeAfterText? m.text.size (c :: text) place = some stop from hstop]
        rfl
      · rename_i hnone
        rw [show m.placeAfterText? m.text.size (c :: text) place = none from hnone]
        rfl
    rw [Matcher.run_cons m (steps + 1) (.code (.text (c :: text))) [] rfl, hstep]
    cases m.placeAfterText? m.text.size (c :: text) place <;> rfl

theorem matchAt?_verbatim {place : Nat} {found : Match} :
    (verbatim text).matchAt? m place = some found ↔
      text <+: m.text.text.drop place ∧ found = .whole place text.length := by
  have hsteps : mostSteps = 4611686018427387902 + 2 := rfl
  have hmatch : matchOf { (verbatim text).initial m place with
      tasks := [], place := place + text.length } = .whole place text.length := by
    simp only [matchOf, Match.whole, initial, State.initial,
      Nat.min_eq_left (Nat.le_add_right place text.length)]
    rfl
  unfold matchAt?
  rw [hsteps, run_verbatim, Option.map_map, Option.map_eq_some_iff]
  constructor
  · rintro ⟨stop, hstop, rfl⟩
    obtain ⟨hpart, rfl⟩ := placeAfterText?_eq_some_iff.1 hstop
    exact ⟨hpart, hmatch⟩
  · rintro ⟨hpart, rfl⟩
    exact ⟨_, placeAfterText?_eq_some_iff.2 ⟨hpart, rfl⟩, hmatch⟩

/-- No place at which the text follows is passed over. -/
theorem canBegin_verbatim {t : IndexedText} {place : Nat} (h : text <+: t.text.drop place) :
    (verbatim text).canBegin t place = true := by
  cases text with
  | nil => rfl
  | cons c text =>
    have hplace : place < t.text.length := by
      have hlength := h.length_le
      rw [List.length_cons, List.length_drop] at hlength
      omega
    have hplace' : place < t.chars.size := by rwa [t.chars_eq, List.size_toArray]
    rw [List.drop_eq_getElem_cons hplace, List.cons_prefix_cons] at h
    have hc : t.chars[place] = c := by simp [t.chars_eq, h.1]
    show (if h : place < t.chars.size then (CharSet.single c.toNat).contains t.chars[place] else false) = true
    rw [dif_pos hplace', hc]
    simp [CharSet.single, CharSet.contains]

/-- **What the machine finds** at a place is the text, if it follows there. -/
theorem tryAt?_verbatim {place : Nat} {found : Match} :
    (verbatim text).tryAt? m place = some found ↔
      text <+: m.text.text.drop place ∧ found = .whole place text.length := by
  unfold tryAt?
  split
  · exact matchAt?_verbatim
  · rename_i hpassed
    exact ⟨nofun, fun h => absurd (canBegin_verbatim h.1) hpassed⟩

/-- **A search finds the match at the first place that has one.** -/
theorem searchFrom?_eq_some_iff {p : Program} {steps place : Nat} {found : Match} :
    p.searchFrom? m steps place = some found ↔
      ∃ passed, passed ≤ steps ∧ p.tryAt? m (place + passed) = some found ∧
        ∀ fewer, fewer < passed → p.tryAt? m (place + fewer) = none := by
  induction steps generalizing place with
  | zero =>
    rw [searchFrom?_zero]
    constructor
    · exact fun h => ⟨0, Nat.le_refl 0, h, nofun⟩
    · rintro ⟨passed, hpassed, h, -⟩
      obtain rfl : passed = 0 := Nat.le_zero.1 hpassed
      exact h
  | succ steps ih =>
    rw [searchFrom?_succ, Option.or_eq_some_iff, ih]
    constructor
    · rintro (h | ⟨hnone, passed, hpassed, h, hfirst⟩)
      · exact ⟨0, Nat.zero_le _, h, nofun⟩
      · rw [Nat.add_assoc, Nat.add_comm 1] at h
        refine ⟨passed + 1, Nat.succ_le_succ hpassed, h, ?_⟩
        rintro (_ | fewer) hfewer
        · exact hnone
        · have hlater := hfirst fewer (Nat.lt_of_succ_lt_succ hfewer)
          rwa [Nat.add_assoc, Nat.add_comm 1] at hlater
    · rintro ⟨_ | passed, hpassed, h, hfirst⟩
      · exact .inl h
      · refine .inr ⟨hfirst 0 (Nat.succ_pos passed), passed, Nat.le_of_succ_le_succ hpassed, ?_, ?_⟩
        · rwa [Nat.add_assoc, Nat.add_comm 1]
        · intro fewer hfewer
          rw [Nat.add_assoc, Nat.add_comm 1]
          exact hfirst (fewer + 1) (Nat.succ_lt_succ hfewer)

/-- **A search for a text** finds its first occurrence and nothing else. -/
theorem findsText_verbatim (text : List Char) : FindsText (verbatim text).search? text := by
  intro t origin place hplace found
  let m : Matcher := ⟨t, origin, #[.never]⟩
  have hlast : (verbatim text).search? t origin place =
      (verbatim text).searchFrom? m (t.size - place) place :=
    if_neg (Nat.not_lt.2 hplace)
  have htried : ∀ tried, (verbatim text).tryAt? m tried = none ↔ ¬ text <+: t.text.drop tried := by
    intro tried
    rw [Option.eq_none_iff_forall_ne_some]
    constructor
    · exact fun h hpart => h _ (tryAt?_verbatim.2 ⟨hpart, rfl⟩)
    · exact fun h found hfound => h (tryAt?_verbatim.1 hfound).1
  rw [hlast, searchFrom?_eq_some_iff]
  constructor
  · rintro ⟨passed, hpassed, hfound, hfirst⟩
    obtain ⟨hoccurs, rfl⟩ := tryAt?_verbatim.1 hfound
    have hsize : place + passed ≤ t.size := by omega
    refine ⟨Nat.le_add_right place passed, hsize, hoccurs, ?_, rfl⟩
    intro earlier hle hearlier
    obtain ⟨fewer, rfl⟩ := Nat.exists_eq_add_of_le hle
    exact (htried _).1 (hfirst fewer (Nat.lt_of_add_lt_add_left hearlier))
  · rintro ⟨hle, hsize, hoccurs, hfirst, hwhole⟩
    obtain ⟨passed, hpassed⟩ := Nat.exists_eq_add_of_le hle
    refine ⟨passed, by omega, tryAt?_verbatim.2 ⟨hpassed ▸ hoccurs, hpassed ▸ hwhole⟩, ?_⟩
    intro fewer hfewer
    exact (htried _).2 (hfirst _ (Nat.le_add_right place fewer) (by omega))

end Program

end Pattern

/-- Patterns are matched by programs for the machine. -/
instance : Engine where
  Program := Pattern.Program
  read := Pattern.Program.read
  search? := Pattern.Program.search?
  read_literal _ h := ⟨_, Pattern.Program.read_spell h, Pattern.Program.findsText_verbatim _⟩

end Highlight
