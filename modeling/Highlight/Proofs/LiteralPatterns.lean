import Highlight.Proofs.FilledPatterns
import Highlight.Proofs.Occurrences

/-!
# Patterns that are a text

A pattern whose items all stand for their characters is a pattern for the text of these characters: an
engine finds the first occurrence of that text. A quoted text is such a pattern.

- `Pattern.isLiteral_quoting`: the items of a quoted text stand for their characters.
- `Pattern.hasEscape_spell`, `Pattern.replaceEscapes_spell`: there are no escapes among such items.
- `Pattern.findFrom?_literal`: what is found from a place on.
- `Pattern.find?_literal`: the main statement; `Pattern.find?_quoted` for a quoted text.
-/

namespace Highlight

/-- A match without groups of its own. -/
def Found.whole (start stop : Nat) : Found := ⟨start, stop, [some ⟨start, stop⟩]⟩

namespace Pattern

/-! ## Literal items -/

variable {c : Char} {rest : List Char} {q : List Item}

/-- What is escaped in a quoted text is no letter or digit. -/
theorem isAlphanum_of_isSpecial (h : isSpecial c = true) : c.isAlphanum = false := by
  rw [Bool.eq_false_iff, Ne, Text.isAlphanum_iff]
  rcases Bool.or_eq_true_iff.1 h with hlisted | hblank
  · have hall : ("-\\\x7b\x7d*+?|^$.,[]()#".toList.all fun d => !d.isAlphanum) = true := by decide
    rw [List.contains_eq_mem, decide_eq_true_eq] at hlisted
    have hother := List.all_eq_true.1 hall c hlisted
    rwa [Bool.not_eq_true', Bool.eq_false_iff, Ne, Text.isAlphanum_iff] at hother
  · simp only [Text.isBlank, Bool.or_eq_true, Bool.and_eq_true, decide_eq_true_eq, beq_iff_eq] at hblank
    omega

/-- **A quoted text is literal**: what says something of its own is escaped in it. -/
theorem isLiteral_quoting (c : Char) : (Item.quoting c).isLiteral = true := by
  unfold Item.quoting
  split
  · rename_i hspecial
    rw [Item.isLiteral, isAlphanum_of_isSpecial hspecial]
    rfl
  · rename_i hplain
    have hall : operators.all isSpecial = true := by decide
    rw [Item.isLiteral, Bool.not_eq_true', List.contains_eq_mem, decide_eq_false_iff_not]
    exact fun hmem => hplain (List.all_eq_true.1 hall c hmem)

theorem spell_map_quoting (text : List Char) : spell (text.map Item.quoting) = quoted text := by
  induction text with
  | nil => rfl
  | cons c text ih =>
    rw [List.map_cons, quoted_cons, ← ih]
    rfl

/-! ## Escapes among literal items -/

/-- No pair among literal items has a letter. -/
theorem contains_eq_false {letters : List Char} (hletters : ∀ d ∈ letters, d.isAlphanum = true)
    (hc : c.isAlphanum = false) :
    letters.contains c = false := by
  rw [List.contains_eq_mem, decide_eq_false_iff_not]
  intro hmem
  rw [hletters c hmem] at hc
  cases hc

/-- Literal items have no escape with a letter. -/
theorem hasEscape_spell {letters : List Char} (hletters : ∀ d ∈ letters, d.isAlphanum = true)
    (hq : ∀ i ∈ q, i.isLiteral = true) : hasEscape letters (spell q) = false := by
  induction q with
  | nil => rfl
  | cons i q ih =>
    obtain ⟨hi, hrest⟩ := List.forall_mem_cons.1 hq
    cases i with
    | plain c =>
      show hasEscape letters (c :: spell q) = false
      rw [hasEscape, ih hrest]
      rintro d rest' rfl
      exact absurd rfl (ne_backslash_of_plain hi)
    | pair c =>
      show hasEscape letters ('\\' :: c :: spell q) = false
      rw [hasEscape, contains_eq_false hletters (isAlphanum_of_pair hi), ih hrest, Bool.false_or]

theorem replaceEscapes_spell_append {letters : List Char}
    (hletters : ∀ d ∈ letters, d.isAlphanum = true) (hq : ∀ i ∈ q, i.isLiteral = true)
    (replacement rest : List Char) :
    replaceEscapes letters replacement (spell q ++ rest) =
      spell q ++ replaceEscapes letters replacement rest := by
  induction q with
  | nil => rfl
  | cons i q ih =>
    obtain ⟨hi, hq⟩ := List.forall_mem_cons.1 hq
    have hspell : spell (i :: q) = i.chars ++ spell q := rfl
    rw [hspell, List.append_assoc, List.append_assoc, ← ih hq]
    cases i with
    | plain c => exact replaceEscapes_cons_of_ne (ne_backslash_of_plain hi) letters replacement _
    | pair c =>
      show replaceEscapes letters replacement ('\\' :: c :: (spell q ++ rest)) = _
      rw [replaceEscapes, contains_eq_false hletters (isAlphanum_of_pair hi),
        if_neg Bool.false_ne_true]
      rfl

theorem replaceEscapes_spell {letters : List Char} (hletters : ∀ d ∈ letters, d.isAlphanum = true)
    (hq : ∀ i ∈ q, i.isLiteral = true) (replacement : List Char) :
    replaceEscapes letters replacement (spell q) = spell q := by
  have happend := replaceEscapes_spell_append hletters hq replacement []
  rwa [List.append_nil, replaceEscapes, List.append_nil] at happend

/-! ## Finding -/

variable [Engine]

/-- The pattern is for a text on the lines of a kind: it does not ask where the search began, and its
program finds the text. -/
structure IsFor (p : Pattern) (text : List Char) (firstLine : Bool) : Prop where
  asksSearchStart : p.asksSearchStart = false
  findsText : ∃ program, p.program? firstLine = some program ∧ FindsText (Engine.search? program) text

variable {p : Pattern} {part : List Char} {firstLine : Bool} {found : Found}

/-- **A pattern for a text** finds the first occurrence of the text from a place on, and nothing else. -/
theorem findFrom?_literal (h : p.IsFor part firstLine) {t : IndexedText} {place : Nat}
    (hplace : place ≤ t.size) :
    p.findFrom? t place firstLine = some found ↔
      ∃ start, Text.FirstFrom part t.text (t.offset place) start ∧
        found = .whole start (start + Text.byteLength part) := by
  obtain ⟨hstart, program, hprogram, hfinds⟩ := h
  have hfind : p.findFrom? t place firstLine =
      (Engine.search? program t 0 place).map fun m => m.found t := by
    unfold findFrom?
    rw [hprogram]
    simp only [hstart, Bool.false_eq_true, if_false]
  have hfound : ∀ {m : Match}, m.IsFirst part t place →
      m.found t = .whole (t.offset m.start) (t.offset m.start + Text.byteLength part) := by
    intro m hm
    rw [← IndexedText.offset_add_length hm.start_le hm.occurs, hm.eq_whole]
    rfl
  rw [hfind, Option.map_eq_some_iff]
  constructor
  · rintro ⟨m, hsearch, rfl⟩
    have hm := (hfinds t 0 place hplace m).1 hsearch
    exact ⟨_, (IndexedText.firstFrom_iff hplace).2 ⟨m, hm, rfl⟩, hfound hm⟩
  · rintro ⟨start, hfirst, rfl⟩
    obtain ⟨m, hm, rfl⟩ := (IndexedText.firstFrom_iff hplace).1 hfirst
    exact ⟨m, (hfinds t 0 place hplace m).2 hm, hfound hm⟩

/-- The same from an offset on, which has to be a boundary of the text that is searched. -/
theorem find?_literal (h : p.IsFor part firstLine) {text : List Char} {offset : Nat} :
    p.find? text offset firstLine = some found ↔
      Text.IsBoundary text offset ∧ ∃ start, Text.FirstFrom part text offset start ∧
        found = .whole start (start + Text.byteLength part) := by
  let t := IndexedText.ofText text
  have hfind : p.find? text offset firstLine = some found ↔
      ∃ place, (place ≤ t.size ∧ t.offset place = offset) ∧
        p.findFrom? t place firstLine = some found := by
    show (t.place? offset).bind _ = some found ↔ _
    rw [Option.bind_eq_some_iff]
    exact exists_congr fun place => and_congr_left fun _ => IndexedText.place?_eq_some_iff
  rw [hfind]
  constructor
  · rintro ⟨place, ⟨hplace, rfl⟩, hfound⟩
    exact ⟨t.isBoundary_offset place, (findFrom?_literal h hplace).1 hfound⟩
  · rintro ⟨hboundary, hfound⟩
    obtain ⟨place, hplace, rfl⟩ := (IndexedText.isBoundary_iff (t := t)).1 hboundary
    exact ⟨place, ⟨hplace, rfl⟩, (findFrom?_literal h hplace).2 hfound⟩

/-! ## Literal patterns -/

/-- Literal items are a pattern for their text, on all lines: they have no anchors that could be
replaced. -/
theorem isFor_ofSource (hq : ∀ i ∈ q, i.isLiteral = true) (written : List Char) (firstLine : Bool) :
    (ofSource written (spell q)).IsFor (q.map Item.char) firstLine := by
  obtain ⟨program, hread, hfinds⟩ := Engine.read_literal q hq
  refine ⟨hasEscape_spell (by simp) hq, program, ?_, hfinds⟩
  unfold program? ofSource
  rw [replaceEscapes_spell (by simp) hq, hread, ite_self]
  rfl

/-- **A quoted text finds the text**: its first occurrence from a boundary on, and nothing else. -/
theorem find?_quoted (part text : List Char) (offset : Nat) (firstLine : Bool) (found : Found) :
    (ofText (quoted part)).find? text offset firstLine = some found ↔
      Text.IsBoundary text offset ∧ ∃ start, Text.FirstFrom part text offset start ∧
        found = .whole start (start + Text.byteLength part) := by
  have hliteral : ∀ i ∈ part.map Item.quoting, i.isLiteral = true := by
    intro i hi
    obtain ⟨c, -, rfl⟩ := List.mem_map.1 hi
    exact isLiteral_quoting c
  have hchars : (part.map Item.quoting).map Item.char = part := by
    rw [← items_quoted, map_char_items_quoted]
  have hfor := isFor_ofSource hliteral (quoted part) firstLine
  rw [hchars, spell_map_quoting] at hfor
  exact find?_literal hfor

end Pattern

end Highlight
