import Highlight.Pattern.Literal
import Highlight.Proofs.Coverage
import Highlight.Proofs.Restart

/-!
# Ends of lines do not show

The lines of a document are found in three steps: returns in front of newlines are dropped, the other
returns become newlines, and the text is cut at each newline. That is the same as going through the text
once and cutting it wherever a line ends, at the longest end that there is. Each line is then tokenized
from the stack behind the line in front of it, so all that tokenizing sees of a document are its lines.

- `Text.CutInto`: a text with its lines, cut in one pass.
- `Text.cutInto_iff`: the lines of a document are those of the one pass.
- `Tokenizer.stackAfter`: the stack that lines leave behind, in front of the next one.
- `Tokenizer.document_line_ends_unseen`: the main statement.
-/

namespace Highlight

namespace Text

/-! ## Cutting in one pass -/

/-- A text without ends of lines. -/
def Unbroken (line : List Char) : Prop := '\n' ∉ line ∧ '\r' ∉ line

/-- The ends of lines: a newline, a return with a newline behind it, and a return with none. -/
inductive EndsLine : List Char → List Char → Prop
  | newline (rest : List Char) : EndsLine ('\n' :: rest) rest
  | both (rest : List Char) : EndsLine ('\r' :: '\n' :: rest) rest
  | carriageReturn {rest : List Char} : rest.head? ≠ some '\n' → EndsLine ('\r' :: rest) rest

/-- A text with its lines: from left to right it is cut wherever a line ends. -/
inductive CutInto : List Char → List (List Char) → Prop
  | last {line : List Char} : Unbroken line → CutInto line [line]
  | next {line ending rest : List Char} {lines : List (List Char)} : Unbroken line →
      EndsLine ending rest → CutInto rest lines → CutInto (line ++ ending) (line :: lines)

variable {line ending rest : List Char}

theorem unifiedNewlines_cons {c : Char} (h : c ≠ '\r') (rest : List Char) :
    unifiedNewlines (c :: rest) = c :: unifiedNewlines rest := by
  rw [unifiedNewlines, dropReturns]
  · rw [List.map_cons, if_neg h]
    rfl
  · rintro rest' rfl
    exact absurd rfl h

/-- Each end of a line becomes one newline. -/
theorem EndsLine.unifiedNewlines_eq (h : EndsLine ending rest) :
    unifiedNewlines ending = '\n' :: unifiedNewlines rest := by
  cases h with
  | newline => exact unifiedNewlines_cons (by decide) rest
  | both => rfl
  | carriageReturn hrest =>
    rw [unifiedNewlines, dropReturns]
    · rfl
    · rintro rest' - rfl
      exact hrest rfl

theorem Unbroken.unifiedNewlines_append (h : Unbroken line) (rest : List Char) :
    unifiedNewlines (line ++ rest) = line ++ unifiedNewlines rest := by
  induction line with
  | nil => rfl
  | cons c line ih =>
    obtain ⟨hnewline, hreturn⟩ := h
    rw [List.mem_cons, not_or] at hnewline hreturn
    rw [List.cons_append, unifiedNewlines_cons (Ne.symm hreturn.1), ih ⟨hnewline.2, hreturn.2⟩,
      List.cons_append]

/-- A text has no other lines than the one pass finds. -/
theorem CutInto.eq_pieces {text : List Char} {lines : List (List Char)} (h : CutInto text lines) :
    lines = pieces '\n' (unifiedNewlines text) := by
  induction h with
  | @last line hline =>
    have hunified : unifiedNewlines (line ++ []) = line ++ [] := hline.unifiedNewlines_append []
    rw [List.append_nil] at hunified
    rw [hunified, pieces_of_not_mem hline.1]
  | next hline hending _ ih =>
    rw [hline.unifiedNewlines_append, hending.unifiedNewlines_eq, pieces_append hline.1, ih]

theorem CutInto.cons {text : List Char} {lines : List (List Char)} {c : Char} (h : CutInto text lines)
    (hnewline : c ≠ '\n') (hreturn : c ≠ '\r') : ∃ lines', CutInto (c :: text) lines' := by
  have hunbroken : ∀ {line : List Char}, Unbroken line → Unbroken (c :: line) := fun h =>
    ⟨List.not_mem_cons_of_ne_of_not_mem (Ne.symm hnewline) h.1,
      List.not_mem_cons_of_ne_of_not_mem (Ne.symm hreturn) h.2⟩
  cases h with
  | last hline => exact ⟨_, .last (hunbroken hline)⟩
  | next hline hending hrest => exact ⟨_, .next (hunbroken hline) hending hrest⟩

/-- Every text can be cut into lines. -/
theorem exists_cutInto (text : List Char) : ∃ lines, CutInto text lines := by
  have hnil : Unbroken [] := ⟨List.not_mem_nil, List.not_mem_nil⟩
  induction text using dropReturns.induct with
  | case1 => exact ⟨_, .last hnil⟩
  | case2 rest ih =>
    obtain ⟨lines, hlines⟩ := ih
    exact ⟨_, .next hnil (.both rest) hlines⟩
  | case3 c rest hboth ih =>
    obtain ⟨lines, hlines⟩ := ih
    by_cases hnewline : c = '\n'
    · subst hnewline
      exact ⟨_, .next hnil (.newline rest) hlines⟩
    · by_cases hreturn : c = '\r'
      · subst hreturn
        refine ⟨_, .next hnil (.carriageReturn ?_) hlines⟩
        intro hhead
        obtain ⟨rest', rfl⟩ := List.head?_eq_some_iff.1 hhead
        exact hboth rest' rfl rfl
      · exact hlines.cons hnewline hreturn

/-- **The lines of a document are those of the one pass.** -/
theorem cutInto_iff {text : List Char} (htext : text ≠ []) {lines : List (List Char)} :
    CutInto text lines ↔ lines = documentLines text := by
  have hlines : documentLines text = pieces '\n' (unifiedNewlines text) :=
    if_neg (by simpa using htext)
  rw [hlines]
  constructor
  · exact CutInto.eq_pieces
  · rintro rfl
    obtain ⟨lines, hcut⟩ := exists_cutInto text
    rwa [← hcut.eq_pieces]

theorem CutInto.unbroken {text : List Char} {lines : List (List Char)} (h : CutInto text lines) :
    ∀ line ∈ lines, Unbroken line := by
  induction h with
  | last hline => exact List.forall_mem_singleton.2 hline
  | next hline _ _ ih => exact List.forall_mem_cons.2 ⟨hline, ih⟩

end Text

section

variable [Engine]

namespace Tokenizer

/-! ## Line after line -/

/-- The stack that lines are left with, each of which is tokenized from the one of the line in front of
it. -/
def stackAfter (t : Tokenizer) (lines : List (List Char)) (stack : Stack) : Stack :=
  lines.foldl (fun stack line => (t.tokenizeLine line stack).2) stack

theorem length_tokenizeLines (t : Tokenizer) (lines : List (List Char)) (stack : Stack) :
    (t.tokenizeLines lines stack).length = lines.length := by
  induction lines generalizing stack with
  | nil => rfl
  | cons line rest ih => rw [tokenizeLines_cons, List.length_cons, ih, List.length_cons]

/-- A line of several is tokenized from the stack behind those in front of it. -/
theorem getElem?_tokenizeLines (t : Tokenizer) {lines : List (List Char)} {i : Nat}
    {line : List Char} (h : lines[i]? = some line) (stack : Stack) :
    (t.tokenizeLines lines stack)[i]? =
      some (t.tokenizeLine line (t.stackAfter (lines.take i) stack)) := by
  induction lines generalizing i stack with
  | nil => cases h
  | cons first rest ih =>
    rw [tokenizeLines_cons]
    cases i with
    | zero =>
      cases h
      rfl
    | succ i =>
      rw [List.getElem?_cons_succ] at h ⊢
      exact ih h _

/-- The tokens of a line partition it, without the newline that was added behind it. -/
theorem tokenizeLine_tiles (t : Tokenizer) (line : List Char) (stack : Stack) :
    Tiles line 0 (Text.byteLength line) (t.tokenizeLine line stack).1 := by
  obtain ⟨htiles, hposition⟩ := tokenizeText_covers t Searching.sound_remembering.keeping
    (line ++ ['\n']) stack (.empty, .empty)
  refine htiles.clip ?_
  rw [hposition, Text.byteLength_append]
  exact Nat.le_add_right _ _

/-- **Ends of lines do not show.** The lines of a document that is not empty are those that it is cut
into in one pass, at each newline, each return with a newline behind it and each other return. Tokenizing
gives tokens for each of them, those that the line has by itself with the stack behind the lines in front
of it; they partition the line, which has no end of a line in it. So documents with the same lines have
the same tokens. What the tokenizer was used for before does not matter. -/
theorem document_line_ends_unseen (t : Tokenizer) (text : List Char) (htext : text ≠ []) :
    let lines := Text.documentLines text
    (∀ cut, Text.CutInto text cut ↔ cut = lines) ∧
      (t.tokenizeDocument text).length = lines.length ∧
      (∀ i line, lines[i]? = some line →
        let stack := t.stackAfter (lines.take i) t.initialStack
        (t.tokenizeDocument text)[i]? = some (t.tokenizeLine line stack).1 ∧
          Text.Unbroken line ∧
          Tiles line 0 (Text.byteLength line) (t.tokenizeLine line stack).1) ∧
      (∀ other cut, other ≠ [] → Text.CutInto text cut → Text.CutInto other cut →
        t.tokenizeDocument other = t.tokenizeDocument text) ∧
      ∀ tables, t.Served tables →
        ((t.tokenizeLinesWith lines t.initialStack tables).1.map Prod.fst = t.tokenizeDocument text ∧
          ∀ line stack, (t.tokenizeLineWith line stack tables).1 = t.tokenizeLine line stack) := by
  intro lines
  have hcut : Text.CutInto text lines := (Text.cutInto_iff htext).2 rfl
  refine ⟨fun _ => Text.cutInto_iff htext, ?_, fun i line hline => ⟨?_, ?_, ?_⟩, ?_, ?_⟩
  · rw [tokenizeDocument, List.length_map, length_tokenizeLines]
  · rw [tokenizeDocument, List.getElem?_map, getElem?_tokenizeLines t hline]
    rfl
  · exact hcut.unbroken line (List.mem_of_getElem? hline)
  · exact tokenizeLine_tiles t line _
  · intro other cut hother htextCut hotherCut
    rw [Text.cutInto_iff htext] at htextCut
    rw [Text.cutInto_iff hother] at hotherCut
    rw [tokenizeDocument, ← hotherCut, htextCut]
    rfl
  · intro tables htables
    refine ⟨?_, fun line stack => (tokenizeLineWith_eq htables.right line stack).1⟩
    rw [tokenizeLinesWith_eq htables.right]
    rfl

end Tokenizer

end

namespace Tokenizer

/-- A return in front of a return with a newline, and lines without characters in the middle and at the
end. -/
theorem document_line_ends_unseen_mixed :
    let scope := Scope.ofPart (.name { chars := ['a'] })
    let t : Tokenizer := ⟨.empty, "a", scope, .standard⟩
    let text := ['a', '\r', '\r', '\n', '\n', 'b', '\r']
    let other := ['a', '\n', '\n', '\r', 'b', '\r', '\n']
    let lines := [['a'], [], [], ['b'], []]
    text ≠ [] ∧ other ≠ [] ∧ Text.CutInto text lines ∧ Text.CutInto other lines ∧
      (t.tokenizeDocument text).length = 5 ∧
      Tiles ['b'] 0 1 (t.tokenizeLine ['b'] (t.stackAfter [['a'], [], []] t.initialStack)).1 ∧
      t.tokenizeDocument other = t.tokenizeDocument text := by
  intro scope t text other lines
  have htext : text ≠ [] := by simp [text]
  have hother : other ≠ [] := by simp [other]
  obtain ⟨hcut, hlength, hlines, hsame, -⟩ := document_line_ends_unseen t text htext
  obtain ⟨hcutOther, -⟩ := document_line_ends_unseen t other hother
  have htextCut : Text.CutInto text lines := (hcut lines).2 rfl
  have hotherCut : Text.CutInto other lines := (hcutOther lines).2 rfl
  exact ⟨htext, hother, htextCut, hotherCut, hlength, (hlines 3 ['b'] rfl).2.2,
    hsame other lines hother htextCut hotherCut⟩

end Tokenizer

end Highlight
