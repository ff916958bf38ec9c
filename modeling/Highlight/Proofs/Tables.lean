import Highlight.Proofs.Matches
import Highlight.Proofs.Simulation

/-!
# Tables do not show

A tokenizer keeps the candidates inside of rules and the patterns with captured text filled in. The
patterns are shared with other tokenizers, so the table for them can change between two calls by work
on other documents in other grammars. None of this shows: every entry is what working it out anew
gives, so tokenizing with tables produces the lines that tokenizing without them does.

- `Tables.Right`: the entries are what they would be if worked out anew.
- `Searching.keeping_simulates`: searching with such tables cannot be told from searching without.
- `Tokenizer.Served`: the tables that a tokenizer can have come to.
- `Tokenizer.Served.right`: they are right.
- `Tokenizer.tokenizeLineWith_spec`, `Tokenizer.tokenizeLinesWith_eq`: the lines that are produced.
-/

namespace Highlight

variable [Engine]

namespace Tables

/-- Every entry is what working it out anew gives. -/
structure Right (t : Tokenizer) (tables : Tables) : Prop where
  candidates : ∀ rule rules, (rule, rules) ∈ tables.candidates → rules = t.candidates rule
  endPatterns : ∀ text pattern, (text, pattern) ∈ tables.endPatterns → pattern = .ofEndText text

variable {t : Tokenizer} {tables : Tables}

theorem right_empty (t : Tokenizer) : Right t .empty where
  candidates _ _ h := absurd h List.not_mem_nil
  endPatterns _ _ h := absurd h List.not_mem_nil

theorem Right.candidatesIn (h : tables.Right t) (rule : RuleRef) :
    (tables.candidatesIn t rule).1 = t.candidates rule ∧ (tables.candidatesIn t rule).2.Right t := by
  unfold Tables.candidatesIn
  split
  · rename_i known hknown
    exact ⟨h.candidates rule known (mem_of_lookup hknown), h⟩
  · refine ⟨rfl, ⟨fun rule' rules hmem => ?_, h.endPatterns⟩⟩
    rcases List.mem_cons.1 hmem with heq | hmem
    · cases heq
      rfl
    · exact h.candidates rule' rules hmem

theorem Right.endPatternFor (h : tables.Right t) (text : List Char) :
    (tables.endPatternFor text).1 = .ofEndText text ∧ (tables.endPatternFor text).2.Right t := by
  unfold Tables.endPatternFor
  split
  · rename_i known hknown
    exact ⟨h.endPatterns text known (mem_of_lookup hknown), h⟩
  · refine ⟨rfl, ⟨h.candidates, fun text' pattern hmem => ?_⟩⟩
    rcases List.mem_cons.1 hmem with heq | hmem
    · cases heq
      rfl
    · -- a full table has been emptied, any other kept
      split at hmem
      · cases hmem
      · exact h.endPatterns text' pattern hmem

/-- The memory beside right tables is the one without them. -/
def Hidden (t : Tokenizer) : MemoryRelation (SearchMemory × Tables) SearchMemory :=
  fun _ _ memory memory' => memory.1 = memory' ∧ memory.2.Right t

end Tables

/-- Right tables give the answers that are worked out without them. -/
theorem Searching.keeping_simulates (t : Tokenizer) :
    remembering.keeping.Simulates t remembering (Tables.Hidden t) where
  enter _ firstLine' h := ⟨congrArg (remembering.enter firstLine') h.1, h.2⟩
  leave h h' := ⟨h.1, h'.2⟩
  noteFirstLine firstLine' h := ⟨congrArg (remembering.noteFirstLine firstLine') h.1, h.2⟩
  find _ h _ := by
    obtain ⟨rfl, hright⟩ := h
    exact ⟨rfl, rfl, hright⟩
  candidates ref h := by
    obtain ⟨rfl, hright⟩ := h
    obtain ⟨hanswer, hkept⟩ := hright.candidatesIn ref
    refine ⟨?_, rfl, hkept⟩
    show (Tables.candidatesIn t ref _).1 = (t.candidates ref, _).1
    rw [hanswer]
  endPattern text h := by
    obtain ⟨rfl, hright⟩ := h
    obtain ⟨hanswer, hkept⟩ := hright.endPatternFor text
    refine ⟨?_, rfl, hkept⟩
    show (Tables.endPatternFor text _).1 = (Pattern.ofEndText text, _).1
    rw [hanswer]

namespace Tokenizer

variable {t : Tokenizer} {tables : Tables}

/-- A text is tokenized in the same way with right tables as without them. -/
theorem tokenizeText_keeping (h : tables.Right t) (text : List Char) (stack : Stack) :
    (t.tokenizeText Searching.remembering.keeping text stack (.empty, tables)).Alike
      (Tables.Hidden t) (.ofText text)
      (t.tokenizeText Searching.remembering text stack .empty) := by
  have hhidden : Tables.Hidden t (.ofText []) true (.empty, tables) .empty := ⟨rfl, h⟩
  exact tokenizeText_alike (Searching.keeping_simulates t) text stack hhidden

/-- A line is tokenized in the same way with right tables as without them, and they stay right. -/
theorem tokenizeLineWith_spec (h : tables.Right t) (line : List Char) (stack : Stack) :
    let s := t.tokenizeText Searching.remembering (line ++ ['\n']) stack .empty
    (t.tokenizeLineWith line stack tables).1 =
        (s.tokens.clip (Text.byteLength line), s.stack.endLine) ∧
      (t.tokenizeLineWith line stack tables).2.Right t := by
  have hkept := tokenizeText_keeping h (line ++ ['\n']) stack
  obtain ⟨_, -, hright⟩ := hkept.memory
  refine ⟨?_, hright⟩
  unfold tokenizeLineWith
  simp only
  rw [hkept.tokens, hkept.stack]

/-- A line is tokenized in the same way with all right tables, and they stay right. -/
theorem tokenizeLineWith_eq (h : tables.Right t) (line : List Char) (stack : Stack) :
    (t.tokenizeLineWith line stack tables).1 = t.tokenizeLine line stack ∧
      (t.tokenizeLineWith line stack tables).2.Right t := by
  obtain ⟨hwith, hright⟩ := tokenizeLineWith_spec h line stack
  obtain ⟨hempty, -⟩ := tokenizeLineWith_spec (Tables.right_empty t) line stack
  exact ⟨hwith.trans hempty.symm, hright⟩

/-- Lines are tokenized in the same way with all right tables. -/
theorem tokenizeLinesWith_eq (h : tables.Right t) (lines : List (List Char)) (stack : Stack) :
    (t.tokenizeLinesWith lines stack tables).1 = t.tokenizeLines lines stack := by
  have hlines : ∀ {tables tables' : Tables}, tables.Right t → tables'.Right t →
      (t.tokenizeLinesWith lines stack tables).1 = (t.tokenizeLinesWith lines stack tables').1 := by
    induction lines generalizing stack with
    | nil => exact fun _ _ => rfl
    | cons line rest ih =>
      intro tables tables' h h'
      obtain ⟨hhere, hnext⟩ := tokenizeLineWith_eq h line stack
      obtain ⟨hhere', hnext'⟩ := tokenizeLineWith_eq h' line stack
      simp only [tokenizeLinesWith]
      rw [hhere, hhere', ih _ hnext hnext']
  exact hlines h (Tables.right_empty t)

/-- The tables that a tokenizer can have come to: those of a new one, those behind a line that it
tokenized with whatever stack, and those in which the patterns have been replaced by the ones that
another tokenizer has come to. -/
inductive Served : Tokenizer → Tables → Prop
  | fresh (t : Tokenizer) : Served t .empty
  | line {t : Tokenizer} {tables after : Tables} {produced : List Token × Stack} (line : List Char)
      (stack : Stack) : Served t tables → t.tokenizeLineWith line stack tables = (produced, after) →
      Served t after
  | shared {t other : Tokenizer} {tables tables' : Tables} : Served t tables → Served other tables' →
      Served t ⟨tables.candidates, tables'.endPatterns⟩

theorem Served.tokenizeLineWith (h : t.Served tables) (line : List Char) (stack : Stack) :
    t.Served (t.tokenizeLineWith line stack tables).2 :=
  .line line stack h rfl

/-- Whatever a tokenizer has been used for, its tables are right. -/
theorem Served.right (h : t.Served tables) : tables.Right t := by
  induction h with
  | fresh t => exact Tables.right_empty t
  | line line stack _ hline ih =>
    have hright := (tokenizeLineWith_eq ih line stack).2
    rwa [hline] at hright
  | shared _ _ ih ih' => exact ⟨ih.candidates, ih'.endPatterns⟩

end Tokenizer

end Highlight
