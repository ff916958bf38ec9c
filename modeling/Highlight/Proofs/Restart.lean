import Highlight.Pattern.Literal
import Highlight.Proofs.KeptStack
import Highlight.Proofs.Links
import Highlight.Proofs.Steps
import Highlight.Proofs.Tables

/-!
# Starting over from a line

All that one line hands to the next is a stack, and every stack that a run comes to can be kept and
read back: its frames are those that it started with and those of rules that were found by their
numbers, and no frame holds an offset behind the end of a line. Since tables do not show either,
another tokenizer for the same documents can go on from any line.

- `Stack.Numbered`: the numbers of all rules have 32 bits, as the kept form demands.
- `Tokenizer.tokenizeLineWith_keepable`: the stack behind a line.
- `stackBehind`, `Tokenizer.stackBehind_invariant`: the stack behind several lines.
- `Tokenizer.tokenizeLines_append`: lines that are tokenized after others.
- `Tokenizer.restart_from_kept_stack`: starting over.
-/

namespace Highlight

namespace Stack

/-- The rules of all frames have numbers of 32 bits. -/
def Numbered (s : Stack) : Prop := ∀ f ∈ s.frames, f.rule.rule < UInt32.size

variable {s : Stack}

theorem Numbered.withContent (h : s.Numbered) (scopes : List Scope) :
    (s.withContent scopes).Numbered :=
  forall_frames_withContent h (h s.top s.top_mem_frames)

/-- At the end of a line only the numbers of the rules matter. -/
theorem Numbered.keepable_endLine (h : s.Numbered) : s.endLine.Keepable :=
  forall_frames_endLine fun f hf => ⟨h f hf, rfl⟩

theorem Keepable.numbered (h : s.Keepable) : s.Numbered := fun f hf => (h f hf).rule

end Stack

section

variable [Engine]

namespace Tokenizer

variable {σ : Type} {t : Tokenizer} {searching : Searching σ} {retok : Retokenize σ}
  {line : IndexedText} {s s' : LineState σ} {found : Found}

/-! ## Frames of a line -/

theorem Move.numbered (h : t.Move searching line s s' found) (hs : s.stack.Numbered) :
    s'.stack.Numbered := by
  cases h with
  | closed r _ hstack _ =>
    rw [hstack]
    exact Stack.forall_frames_pop (hs.withContent _)
  | passed hstack _ =>
    rw [hstack]
    exact hs
  | opened ref rule ending _ hrule _ _ hstack _ =>
    rw [hstack]
    exact Stack.forall_frames_push hs (Registry.lt_of_rule? hrule)

theorem tokenizeText_numbered (text : List Char) {stack : Stack} (hs : stack.Numbered)
    (memory : σ) :
    (t.tokenizeText searching text stack memory).stack.Numbered := by
  refine run_invariant (I := fun s => s.stack.Numbered) (fun hs hstep => ?_) _ fun f hf => ?_
  · obtain ⟨_, _, -, hmove⟩ := step?_move hstep
    exact hmove.numbered hs
  · -- the conditions only take frames away
    exact hs f ((start_frames t searching _ _ stack memory).subset hf)

/-- The stack behind a line can be kept. -/
theorem tokenizeLineWith_keepable (line : List Char) {stack : Stack} (hs : stack.Numbered)
    (tables : Tables) : (t.tokenizeLineWith line stack tables).1.2.Keepable :=
  (tokenizeText_numbered (line ++ ['\n']) hs (.empty, tables)).keepable_endLine

end Tokenizer

/-- The tokenizer for documents in a grammar that is held at a path. -/
theorem Registry.Reached.tokenizer {r : Registry} {held : String → Option Grammar}
    (h : r.Reached held) {path : String} {g : Grammar} (hg : held path = some g)
    (options : Options) : r.tokenizer path options = .ok ⟨r, path, g.scopeName, options⟩ := by
  rw [Registry.tokenizer, h.linked.find?, hg]
  rfl

/-- A tokenizer for documents is for a grammar of the registry. -/
theorem Registry.of_tokenizer {r : Registry} {path : String} {options : Options} {t : Tokenizer}
    (h : r.tokenizer path options = .ok t) :
    ∃ g, r.find? path = some g ∧ t = ⟨r, path, g.grammar.scopeName, options⟩ := by
  unfold tokenizer at h
  split at h
  · rename_i g hg
    cases h
    exact ⟨g, hg, rfl⟩
  · cases h

/-! ## Several lines -/

/-- The stack behind lines, given the one in front of them and what they were tokenized to. -/
def stackBehind (start : Stack) (produced : List (List Token × Stack)) : Stack :=
  (produced.getLast?.map Prod.snd).getD start

omit [Engine] in
theorem stackBehind_cons (start : Stack) (here : List Token × Stack)
    (produced : List (List Token × Stack)) :
    stackBehind start (here :: produced) = stackBehind here.2 produced := by
  cases produced with
  | nil => rfl
  | cons next produced => simp [stackBehind, List.getLast?_cons]

namespace Tokenizer

variable {t : Tokenizer}

theorem tokenizeLines_cons (t : Tokenizer) (line : List Char) (rest : List (List Char))
    (stack : Stack) :
    t.tokenizeLines (line :: rest) stack =
      t.tokenizeLine line stack :: t.tokenizeLines rest (t.tokenizeLine line stack).2 := by
  have hright := (tokenizeLineWith_eq (Tables.right_empty t) line stack).2
  show _ :: (t.tokenizeLinesWith rest _ _).1 = _
  rw [tokenizeLinesWith_eq hright]
  rfl

/-- Lines behind others are tokenized from the stack behind these. -/
theorem tokenizeLines_append (t : Tokenizer) (front back : List (List Char)) (stack : Stack) :
    t.tokenizeLines (front ++ back) stack = t.tokenizeLines front stack ++
      t.tokenizeLines back (stackBehind stack (t.tokenizeLines front stack)) := by
  induction front generalizing stack with
  | nil => rfl
  | cons line rest ih =>
    rw [List.cons_append, tokenizeLines_cons, tokenizeLines_cons, ih, stackBehind_cons,
      List.cons_append]

/-- What every line keeps holds of the stack behind several lines. -/
theorem stackBehind_invariant {P : Stack → Prop}
    (hP : ∀ line stack, P stack → P (t.tokenizeLine line stack).2) (lines : List (List Char))
    {stack : Stack} (hs : P stack) : P (stackBehind stack (t.tokenizeLines lines stack)) := by
  induction lines generalizing stack with
  | nil => exact hs
  | cons line rest ih =>
    rw [tokenizeLines_cons, stackBehind_cons]
    exact ih (hP line stack hs)

/-- What every line keeps holds behind all lines, and so does what it makes of the tokens. -/
theorem tokenizeLines_invariant {P : Stack → Prop} {Q : List Token → Prop}
    (hP : ∀ line stack, P stack →
      Q (t.tokenizeLine line stack).1 ∧ P (t.tokenizeLine line stack).2)
    (lines : List (List Char)) {stack : Stack} (hs : P stack) :
    ∀ here ∈ t.tokenizeLines lines stack, Q here.1 ∧ P here.2 := by
  induction lines generalizing stack with
  | nil => exact fun _ hhere => absurd hhere List.not_mem_nil
  | cons line rest ih =>
    rw [tokenizeLines_cons, List.forall_mem_cons]
    have hline := hP line stack hs
    exact ⟨hline, ih hline.2⟩

theorem stackBehind_keepable (lines : List (List Char)) {stack : Stack} (hs : stack.Keepable) :
    (stackBehind stack (t.tokenizeLines lines stack)).Keepable :=
  stackBehind_invariant (fun line _ hs => tokenizeLineWith_keepable line hs.numbered .empty) lines hs

theorem initialStack_keepable (t : Tokenizer) : t.initialStack.Keepable := by
  intro f hf
  cases List.mem_singleton.1 hf
  have hroot : rootRule < UInt32.size := by decide
  exact ⟨hroot, rfl⟩

/-- **Tokenizing can start over from any line.** Take a run over the lines of a document, with a
tokenizer that has been used in any way before, from the stack in front of a document or from one that
was read. The stack behind the lines in front is read back from the text that it is kept as, and with
it any tokenizer for the same grammar of the same registry, whatever it has been used for, gives the
same tokens and stacks for the other lines. -/
theorem restart_from_kept_stack (r : Registry) (path : String) (options : Options)
    (t t' : Tokenizer) (ht : r.tokenizer path options = .ok t)
    (ht' : r.tokenizer path options = .ok t') (start : Stack)
    (hstart : start = t.initialStack ∨ ∃ kept, Stack.ofText? kept = some start)
    (before after : Tables) (hbefore : t.Served before) (hafter : t'.Served after)
    (front back : List (List Char)) :
    let stack := stackBehind start (t.tokenizeLinesWith front start before).1
    Stack.ofText? stack.text = some stack ∧
      (t.tokenizeLinesWith (front ++ back) start before).1 =
        (t.tokenizeLinesWith front start before).1 ++ (t'.tokenizeLinesWith back stack after).1 := by
  -- a tokenizer is determined by its registry, path and options
  have hsame : t' = t := Except.ok.inj (ht'.symm.trans ht)
  subst hsame
  have hkeepable : start.Keepable := by
    rcases hstart with rfl | ⟨kept, hkept⟩
    · exact t'.initialStack_keepable
    · exact Stack.keepable_of_ofText? hkept
  intro stack
  -- tables do not show, so all three runs are those with empty ones
  rw [tokenizeLinesWith_eq hbefore.right, tokenizeLinesWith_eq hbefore.right,
    tokenizeLinesWith_eq hafter.right, tokenizeLines_append]
  have hstack : stack = stackBehind start (t'.tokenizeLines front start) :=
    congrArg (stackBehind start) (tokenizeLinesWith_eq hbefore.right front start)
  refine ⟨Stack.ofText?_text ?_, ?_⟩
  · rw [hstack]
    exact stackBehind_keepable front hkeepable
  · rw [hstack]

end Tokenizer

end

namespace Tokenizer

/-- Starting over behind a line that leaves a region open, whose name is filled in with the text that
opened it, with tables that hold what another line has asked for. -/
theorem restart_behind_first_line :
    let x : Part := .name { chars := ['x'] }
    let a : Part := .name { chars := ['a'] }
    let tag : Part := .name { chars := ['t', 'a', 'g'] }
    let b : Part := .name { chars := ['b'] }
    let region : RuleDefinition :=
      { keys := { name := some "tag.$1", beginText := some "<(b|c)", endText := some "</\\1>" } }
    let d : GrammarDefinition := { scopeName := some "x.a", patterns := [region] }
    let scope : Scope := ⟨[x, a], by decide⟩
    let captured : Scope := ⟨[tag, b], by decide⟩
    let held := Function.update (fun _ => none) "x.a" (some (Grammar.ofScoped d scope))
    let front := [['<', 'b']]
    let back := [['y', '<', '/', 'b', '>']]
    ∃ r : Registry, r.Reached held ∧
      let t : Tokenizer := ⟨r, "x.a", scope, .standard⟩
      let used := (t.tokenizeLineWith ['<', 'c', '<', '/', 'c', '>'] t.initialStack .empty).2
      let stack := stackBehind t.initialStack (t.tokenizeLinesWith front t.initialStack used).1
      r.tokenizer "x.a" .standard = .ok t ∧ t.Served used ∧
        (used.candidates.length = 2 ∧ used.endPatterns.map Prod.fst = [['<', '/', 'c', '>']]) ∧
        stack.top.nameScopes = [scope, captured] ∧
        Stack.ofText? stack.text = some stack ∧
        (t.tokenizeLinesWith (front ++ back) t.initialStack used).1 =
          (t.tokenizeLinesWith front t.initialStack used).1 ++
            (t.tokenizeLinesWith back stack used).1 := by
  intro x a tag b region d scope captured held front back
  have hg : Grammar.ofDefinition d = .ok (Grammar.ofScoped d scope) := rfl
  have hpath : Registry.checkPath "x.a" = .ok () := rfl
  -- the tables and the stack are looked at before the registry is hidden behind its name
  obtain ⟨r, hreached, hused, hscopes⟩ : ∃ r : Registry, r.Reached held ∧
      let t : Tokenizer := ⟨r, "x.a", scope, .standard⟩
      let used := (t.tokenizeLineWith ['<', 'c', '<', '/', 'c', '>'] t.initialStack .empty).2
      let stack := stackBehind t.initialStack (t.tokenizeLinesWith front t.initialStack used).1
      (used.candidates.length = 2 ∧ used.endPatterns.map Prod.fst = [['<', '/', 'c', '>']]) ∧
        stack.top.nameScopes = [scope, captured] :=
    ⟨_, Registry.reached_single hg hpath, by decide +kernel⟩
  refine ⟨r, hreached, ?_⟩
  intro t used stack
  have hheld : held "x.a" = some (Grammar.ofScoped d scope) := Function.update_self ..
  have ht : r.tokenizer "x.a" .standard = .ok t := hreached.tokenizer hheld .standard
  have hserved : t.Served used := (Served.fresh t).tokenizeLineWith _ _
  exact ⟨ht, hserved, hused, hscopes, restart_from_kept_stack r "x.a" .standard t t ht ht
    t.initialStack (.inl rfl) used used hserved hserved front back⟩

end Tokenizer

end Highlight
