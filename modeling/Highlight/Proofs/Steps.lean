import Highlight.Tokenizer

/-!
# What a step does

A step closes the innermost region, opens a region, or leaves the stack as it is. `Move` says for each
of the three what becomes of the stack and of the place; whatever holds of all steps is read off from
it, so that no other proof goes through the branches of a step again.

- `Tokenizer.Move`: the three kinds of steps.
- `Tokenizer.step?_move`: each step is one of them.
- `Tokenizer.conditions_frames`: the conditions of a line keep the first frames of a stack.
- `Tokenizer.Steps`: a number of steps, one after the other.
- `Tokenizer.run_eq_of_steps`: a run that is allowed enough steps.
- `Tokenizer.run_invariant`: what every step keeps is kept by a run.
-/

namespace Highlight

namespace Stack

theorem entered_popped?_withContent (s : Stack) (scopes : List Scope) :
    (s.withContent scopes).popped?.map Frame.entered = s.popped?.map Frame.entered := by
  unfold withContent mapTop popped?
  split
  · rename_i habove
    simp [habove]
  · rename_i habove
    simp [habove]

theorem top_mem_frames (s : Stack) : s.top ∈ s.frames := by
  obtain ⟨bottom, above, firstLine⟩ := s
  cases above with
  | nil => exact List.mem_cons_self
  | cons f rest => simp [top, frames]

/-- The top of a stack is its last frame. -/
theorem getLast?_frames (s : Stack) : s.frames.getLast? = some s.top := by
  obtain ⟨bottom, above, firstLine⟩ := s
  cases above with
  | nil => rfl
  | cons f rest => simp [frames, top, List.getLast?_cons]

variable {s : Stack} {P : Frame → Prop}

/-- What holds of all frames holds of them with another one, if it holds of that one. -/
theorem forall_frames_push (h : ∀ f ∈ s.frames, P f) {f : Frame} (hf : P f) :
    ∀ g ∈ (s.push f).frames, P g := by
  intro g hg
  rw [frames_push, List.mem_append, List.mem_singleton] at hg
  rcases hg with hg | rfl
  · exact h g hg
  · exact hf

/-- What holds of all frames holds of those that are left. -/
theorem forall_frames_pop (h : ∀ f ∈ s.frames, P f) : ∀ f ∈ s.pop.frames, P f := by
  intro f hf
  refine h f ?_
  simp only [frames, Stack.pop, List.mem_cons, List.mem_reverse] at hf ⊢
  exact hf.imp_right List.mem_of_mem_tail

/-- Only the content scopes of the top change. -/
theorem forall_frames_withContent (h : ∀ f ∈ s.frames, P f) {scopes : List Scope}
    (htop : P { s.top with contentScopes := scopes }) :
    ∀ f ∈ (s.withContent scopes).frames, P f := by
  obtain ⟨bottom, above, firstLine⟩ := s
  cases above with
  | nil =>
    intro f hf
    rw [List.mem_singleton.1 hf]
    exact htop
  | cons g rest =>
    intro f hf
    simp only [Stack.withContent, mapTop, frames, List.mem_cons, List.mem_reverse] at hf
    rcases hf with rfl | rfl | hf
    · exact h _ List.mem_cons_self
    · exact htop
    · exact h f (by simp [frames, hf])

/-- Behind a line only the offsets of the frames are gone. -/
theorem forall_frames_endLine (h : ∀ f ∈ s.frames, P { f with entered := none }) :
    ∀ f ∈ s.endLine.frames, P f := by
  intro f hf
  simp only [frames, endLine, List.mem_cons, List.mem_reverse, List.mem_map] at hf
  rcases hf with rfl | ⟨g, hg, rfl⟩
  · exact h s.bottom List.mem_cons_self
  · exact h g (List.mem_cons_of_mem _ (List.mem_reverse.2 hg))

end Stack

namespace Tokenizer

variable {σ : Type}

/-- The place behind a match: its end, or, if it took no text, the next character when the next step
would be the same again. -/
def placeBehind (line : IndexedText) (position : Nat) (found : Found) (skip : Bool) : Nat :=
  if position < found.stop then found.stop
  else if skip then Text.nextPlace line.text position
  else position

/-- Behind a match the place is the one behind its text. -/
theorem position_moveOn (line : IndexedText) (s : LineState σ) (found : Found) (skip : Bool) :
    (moveOn line s found skip).position = placeBehind line s.position found skip := by
  unfold moveOn placeBehind
  split
  · rfl
  · split
    · rfl
    · rfl

theorem tokens_moveOn (line : IndexedText) (s : LineState σ) (found : Found) (skip : Bool) :
    (moveOn line s found skip).tokens = s.tokens := by
  unfold moveOn
  split
  · rfl
  · split
    · rfl
    · rfl

theorem lt_nextPlace (text : List Char) (position : Nat) :
    position < Text.nextPlace text position := by
  unfold Text.nextPlace
  split
  · rename_i c _ _
    have := c.utf8Size_pos
    omega
  · exact Nat.lt_succ_self position

/-- The place behind a match is not in front of where the match was searched for. -/
theorem le_placeBehind (line : IndexedText) (position : Nat) (found : Found) (skip : Bool) :
    position ≤ placeBehind line position found skip := by
  unfold placeBehind
  split
  · rename_i h
    exact Nat.le_of_lt h
  · split
    · exact Nat.le_of_lt (lt_nextPlace line.text position)
    · exact Nat.le_refl position

/-- A match that is skipped when it takes no text leads to a later place. -/
theorem lt_placeBehind (line : IndexedText) (position : Nat) (found : Found) :
    position < placeBehind line position found true := by
  unfold placeBehind
  split
  · rename_i h
    exact h
  · exact lt_nextPlace line.text position

end Tokenizer

variable [Engine]

/-- The pattern that ends the regions of a rule or keeps them going. -/
def RuleKind.ending? : RuleKind → Option Pattern
  | .region r => some r.closing
  | .guarded w => some w.condition
  | _ => none

namespace Tokenizer

variable {σ : Type} {t : Tokenizer} {searching : Searching σ} {retok : Retokenize σ}
  {line : IndexedText} {s s' : LineState σ} {found : Found}

/-- The frame of a region that a match opens on top of a stack. -/
def regionFrame (below : Stack) (position : Nat) (line : IndexedText) (ref : RuleRef) (rule : Rule)
    (ending : Pattern) (found : Found) : Frame where
  rule := ref
  nameScopes := below.scopes ++ rule.nameScopes line.text found.groups
  contentScopes := below.scopes ++ rule.nameScopes line.text found.groups ++
    rule.contentScopes line.text found.groups
  endPattern :=
    if ending.hasBackReferences then
      some (Pattern.fillBackReferences line.text found.groups ending.text)
    else none
  entered := some position

/-- Opening a region puts its frame on the stack. -/
theorem openRegion_eq_push (s : LineState σ) (line : IndexedText) (ref : RuleRef) (rule : Rule)
    (ending : Pattern) (found : Found) :
    openRegion s line ref rule ending found =
      s.stack.push (regionFrame s.stack s.position line ref rule ending found) := by
  unfold openRegion regionFrame
  simp only
  split
  · rfl
  · rfl

/-- What a step that takes a match does to the stack and to the place. -/
inductive Move (t : Tokenizer) (searching : Searching σ) (line : IndexedText)
    (s s' : LineState σ) (found : Found) : Prop
  /-- The innermost region ends. If it began at this very place, the next step would open it again. -/
  | closed (r : EndRule) (closing : t.closing? s.stack.top = some r)
      (stack : s'.stack = (s.stack.withContent s.stack.top.nameScopes).pop)
      (position : s'.position = placeBehind line s.position found
        (s.stack.popped?.any fun f => f.entered == some s.position))
  /-- No region ends or begins. -/
  | passed (stack : s'.stack = s.stack)
      (position : s'.position = placeBehind line s.position found true)
  /-- A region begins whose rule is a candidate, and there is room for its frame. -/
  | opened (ref : RuleRef) (rule : Rule) (ending : Pattern)
      (candidate : ∃ memory, ref ∈ (searching.candidates t s.stack.top.rule memory).1)
      (known : t.rule? ref = some rule) (ends : rule.kind.ending? = some ending)
      (room : s.stack.depth < t.options.maxStackDepth.toNat)
      (stack : s'.stack =
        s.stack.push (regionFrame s.stack s.position line ref rule ending found))
      (position : s'.position = placeBehind line s.position found false)

/-- The memory is no part of a move. -/
theorem Move.of_memory {memory : σ}
    (h : t.Move searching line { s with memory := memory } s' found) :
    t.Move searching line s s' found := by
  cases h with
  | closed r closing stack position => exact .closed r closing stack position
  | passed stack position => exact .passed stack position
  | opened ref rule ending candidate known ends room stack position =>
    exact .opened ref rule ending candidate known ends room stack position

/-! ## Each step is a move -/

/-- The best candidate is the one from before or one of those that are tried. -/
theorem bestOf_rule (t : Tokenizer) (searching : Searching σ) (place : Nat) (firstLine : Bool)
    (candidates : List RuleRef) {best : Option (Choice × Found)} {memory : σ} {choice : Choice}
    (h : (t.bestOf searching line place firstLine candidates best memory).1 = some (choice, found)) :
    (∃ ref ∈ candidates, choice = .rule ref) ∨ best = some (choice, found) := by
  induction candidates generalizing best memory with
  | nil => exact .inr h
  | cons ref rest ih =>
    have hlater : ∀ {best memory},
        (t.bestOf searching line place firstLine rest best memory).1 = some (choice, found) →
        (∃ ref' ∈ ref :: rest, choice = .rule ref') ∨ best = some (choice, found) := by
      intro best memory h
      rcases ih h with ⟨ref', hmem, hchoice⟩ | hbest
      · exact .inl ⟨ref', List.mem_cons_of_mem _ hmem, hchoice⟩
      · exact .inr hbest
    unfold bestOf at h
    split at h
    · exact hlater h
    · split at h
      · exact hlater h
      · split at h
        · exact hlater h
        · split at h
          · -- nothing begins before a match at the place itself, so the search ends with it
            cases h
            exact .inl ⟨ref, List.mem_cons_self, rfl⟩
          · rcases hlater h with hrule | hbest
            · exact .inl hrule
            · cases hbest
              exact .inl ⟨ref, List.mem_cons_self, rfl⟩

/-- Only a region can be closed, and a rule that wins is a candidate. -/
theorem next?_source {stack : Stack} {place : Nat} {firstLine : Bool} {memory : σ} {choice : Choice}
    (h : (t.next? searching stack line place firstLine memory).1 = some (choice, found)) :
    (choice = .close ∧ ∃ r, t.closing? stack.top = some r) ∨
      ∃ ref, choice = .rule ref ∧ ref ∈ (searching.candidates t stack.top.rule memory).1 := by
  have hbest : ∀ {candidates : List RuleRef} {best : Option (Choice × Found)} {memory' : σ},
      candidates = (searching.candidates t stack.top.rule memory).1 →
      (t.bestOf searching line place firstLine candidates best memory').1 = some (choice, found) →
      (∃ ref, choice = .rule ref ∧ ref ∈ (searching.candidates t stack.top.rule memory).1) ∨
        best = some (choice, found) := by
    rintro candidates best memory' rfl h
    rcases bestOf_rule t searching place firstLine _ h with ⟨ref, hmem, hchoice⟩ | heq
    · exact .inl ⟨ref, hchoice, hmem⟩
    · exact .inr heq
  unfold next? at h
  split at h
  rename_i candidates memory₁ hcandidates
  have hmem : candidates = (searching.candidates t stack.top.rule memory).1 := by rw [hcandidates]
  split at h
  · rcases hbest hmem h with hrule | hnone
    · exact .inr hrule
    · cases hnone
  · rename_i r hclosing
    have hend : ∀ {found'}, some (Choice.close, found') = some (choice, found) →
        choice = .close ∧ ∃ r, t.closing? stack.top = some r := by
      intro found' heq
      cases heq
      exact ⟨rfl, r, hclosing⟩
    split at h
    -- the end of the region is tried after the rules or before them
    split at h
    · split at h
      rename_i best memory₃ hrules
      have hwinner : best = some (choice, found) →
          ∃ ref, choice = .rule ref ∧ ref ∈ (searching.candidates t stack.top.rule memory).1 := by
        intro heq
        rcases hbest hmem ((congrArg Prod.fst hrules).trans heq) with hrule | hnone
        · exact hrule
        · cases hnone
      split at h
      · exact .inr (hwinner h)
      · split at h
        · exact .inl (hend h)
        · exact .inr (hwinner h)
    · split at h
      · rcases hbest hmem h with hrule | hnone
        · exact .inr hrule
        · cases hnone
      · split at h
        · exact .inl (hend h)
        · rcases hbest hmem h with hrule | heq
          · exact .inr hrule
          · exact .inl (hend heq)

/-- Ending a region is a move. -/
theorem close_move (r : EndRule) (h : t.closing? s.stack.top = some r) :
    t.Move searching line s (t.close retok line s found) found := by
  refine .closed r h ?_ ?_
  · unfold close
    rw [stack_moveOn]
  · -- the frame that is taken off has other content scopes, but the offset it was opened at
    have hentered := Stack.entered_popped?_withContent s.stack s.stack.top.nameScopes
    unfold close
    rw [position_moveOn]
    cases hpopped : s.stack.popped? with
    | none =>
      rw [hpopped, Option.map_none, Option.map_eq_none_iff] at hentered
      simp [hentered]
    | some f =>
      rw [hpopped, Option.map_some, Option.map_eq_some_iff] at hentered
      obtain ⟨g, hg, hfg⟩ := hentered
      simp [hg, hfg]

/-- So is the match of a rule without a region. -/
theorem takeMatch_move (ref : RuleRef) (rule : Rule) (rules : CaptureRules) :
    t.Move searching line s (t.takeMatch retok line s ref rule rules found) found := by
  refine .passed ?_ ?_
  · unfold takeMatch
    rw [stack_moveOn]
    rfl
  · unfold takeMatch
    rw [position_moveOn]

/-- So is the beginning of a region, which does not open one if there is no room for a frame, or if
the same one was opened at this place. -/
theorem enter_move {ref : RuleRef} {rule : Rule} {ending : Pattern}
    (hcandidate : ∃ memory, ref ∈ (searching.candidates t s.stack.top.rule memory).1)
    (hrule : t.rule? ref = some rule) (hending : rule.kind.ending? = some ending)
    (rules : CaptureRules) :
    t.Move searching line s (t.enter retok line s ref rule rules ending found) found := by
  unfold enter
  simp only
  -- a region that is open from this place is passed over, and one without room taken as a match
  split
  · refine .passed ?_ ?_
    · rw [stack_moveOn]
    · rw [position_moveOn]
  · split
    · exact takeMatch_move ref rule rules
    · rename_i hroom
      refine .opened ref rule ending hcandidate hrule hending (Nat.not_le.1 hroom) ?_ ?_
      · rw [stack_moveOn, openRegion_eq_push]
      · rw [position_moveOn]

theorem perform?_move {choice : Choice}
    (hsource : (choice = .close ∧ ∃ r, t.closing? s.stack.top = some r) ∨
      ∃ ref, choice = .rule ref ∧
        ∃ memory, ref ∈ (searching.candidates t s.stack.top.rule memory).1)
    (h : t.perform? retok line s found choice = some s') : t.Move searching line s s' found := by
  rcases hsource with ⟨rfl, r, hr⟩ | ⟨ref, rfl, hcandidate⟩
  · cases h
    exact close_move r hr
  · unfold perform? at h
    simp only at h
    split at h
    · cases h
    · rename_i rule hrule
      split at h
      · cases h
        exact takeMatch_move ref rule _
      · rename_i r hkind
        cases h
        exact enter_move hcandidate hrule (by rw [hkind]; rfl) _
      · rename_i w hkind
        cases h
        exact enter_move hcandidate hrule (by rw [hkind]; rfl) _
      · cases h

/-- **Each step is a move**, from a place on the line. -/
theorem step?_move (h : t.step? searching retok line s = some s') :
    ∃ place found, line.place? s.position = some place ∧ t.Move searching line s s' found := by
  unfold step? at h
  split at h
  · cases h
  · rename_i place hplace
    simp only at h
    split at h
    · cases h
    · rename_i choice found memory hnext
      refine ⟨place, found, hplace, ?_⟩
      have hmove : t.Move searching line { s with memory := memory } s' found := by
        refine perform?_move ?_ h
        rcases next?_source (congrArg Prod.fst hnext) with hclose | ⟨ref, hchoice, hmem⟩
        · exact .inl hclose
        · exact .inr ⟨ref, hchoice, _, hmem⟩
      exact hmove.of_memory

/-! ## The start of a line -/

/-- The frames that the conditions keep are the first ones. -/
theorem conditions_frames (t : Tokenizer) (searching : Searching σ) (retok : Retokenize σ)
    (line : IndexedText) (frames : List Frame) (s : LineState σ) :
    (t.conditions searching retok line frames s).stack.frames <+: s.stack.frames ++ frames := by
  induction frames generalizing s with
  | nil => exact List.prefix_append _ _
  | cons f rest ih =>
    have hpush : (s.stack.push f).frames ++ rest = s.stack.frames ++ f :: rest := by simp
    unfold conditions
    split
    · rw [← hpush]
      exact ih _
    · split
      split
      · exact List.prefix_append _ _
      · rw [← hpush]
        refine (ih _).trans ?_
        simp only [stack_moveOn, List.prefix_rfl]

/-- In front of the first step there are first frames of the stack that the line began with. -/
theorem start_frames (t : Tokenizer) (searching : Searching σ) (retok : Retokenize σ)
    (line : IndexedText) (stack : Stack) (memory : σ) :
    (t.start searching retok line stack memory).stack.frames <+: stack.frames :=
  conditions_frames t searching retok line stack.above.reverse _

/-! ## Steps one after the other -/

/-- The given number of steps lead from one state to another. -/
inductive Steps (t : Tokenizer) (searching : Searching σ) (retok : Retokenize σ)
    (line : IndexedText) : Nat → LineState σ → LineState σ → Prop
  | done (s : LineState σ) : Steps t searching retok line 0 s s
  | step {n : Nat} {s s' s'' : LineState σ} : t.step? searching retok line s = some s' →
      Steps t searching retok line n s' s'' → Steps t searching retok line (n + 1) s s''

theorem Steps.append {s'' : LineState σ} {m n : Nat} (h : t.Steps searching retok line m s s')
    (h' : t.Steps searching retok line n s' s'') : t.Steps searching retok line (m + n) s s'' := by
  induction h with
  | done => rwa [Nat.zero_add]
  | step hstep _ ih =>
    rw [Nat.succ_add]
    exact .step hstep (ih h')

/-- A run that is allowed enough steps ends where there are no more of them. -/
theorem run_eq_of_steps {n : Nat} (h : t.Steps searching retok line n s s')
    (hlast : t.step? searching retok line s' = none) {steps : Nat} (hle : n ≤ steps) :
    t.run searching retok line steps s = s' := by
  induction h generalizing steps with
  | done s =>
    cases steps with
    | zero => rfl
    | succ steps => rw [run, hlast]
  | step hstep _ ih =>
    cases steps with
    | zero => exact absurd hle (Nat.not_succ_le_zero _)
    | succ steps =>
      rw [run, hstep]
      exact ih hlast (Nat.le_of_succ_le_succ hle)

/-- What every step keeps is kept by a run. -/
theorem run_invariant {I : LineState σ → Prop}
    (hI : ∀ {s s'}, I s → t.step? searching retok line s = some s' → I s') (steps : Nat)
    (h : I s) : I (t.run searching retok line steps s) := by
  induction steps generalizing s with
  | zero => exact h
  | succ steps ih =>
    unfold run
    split
    · exact h
    · rename_i s' hstep
      exact ih (hI h hstep)

end Tokenizer

end Highlight
