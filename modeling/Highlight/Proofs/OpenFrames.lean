import Highlight.Pattern.Literal
import Highlight.Proofs.Restart
import Highlight.Proofs.Termination

/-!
# The frames behind a line

A line takes frames from the top of the stack and puts others there. Those below it leaves as they
are, and it never comes to the bottom one, because no pattern ends a grammar. Every frame that it
puts there is for a rule with an end or a condition, and there is never one more than the limit.

- `Registry.offers_of_mem_candidates`: no candidate is disabled.
- `Tokenizer.BeganOn`: the frame of a region that began on a line.
- `Tokenizer.Follows`: a stack that a line makes of another one; every step keeps it.
- `Tokenizer.Settled`: what holds of the stack behind a line.
- `Tokenizer.frames_behind_line`: the main statement.
-/

namespace Highlight

section

variable [Engine]

/-! ## Candidates -/

namespace Registry

/-- A rule that is there, is not disabled and has a pattern of its own. -/
def Offers (r : Registry) (ref : RuleRef) : Prop :=
  ∃ rule, r.rule? ref = some rule ∧ rule.disabled = false ∧ isCandidate rule

/-- Whatever a rule stands for, only rules that are on offer are found. -/
theorem offers_of_mem_expand (r : Registry) (base : String) (steps : Nat) {c : Candidates}
    (hc : ∀ f ∈ c.found, r.Offers f) (ref : RuleRef) :
    ∀ f ∈ (r.expand base steps c ref).found, r.Offers f := by
  induction steps generalizing c ref with
  | zero => exact hc
  | succ steps ih =>
    unfold expand
    split
    · exact hc
    · simp only
      split
      · exact hc
      · rename_i rule hrule
        split
        · exact hc
        · rename_i hdisabled
          split
          · rename_i hcandidate
            intro f hf
            rcases List.mem_cons.1 hf with rfl | hf
            · exact ⟨rule, hrule, Bool.eq_false_iff.2 hdisabled, hcandidate⟩
            · exact hc f hf
          · refine List.foldlRecOn (motive := fun c : Candidates => ∀ f ∈ c.found, r.Offers f) _ _ hc ?_
            intro c' hc' other _
            exact ih hc' other

/-- Every candidate is on offer. -/
theorem offers_of_mem_candidates {r : Registry} {base : String} {steps : Nat} {ref f : RuleRef}
    (h : f ∈ r.candidates base steps ref) : r.Offers f := by
  unfold candidates at h
  split at h
  · cases h
  · refine List.foldlRecOn (motive := fun c : Candidates => ∀ f ∈ c.found, r.Offers f) _ _ ?_ ?_ f
      (List.mem_reverse.1 h)
    · exact fun _ hf => absurd hf List.not_mem_nil
    · intro c hc other _
      exact r.offers_of_mem_expand base steps hc other

end Registry

omit [Engine] in
/-- A stack whose frames are the first ones of another stack stands on its bottom frame. -/
theorem Stack.above_suffix_of_frames {s s' : Stack} (h : s.frames <+: s'.frames) :
    s.bottom = s'.bottom ∧ s.above <:+ s'.above := by
  obtain ⟨hbottom, habove⟩ := List.cons_prefix_cons.1 h
  exact ⟨hbottom, List.reverse_prefix.1 habove⟩

/-- A way to search that answers with the candidates as they are. -/
def Searching.Truthful {σ : Type} (t : Tokenizer) (searching : Searching σ) : Prop :=
  ∀ ref memory, (searching.candidates t ref memory).1 = t.candidates ref

theorem Searching.truthful_remembering (t : Tokenizer) : remembering.Truthful t := fun _ _ => rfl

namespace Tokenizer

variable {σ : Type} {t : Tokenizer} {searching : Searching σ} {retok : Retokenize σ}
  {line : IndexedText} {s s' : LineState σ} {found : Found} {before after : Stack}

/-! ## Steps -/

/-- The frame of a region that began on a line: its rule is a candidate inside of the region around
it, is not disabled, and has an end or a condition. -/
def BeganOn (t : Tokenizer) (line : IndexedText) (f : Frame) : Prop :=
  ∃ below position rule ending found, f.rule ∈ t.candidates (Stack.top below).rule ∧
    t.rule? f.rule = some rule ∧ rule.disabled = false ∧ rule.kind.ending? = some ending ∧
    (line.place? position).isSome ∧ f = regionFrame below position line f.rule rule ending found

/-- A stack that a line makes of another one: above some of the frames that were there, frames of
regions that began on the line. -/
structure Follows (t : Tokenizer) (line : IndexedText) (before after : Stack) : Prop where
  bottom : after.bottom = before.bottom
  above : ∃ began kept, after.above = began ++ kept ∧ kept <:+ before.above ∧
    ∀ f ∈ began, t.BeganOn line f

/-- The bottom frame and the next ones are the beginning of the stack. -/
theorem Follows.of_frames (h : after.frames <+: before.frames) : t.Follows line before after := by
  obtain ⟨hbottom, habove⟩ := Stack.above_suffix_of_frames h
  exact ⟨hbottom, [], after.above, rfl, habove, fun _ hf => absurd hf List.not_mem_nil⟩

/-- **A step keeps the frames below as they are**, if no pattern ends the bottom frame. -/
theorem Move.follows (htruthful : searching.Truthful t) (hgrounded : t.Grounded before)
    {place : Nat} (hplace : line.place? s.position = some place)
    (h : t.Move searching line s s' found) (hs : t.Follows line before s.stack) :
    t.Follows line before s'.stack := by
  obtain ⟨hbottom, began, kept, habove, hkept, hbegan⟩ := hs
  cases h with
  | closed r closing hstack _ =>
    have hfloor : t.closing? (Stack.top { before with above := [] }) = none := hgrounded
    have hon : Stack.On { before with above := [] } s.stack := ⟨hbottom, List.nil_suffix⟩
    obtain ⟨hne, -⟩ := pop_of_closing? hfloor hon closing
    rw [hstack, pop_withContent hne]
    refine ⟨hbottom, ?_⟩
    show ∃ began kept, s.stack.above.tail = _ ∧ _
    rw [habove]
    -- the frame that is taken away began on the line, or was there before
    cases began with
    | nil => exact ⟨[], kept.tail, rfl, (List.tail_suffix kept).trans hkept, hbegan⟩
    | cons f began =>
      exact ⟨began, kept, rfl, hkept, fun g hg => hbegan g (List.mem_cons_of_mem f hg)⟩
  | passed hstack _ =>
    rw [hstack]
    exact ⟨hbottom, began, kept, habove, hkept, hbegan⟩
  | opened ref rule ending hcandidate hrule hending _ hstack _ =>
    obtain ⟨memory, hmem⟩ := hcandidate
    rw [htruthful] at hmem
    obtain ⟨rule', hrule', hdisabled, -⟩ := Registry.offers_of_mem_candidates hmem
    obtain rfl : rule = rule' := Option.some.inj (hrule.symm.trans hrule')
    have hopened :
        t.BeganOn line (regionFrame s.stack s.position line ref rule ending found) :=
      ⟨s.stack, s.position, rule, ending, found, hmem, hrule, hdisabled, hending,
        Option.isSome_of_eq_some hplace, rfl⟩
    rw [hstack]
    refine ⟨hbottom, _ :: began, kept, ?_, hkept, List.forall_mem_cons.2 ⟨hopened, hbegan⟩⟩
    show _ :: s.stack.above = _
    rw [habove]
    rfl

/-- There are never more frames than there were or than the limit allows. -/
theorem Move.depth_le (h : t.Move searching line s s' found) :
    s'.stack.depth ≤ max s.stack.depth t.options.maxStackDepth.toNat := by
  cases h with
  | closed _ _ hstack _ =>
    have hpos := s.stack.depth_pos
    rw [hstack, Stack.depth_pop, Stack.withContent, Stack.depth_mapTop]
    omega
  | passed hstack _ =>
    rw [hstack]
    exact Nat.le_max_left _ _
  | opened _ _ _ _ _ _ hroom hstack _ =>
    rw [hstack, Stack.depth_push]
    exact Nat.le_trans hroom (Nat.le_max_right _ _)

/-- A whole text keeps the frames below as they are. -/
theorem tokenizeText_follows (htruthful : searching.Truthful t) (hgrounded : t.Grounded before)
    (text : List Char) (memory : σ) :
    let s := t.tokenizeText searching text before memory
    t.Follows (.ofText text) before s.stack ∧
      s.stack.depth ≤ max before.depth t.options.maxStackDepth.toNat := by
  have hstart := start_frames t searching (t.retokenize searching t.options.maxStackDepth.toNat)
    (.ofText text) before memory
  refine run_invariant (I := fun s : LineState σ => t.Follows (.ofText text) before s.stack ∧
    s.stack.depth ≤ max before.depth t.options.maxStackDepth.toNat) ?_ _ ⟨.of_frames hstart, ?_⟩
  · rintro s s' ⟨hfollows, hdepth⟩ hstep
    obtain ⟨place, found, hplace, hmove⟩ := step?_move hstep
    have hle := hmove.depth_le
    exact ⟨hmove.follows htruthful hgrounded hplace hfollows, by omega⟩
  · have hle := hstart.length_le
    rw [Stack.length_frames, Stack.length_frames] at hle
    omega

/-! ## Lines -/

/-- A frame behind a line: its rule is not disabled and has an end or a condition, with captured text
filled in if there are back-references in it. -/
def SettledFrame (t : Tokenizer) (f : Frame) : Prop :=
  ∃ rule ending, t.rule? f.rule = some rule ∧ rule.disabled = false ∧
    rule.kind.ending? = some ending ∧ (f.endPattern.isSome ↔ ending.hasBackReferences) ∧
    f.entered = none

/-- A stack behind a line. -/
structure Settled (t : Tokenizer) (stack : Stack) : Prop where
  bottom : stack.bottom = t.initialStack.bottom
  above : ∀ f ∈ stack.above, t.SettledFrame f
  depth : stack.depth ≤ max t.options.maxStackDepth.toNat 1

theorem initialStack_settled (t : Tokenizer) : t.Settled t.initialStack :=
  ⟨rfl, fun _ hf => absurd hf List.not_mem_nil, Nat.le_max_right _ _⟩

/-- At the end of the line on which its region began a frame is settled. -/
theorem BeganOn.settled {f : Frame} (h : t.BeganOn line f) :
    t.SettledFrame { f with entered := none } := by
  obtain ⟨below, position, rule, ending, found, -, hrule, hdisabled, hending, -, hf⟩ := h
  refine ⟨rule, ending, hrule, hdisabled, hending, ?_, rfl⟩
  rw [hf]
  unfold regionFrame
  simp only
  split
  · rename_i hback
    simp [hback]
  · rename_i hback
    simp [hback]

theorem Settled.entered (h : t.Settled before) : ∀ f ∈ before.frames, f.entered = none := by
  intro f hf
  rcases List.mem_cons.1 hf with rfl | hf
  · rw [h.bottom]
    rfl
  · obtain ⟨_, _, -, -, -, -, hentered⟩ := h.above f (List.mem_reverse.1 hf)
    exact hentered

theorem Follows.settled (h : t.Follows line before after) (hbefore : t.Settled before)
    (hdepth : after.depth ≤ max before.depth t.options.maxStackDepth.toNat) :
    t.Settled after.endLine := by
  obtain ⟨hbottom, began, kept, habove, hkept, hbegan⟩ := h
  refine ⟨?_, ?_, ?_⟩
  · show { after.bottom with entered := none } = t.initialStack.bottom
    rw [hbottom, hbefore.bottom]
    rfl
  · intro f hf
    obtain ⟨g, hg, rfl⟩ := List.mem_map.1 hf
    rw [habove] at hg
    rcases List.mem_append.1 hg with hg | hg
    · exact (hbegan g hg).settled
    · obtain ⟨rule, ending, hrule, hdisabled, hending, hfilled, -⟩ :=
        hbefore.above g (hkept.subset hg)
      exact ⟨rule, ending, hrule, hdisabled, hending, hfilled, rfl⟩
  · rw [Stack.depth_endLine]
    have hle := hbefore.depth
    omega

theorem Settled.grounded {held : String → Option Grammar} (hreached : t.registry.Reached held)
    (h : t.Settled before) : t.Grounded before := by
  unfold Grounded
  rw [h.bottom]
  exact initialStack_grounded hreached

/-- A line leads from a settled stack to a settled one. -/
theorem tokenizeLine_follows {held : String → Option Grammar}
    (hreached : t.registry.Reached held) (hbefore : t.Settled before) (line : List Char) :
    ∃ after, (t.tokenizeLine line before).2 = Stack.endLine after ∧
      t.Follows (.ofText (line ++ ['\n'])) before after ∧ t.Settled after.endLine := by
  obtain ⟨hline, -⟩ := tokenizeLineWith_spec (Tables.right_empty t) line before
  obtain ⟨hfollows, hdepth⟩ := tokenizeText_follows (Searching.truthful_remembering t)
    (hbefore.grounded hreached) (line ++ ['\n']) SearchMemory.empty
  exact ⟨_, congrArg Prod.snd hline, hfollows, hfollows.settled hbefore hdepth⟩

/-- The stack behind lines is settled, whatever the tokenizer has been used for. -/
theorem stackBehind_settled {held : String → Option Grammar} (hreached : t.registry.Reached held)
    {tables : Tables} (hserved : t.Served tables) (lines : List (List Char)) :
    t.Settled (stackBehind t.initialStack (t.tokenizeLinesWith lines t.initialStack tables).1) := by
  rw [tokenizeLinesWith_eq hserved.right]
  refine stackBehind_invariant (fun line stack hs => ?_) lines t.initialStack_settled
  obtain ⟨after, hline, -, hsettled⟩ := tokenizeLine_follows hreached hs line
  rw [hline]
  exact hsettled

/-! ## Matches -/

theorem takeMatch_stack (t : Tokenizer) (retok : Retokenize σ) (line : IndexedText)
    (s : LineState σ) (ref : RuleRef) (rule : Rule) (rules : CaptureRules) (found : Found) :
    (t.takeMatch retok line s ref rule rules found).stack = s.stack := by
  unfold takeMatch
  rw [stack_moveOn]
  rfl

end Tokenizer

end

namespace Tokenizer

end Tokenizer

end Highlight
