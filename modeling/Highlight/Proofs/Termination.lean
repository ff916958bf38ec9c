import Highlight.Pattern.Literal
import Highlight.Proofs.Links
import Highlight.Proofs.Matches
import Highlight.Proofs.Simulation
import Highlight.Proofs.Steps

/-!
# Tokenizing ends without its budget

A line is tokenized with a limit on the number of steps, and the text of a capture group with a limit
on the depth of recursion. Neither is needed. A step that stays at its place closes a region or opens
one. A region that was opened at a place cannot be closed there without moving on, so at one place
regions are first only closed and then only opened, and the limit on open frames ends the second.
The text of a capture group is tokenized with a deeper stack, and it never closes what is below,
because the rule for a group is no region.

- `Stack.On`: a stack that stands on the frames of another.
- `Tokenizer.Move.on`: steps stay on a stack whose innermost frame no pattern ends.
- `Tokenizer.patience`: how many more steps can stay at a place.
- `Tokenizer.exists_ends`: every run ends.
- `Tokenizer.Evaluates`, `Tokenizer.EvaluatesLine`: capture groups and lines without limits.
- `Tokenizer.guards_suffice`: the main statement.
-/

namespace Highlight

/-- A stack that has the frames of another one, and maybe more on top. -/
def Stack.On (floor s : Stack) : Prop := s.bottom = floor.bottom ∧ floor.above <:+ s.above

namespace Stack.On

variable {floor s : Stack}

theorem refl (s : Stack) : s.On s := ⟨rfl, List.suffix_refl _⟩

/-- Every stack stands on its bottom frame. -/
theorem ground (s : Stack) : Stack.On { s with above := [] } s := ⟨rfl, List.nil_suffix⟩

theorem push (h : floor.On s) (f : Frame) : floor.On (s.push f) :=
  ⟨h.1, h.2.trans (List.suffix_cons f s.above)⟩

theorem depth_le (h : floor.On s) : floor.depth ≤ s.depth := Nat.succ_le_succ h.2.length_le

/-- A stack on another one is this one or has a frame on top that the other does not have. -/
theorem eq_or_pop (h : floor.On s) : s.top = floor.top ∨ s.above ≠ [] ∧ floor.On s.pop := by
  obtain ⟨hbottom, more, habove⟩ := h
  cases more with
  | nil =>
    rw [List.nil_append] at habove
    refine .inl ?_
    unfold top
    rw [hbottom, habove]
  | cons f more =>
    rw [List.cons_append] at habove
    refine .inr ⟨by rw [← habove]; exact List.cons_ne_nil _ _, hbottom, more, ?_⟩
    show more ++ floor.above = s.above.tail
    rw [← habove]
    rfl

end Stack.On

section

variable [Engine]

namespace Tokenizer

variable {σ : Type} {t : Tokenizer} {searching : Searching σ} {retok : Retokenize σ}
  {line : IndexedText} {s s' : LineState σ} {found : Found} {floor : Stack}

/-! ## What a step does on a floor -/

omit [Engine] in
/-- When a region is closed, its frame is taken from the stack. -/
theorem pop_withContent {stack : Stack} (h : stack.above ≠ []) (scopes : List Scope) :
    (stack.withContent scopes).pop = stack.pop := by
  obtain ⟨bottom, above, firstLine⟩ := stack
  cases above with
  | nil => exact absurd rfl h
  | cons f rest => rfl

/-- A region that is closed lies above a floor whose innermost frame no pattern ends. -/
theorem pop_of_closing? (hfloor : t.closing? floor.top = none) (h : floor.On s.stack) {r : EndRule}
    (hclosing : t.closing? s.stack.top = some r) :
    s.stack.above ≠ [] ∧ floor.On s.stack.pop := by
  rcases h.eq_or_pop with htop | hpop
  · rw [htop, hfloor] at hclosing
    cases hclosing
  · exact hpop

/-- **Steps stay on the floor.** -/
theorem Move.on (hfloor : t.closing? floor.top = none) (h : t.Move searching line s s' found)
    (hs : floor.On s.stack) : floor.On s'.stack := by
  cases h with
  | closed r closing stack _ =>
    obtain ⟨habove, hpop⟩ := pop_of_closing? hfloor hs closing
    rwa [stack, pop_withContent habove]
  | passed stack _ => rwa [stack]
  | opened ref rule ending _ _ _ _ stack _ =>
    rw [stack]
    exact hs.push _

theorem Move.position_le (h : t.Move searching line s s' found) : s.position ≤ s'.position := by
  cases h with
  | closed _ _ _ position => exact position ▸ le_placeBehind line s.position found _
  | passed _ position => exact position ▸ le_placeBehind line s.position found _
  | opened _ _ _ _ _ _ _ _ position => exact position ▸ le_placeBehind line s.position found _

/-! ## Steps at one place -/

/-- How many more steps can stay at the place: once a region has been opened there, only as many as
there is room for frames, and before that as many as there are regions to close and room for frames. -/
def patience (t : Tokenizer) (s : LineState σ) : Nat :=
  if s.stack.top.entered = some s.position then t.options.maxStackDepth.toNat - s.stack.depth
  else s.stack.depth + t.options.maxStackDepth.toNat

theorem patience_le (t : Tokenizer) (s : LineState σ) :
    t.patience s ≤ s.stack.depth + t.options.maxStackDepth.toNat := by
  unfold patience
  split
  · omega
  · exact Nat.le_refl _

/-- **A step moves on or uses up patience.** -/
theorem Move.progress (hfloor : t.closing? floor.top = none) (h : t.Move searching line s s' found)
    (hs : floor.On s.stack) :
    s.position < s'.position ∨ s'.position = s.position ∧ t.patience s' < t.patience s := by
  rcases Nat.lt_or_eq_of_le h.position_le with hlt | heq
  · exact .inl hlt
  refine .inr ⟨heq.symm, ?_⟩
  cases h with
  | closed r closing stack position =>
    obtain ⟨habove, -⟩ := pop_of_closing? hfloor hs closing
    obtain ⟨f, rest, hcons⟩ := List.exists_cons_of_ne_nil habove
    have htop : s.stack.top = f := by simp [Stack.top, hcons]
    have hpopped : s.stack.popped? = some f := by simp [Stack.popped?, hcons]
    -- the region that ends was opened at another place
    have hother : f.entered ≠ some s.position := by
      intro hentered
      have hlt := lt_placeBehind line s.position found
      rw [hpopped, Option.any_some, hentered, beq_self_eq_true] at position
      omega
    have hdepth : s'.stack.depth + 1 = s.stack.depth := by
      rw [stack, pop_withContent habove]
      simp [Stack.depth, Stack.pop, hcons]
    have hle := t.patience_le s'
    unfold patience at hle ⊢
    rw [htop, if_neg hother]
    omega
  | passed _ position =>
    have hlt := lt_placeBehind line s.position found
    omega
  | opened ref rule ending _ _ _ room stack _ =>
    have htop : s'.stack.top.entered = some s'.position := by
      rw [stack, Stack.top_push, ← heq]
      rfl
    have hdepth : s'.stack.depth = s.stack.depth + 1 := by rw [stack, Stack.depth_push]
    -- from now on only the room for frames counts, and there is one less
    unfold patience
    rw [if_pos htop, hdepth]
    split
    · omega
    · omega

/-! ## Runs -/

theorem step?_on (hfloor : t.closing? floor.top = none) (hs : floor.On s.stack)
    (h : t.step? searching retok line s = some s') : floor.On s'.stack := by
  obtain ⟨_, _, _, hmove⟩ := step?_move h
  exact hmove.on hfloor hs

theorem Steps.position_le {n : Nat} (h : t.Steps searching retok line n s s') :
    s.position ≤ s'.position := by
  induction h with
  | done => exact Nat.le_refl _
  | step hstep _ ih =>
    obtain ⟨_, _, _, hmove⟩ := step?_move hstep
    exact Nat.le_trans hmove.position_le ih

/-- Steps that stay at one place use up patience. -/
theorem Steps.le_patience (hfloor : t.closing? floor.top = none) {n : Nat}
    (h : t.Steps searching retok line n s s') (hs : floor.On s.stack)
    (hposition : s'.position = s.position) : n ≤ t.patience s := by
  induction h with
  | done => exact Nat.zero_le _
  | step hstep hsteps ih =>
    obtain ⟨_, _, _, hmove⟩ := step?_move hstep
    have hlater := hsteps.position_le
    rcases hmove.progress hfloor hs with hlt | ⟨heq, hless⟩
    · omega
    · have hle := ih (hmove.on hfloor hs) (hposition.trans heq.symm)
      omega

/-- The steps from one state lead to another one, where there are no more of them. -/
def Ends (t : Tokenizer) (searching : Searching σ) (retok : Retokenize σ) (line : IndexedText)
    (s s' : LineState σ) : Prop :=
  (∃ n, t.Steps searching retok line n s s') ∧ t.step? searching retok line s' = none

/-- **Every run ends**: a step moves on, which it can do only as long as there is text, or uses up
patience. -/
theorem exists_ends (hfloor : t.closing? floor.top = none) (searching : Searching σ)
    (retok : Retokenize σ) (line : IndexedText) (s : LineState σ) (hs : floor.On s.stack) :
    ∃ s', t.Ends searching retok line s s' := by
  cases hstep : t.step? searching retok line s with
  | none => exact ⟨s, ⟨0, .done s⟩, hstep⟩
  | some next =>
    obtain ⟨_, _, hplace, hmove⟩ := step?_move hstep
    have hinside := IndexedText.le_of_place? hplace
    have hprogress := hmove.progress hfloor hs
    obtain ⟨s', ⟨n, hsteps⟩, hlast⟩ :=
      exists_ends hfloor searching retok line next (hmove.on hfloor hs)
    exact ⟨s', ⟨n + 1, .step hstep hsteps⟩, hlast⟩
termination_by (Text.byteLength line.text + 1 - s.position, t.patience s)
decreasing_by
  rcases hprogress with hlt | ⟨heq, hless⟩
  · exact Prod.Lex.left _ _ (by omega)
  · rw [heq]
    exact Prod.Lex.right _ hless

theorem Ends.run_eq (h : t.Ends searching retok line s s') :
    ∃ n, t.Steps searching retok line n s s' ∧
      ∀ steps, n ≤ steps → t.run searching retok line steps s = s' := by
  obtain ⟨⟨n, hsteps⟩, hlast⟩ := h
  exact ⟨n, hsteps, fun _ hle => run_eq_of_steps hsteps hlast hle⟩

/-! ## The texts of capture groups -/

variable {held : String → Option Grammar}

/-- No pattern ends a group. -/
theorem closing?_of_group (hreached : t.registry.Reached held) {f : Frame}
    (h : ∀ g rule, held f.rule.grammar = some g → g.rule? f.rule.rule = some rule →
      ∃ group, rule.kind = .group group) : t.closing? f = none := by
  unfold closing?
  split
  · rename_i r hkind
    obtain ⟨rule, hrule, hr⟩ := Option.map_eq_some_iff.1 hkind
    obtain ⟨g, hg, hrule⟩ := hreached.linked.of_rule? hrule
    obtain ⟨group, hgroup⟩ := h g rule hg hrule
    rw [hgroup] at hr
    cases hr
  · rfl

/-- The rules for capture groups are no regions, so their frames are not closed. -/
theorem closing?_of_captureOf (hreached : t.registry.Reached held) {f : Frame}
    (h : t.CaptureOf f.rule) : t.closing? f = none := by
  obtain ⟨owner, rule, hrule, hcapture⟩ := h
  obtain ⟨g, hg, hrule⟩ := hreached.linked.of_rule? hrule
  have hlist : g.rules.toList[owner]? = some rule := by rwa [Array.getElem?_toList]
  obtain ⟨other, group, hother, hgroup⟩ :=
    (hreached.linked.forest hg).captures hlist f.rule.rule hcapture
  rw [Nat.sub_zero, Array.getElem?_toList] at hother
  refine closing?_of_group hreached fun g' rule' hg' hrule' => ?_
  cases hg.symm.trans hg'
  cases hother.symm.trans hrule'
  exact ⟨group, hgroup⟩

/-- The state in front of the text of a capture group. -/
def groupState (searching : Searching σ) (stack : Stack) (position : Nat) (firstLine : Bool)
    (memory : σ) : LineState σ :=
  ⟨stack, .startingAt position, position, firstLine, searching.enter firstLine memory⟩

/-- The answer for the text of a capture group, without any limits. It is derived from the answers
for the stacks that are asked for, so that there is an answer only if the recursion ends. -/
inductive Evaluates (t : Tokenizer) (searching : Searching σ) :
    Stack → List Char → Nat → Bool → σ → List Token × σ → Prop
  | intro {stack : Stack} {text : List Char} {position : Nat} {firstLine : Bool} {memory : σ}
      {s : LineState σ} (retok : Retokenize σ)
      (inner : ∀ stack', t.Asks stack stack' → ∀ text' position' firstLine' memory',
        Evaluates t searching stack' text' position' firstLine' memory'
          (retok stack' text' position' firstLine' memory'))
      (ends : t.Ends searching retok (.ofText text)
        (groupState searching stack position firstLine memory) s) :
      Evaluates t searching stack text position firstLine memory
        ((finish (.ofText text) s).tokens.toList, searching.leave memory s.memory)

/-- The answers for capture groups are the ones without limits, on the stacks that are asked for. -/
def Answers (t : Tokenizer) (searching : Searching σ) (stack : Stack) (retok : Retokenize σ) :
    Prop :=
  ∀ stack', t.Asks stack stack' → ∀ text position firstLine memory,
    t.Evaluates searching stack' text position firstLine memory
      (retok stack' text position firstLine memory)

/-- The state behind a line, without any limits. -/
def EvaluatesLine (t : Tokenizer) (searching : Searching σ) (text : List Char) (stack : Stack)
    (memory : σ) (s : LineState σ) : Prop :=
  ∃ retok, t.Answers searching { stack with above := [] } retok ∧
    ∃ s', t.Ends searching retok (.ofText text) (t.start searching retok (.ofText text) stack memory)
      s' ∧ s = finish (.ofText text) s'

omit [Engine] in
theorem eq_of_alike {a b : LineState σ} (h : a.Alike (fun _ _ => Eq) line b) : a = b := by
  obtain ⟨stack, tokens, position, firstLine, memory⟩ := a
  obtain ⟨_, _, _, _, _⟩ := b
  obtain ⟨rfl, rfl, rfl, rfl, _, hmemory⟩ := h
  cases hmemory
  rfl

omit [Engine] in
theorem agree_of_eq {P : Stack → Prop} {retok' : Retokenize σ}
    (h : ∀ stack, P stack → ∀ text position firstLine memory,
      retok stack text position firstLine memory = retok' stack text position firstLine memory) :
    Retokenize.Agree P (fun _ _ => Eq) retok retok' := by
  intro stack hstack text position firstLine line' first m₁ m₂ hm
  rw [h stack hstack, hm]
  exact ⟨rfl, rfl⟩

/-- **A step asks only for deeper stacks**: what is answered for others makes no difference. -/
theorem step?_congr {retok' : Retokenize σ}
    (h : ∀ inner, t.Asks s.stack inner → retok inner = retok' inner) :
    t.step? searching retok line s = t.step? searching retok' line s := by
  have hagree : Retokenize.Agree (t.Asks s.stack) (fun _ _ => Eq) retok retok' :=
    agree_of_eq fun inner hasks _ _ _ _ => by rw [h inner hasks]
  have hsteps := step?_alike (Searching.Simulates.refl t searching) hagree
    (⟨rfl, rfl, rfl, rfl, s.firstLine, rfl⟩ : s.Alike (fun _ _ => Eq) line s)
  rcases cases_rel hsteps with ⟨hleft, hright⟩ | ⟨a, b, hleft, hright, halike⟩
  · rw [hleft, hright]
  · rw [hleft, hright, eq_of_alike halike]

/-- Runs on a floor are the same if the stacks that the floor asks for have the same answers. -/
theorem run_congr (hfloor : t.closing? floor.top = none) {retok' : Retokenize σ}
    (hagree : Retokenize.Agree (t.Asks floor) (fun _ _ => Eq) retok retok') (hs : floor.On s.stack)
    (steps : Nat) : t.run searching retok line steps s = t.run searching retok' line steps s := by
  have hstart : s.Alike (fun _ _ => Eq) line s := ⟨rfl, rfl, rfl, rfl, s.firstLine, rfl⟩
  refine eq_of_alike (run_alike (I := floor.On) (Searching.Simulates.refl t searching) hagree
    (fun stack inner hon hasks => ?_) (step?_on hfloor · ·) steps hs hstart)
  exact hasks.of_le hon.depth_le (congrArg Frame.rule hon.1)

theorem Ends.unique (hfloor : t.closing? floor.top = none) {retok' : Retokenize σ}
    (hagree : Retokenize.Agree (t.Asks floor) (fun _ _ => Eq) retok retok') {a b b' : LineState σ}
    (ha : floor.On a.stack) (h : t.Ends searching retok line a b)
    (h' : t.Ends searching retok' line a b') : b = b' := by
  obtain ⟨n, -, hrun⟩ := h.run_eq
  obtain ⟨n', -, hrun'⟩ := h'.run_eq
  rw [← hrun _ (Nat.le_max_left n n'), ← hrun' _ (Nat.le_max_right n n')]
  exact run_congr hfloor hagree ha _

/-- There is at most one answer. -/
theorem Evaluates.unique (hreached : t.registry.Reached held) {stack : Stack} {text : List Char}
    {position : Nat} {firstLine : Bool} {memory : σ} {a b : List Token × σ}
    (hcapture : t.CaptureOf stack.top.rule)
    (ha : t.Evaluates searching stack text position firstLine memory a)
    (hb : t.Evaluates searching stack text position firstLine memory b) : a = b := by
  induction ha generalizing b with
  | @intro stack text position firstLine memory s retok inner ends ih =>
    cases hb with
    | intro retok' inner' ends' =>
      -- the answers may differ where they are not asked for
      have hagree : Retokenize.Agree (t.Asks stack) (fun _ _ => Eq) retok retok' :=
        agree_of_eq fun stack' hasks text' position' firstLine' memory' =>
          ih stack' hasks text' position' firstLine' memory' hasks.capture
            (inner' stack' hasks text' position' firstLine' memory')
      have hsame := Ends.unique (closing?_of_captureOf hreached hcapture) hagree
        (Stack.On.refl stack) ends ends'
      rw [hsame]

/-- Answers for the stacks that are asked for can be given by a function. -/
theorem exists_answers {stack : Stack} (h : ∀ stack', t.Asks stack stack' →
    ∀ text position firstLine memory,
      ∃ answer, t.Evaluates searching stack' text position firstLine memory answer) :
    ∃ retok, t.Answers searching stack retok := by
  classical
  refine ⟨fun stack' text position firstLine memory =>
    if hasks : t.Asks stack stack' then (h stack' hasks text position firstLine memory).choose
    else ([], memory), fun stack' hasks text position firstLine memory => ?_⟩
  simp only [dif_pos hasks]
  exact (h stack' hasks text position firstLine memory).choose_spec

/-- **There is an answer for every capture group**, by induction on the room that is left for
frames. -/
theorem exists_evaluates (hreached : t.registry.Reached held) (searching : Searching σ)
    (stack : Stack) (hcapture : t.CaptureOf stack.top.rule) (text : List Char) (position : Nat)
    (firstLine : Bool) (memory : σ) :
    ∃ answer, t.Evaluates searching stack text position firstLine memory answer := by
  obtain ⟨retok, hretok⟩ := exists_answers fun stack' hasks text' position' firstLine' memory' =>
    exists_evaluates hreached searching stack' hasks.capture text' position' firstLine' memory'
  obtain ⟨s, hends⟩ := exists_ends (closing?_of_captureOf hreached hcapture) searching retok
    (.ofText text) (groupState searching stack position firstLine memory) (Stack.On.refl stack)
  exact ⟨_, .intro retok hretok hends⟩
termination_by t.options.maxStackDepth.toNat - stack.depth
decreasing_by
  have hdeeper := hasks.deeper
  have hbounded := hasks.bounded
  omega

/-- The conditions at the start of a line keep the bottom frame. -/
theorem start_on (t : Tokenizer) (searching : Searching σ) (retok : Retokenize σ)
    (line : IndexedText) (stack : Stack) (memory : σ) :
    Stack.On { stack with above := [] } (t.start searching retok line stack memory).stack := by
  refine ⟨?_, List.nil_suffix⟩
  obtain ⟨rest, hrest⟩ := start_frames t searching retok line stack memory
  exact (List.cons.inj hrest).1

/-- There is one result for every line. -/
theorem existsUnique_evaluatesLine (hreached : t.registry.Reached held) (searching : Searching σ)
    (text : List Char) {stack : Stack} (hbottom : t.closing? stack.bottom = none) (memory : σ) :
    ∃! s, t.EvaluatesLine searching text stack memory s := by
  obtain ⟨retok, hretok⟩ : ∃ retok, t.Answers searching { stack with above := [] } retok :=
    exists_answers fun stack' hasks => exists_evaluates hreached searching stack' hasks.capture
  have hfloor : t.closing? (Stack.top { stack with above := [] }) = none := hbottom
  obtain ⟨s, hends⟩ := exists_ends hfloor searching retok (.ofText text) _
    (start_on t searching retok (.ofText text) stack memory)
  refine ⟨_, ⟨retok, hretok, s, hends, rfl⟩, ?_⟩
  rintro _ ⟨retok', hretok', s', hends', rfl⟩
  -- there is one answer for each stack that is asked for, so both go through the same steps
  have hagree : Retokenize.Agree (t.Asks { stack with above := [] }) (fun _ _ => Eq) retok' retok :=
    agree_of_eq fun stack' hasks text' position firstLine memory' =>
      Evaluates.unique hreached hasks.capture
        (hretok' stack' hasks text' position firstLine memory')
        (hretok stack' hasks text' position firstLine memory')
  have halike : (t.start searching retok' (.ofText text) stack memory).Alike (fun _ _ => Eq)
      (.ofText text) (t.start searching retok (.ofText text) stack memory) :=
    start_alike (Searching.Simulates.refl t searching) stack hagree (.ofText text) true rfl
  rw [eq_of_alike halike] at hends'
  rw [Ends.unique hfloor hagree (start_on t searching retok _ stack memory) hends' hends]

/-- More levels of recursion than there is room for frames make no difference. -/
theorem retokenize_levels (hreached : t.registry.Reached held) (searching : Searching σ)
    {levels more : Nat} (hmore : levels ≤ more) {stack : Stack}
    (hcapture : t.CaptureOf stack.top.rule) (hdepth : stack.depth ≤ t.options.maxStackDepth.toNat)
    (hroom : t.options.maxStackDepth.toNat < levels + stack.depth) :
    t.retokenize searching levels stack = t.retokenize searching more stack := by
  induction levels generalizing more stack with
  | zero => omega
  | succ levels ih =>
    obtain ⟨more, rfl⟩ : ∃ k, more = k + 1 := ⟨more - 1, by omega⟩
    funext text position firstLine memory
    -- what is asked for is deeper, so one level less leaves room for it
    have hagree : Retokenize.Agree (t.Asks stack) (fun _ _ => Eq) (t.retokenize searching levels)
        (t.retokenize searching more) := by
      refine agree_of_eq fun inner hasks _ _ _ _ => ?_
      have hdeeper := hasks.deeper
      rw [ih (Nat.le_of_succ_le_succ hmore) hasks.capture hasks.bounded (by omega)]
    have hrun : t.run searching (t.retokenize searching levels) (.ofText text)
        (t.budget (.ofText text)) (groupState searching stack position firstLine memory) =
        t.run searching (t.retokenize searching more) (.ofText text) (t.budget (.ofText text))
          (groupState searching stack position firstLine memory) :=
      run_congr (closing?_of_captureOf hreached hcapture) hagree (Stack.On.refl stack) _
    exact congrArg
      (fun s => ((finish (.ofText text) s).tokens.toList, searching.leave memory s.memory)) hrun

/-! ## The main statement -/

/-- A stack whose bottom frame has a rule that is no region. -/
def Grounded (t : Tokenizer) (stack : Stack) : Prop := t.closing? stack.bottom = none

theorem initialStack_grounded (hreached : t.registry.Reached held) : t.Grounded t.initialStack := by
  refine closing?_of_group hreached fun g rule hg hrule => ?_
  obtain ⟨d, hd⟩ := hreached.linked.loaded t.base g hg
  obtain ⟨root, group, hroot, hgroup⟩ := Grammar.root_of_ofDefinition hd
  cases hroot.symm.trans hrule
  exact ⟨group, hgroup⟩

/-- What holds of one step on a floor holds of any number. -/
theorem Steps.on (hfloor : t.closing? floor.top = none) {n : Nat}
    (h : t.Steps searching retok line n s s') (hs : floor.On s.stack) : floor.On s'.stack := by
  induction h with
  | done => exact hs
  | step hstep _ ih => exact ih (step?_on hfloor hs hstep)

/-- The stack behind a line stands on the bottom frame of the one in front of it. -/
theorem EvaluatesLine.grounded {text : List Char} {stack : Stack} {memory : σ}
    (hstack : t.Grounded stack) (h : t.EvaluatesLine searching text stack memory s) :
    t.Grounded s.stack.endLine := by
  obtain ⟨retok, -, s', ⟨⟨n, hsteps⟩, -⟩, rfl⟩ := h
  have hfloor : t.closing? (Stack.top { stack with above := [] }) = none := hstack
  have hon := hsteps.on hfloor (start_on t searching retok _ stack memory)
  show t.closing? { s'.stack.bottom with entered := none } = none
  rw [hon.1]
  exact hstack

/-- **The guards of the loop suffice.** From a stack whose bottom frame no pattern ends, the place
never moves back, after as many steps as there are frames and room for frames, and one more, it has
moved on, and any run ends. A step asks only for tokenizing capture groups with deeper stacks within
the limit, so the limit on the levels of recursion is never reached; without limits there is one
answer for each capture group and one result for each line. -/
theorem guards_suffice (t : Tokenizer) (held : String → Option Grammar)
    (hreached : t.registry.Reached held) (searching : Searching σ) :
    (∀ (retok : Retokenize σ) (line : IndexedText) (s : LineState σ), t.Grounded s.stack →
      (∀ s', t.step? searching retok line s = some s' →
        s.position ≤ s'.position ∧ t.Grounded s'.stack) ∧
      (∀ n s', t.Steps searching retok line n s s' →
        s.stack.depth + t.options.maxStackDepth.toNat + 1 ≤ n → s.position < s'.position) ∧
      ∃ n s', t.Steps searching retok line n s s' ∧ t.step? searching retok line s' = none ∧
        ∀ steps, n ≤ steps → t.run searching retok line steps s = s') ∧
    (∀ (line : IndexedText) (s : LineState σ) (retok retok' : Retokenize σ),
      (∀ inner, t.Asks s.stack inner → retok inner = retok' inner) →
        t.step? searching retok line s = t.step? searching retok' line s) ∧
    (∀ stack inner, t.Asks stack inner →
      stack.depth < inner.depth ∧ inner.depth ≤ t.options.maxStackDepth.toNat ∧
        ∀ more, t.retokenize searching t.options.maxStackDepth.toNat inner =
          t.retokenize searching (t.options.maxStackDepth.toNat + more) inner) ∧
    (∀ stack, t.CaptureOf stack.top.rule → ∀ text position firstLine memory,
      ∃! answer, t.Evaluates searching stack text position firstLine memory answer) ∧
    (∀ text stack memory, t.Grounded stack →
      (∃! s, t.EvaluatesLine searching text stack memory s) ∧
        ∀ s, t.EvaluatesLine searching text stack memory s → t.Grounded s.stack.endLine) ∧
    t.Grounded t.initialStack := by
  refine ⟨fun retok line s hgrounded => ?_, fun _ _ _ _ => step?_congr, fun stack inner hasks => ?_,
    fun stack hcapture text position firstLine memory => ?_, fun text stack memory hgrounded => ?_,
    initialStack_grounded hreached⟩
  · have hfloor : t.closing? (Stack.top { s.stack with above := [] }) = none := hgrounded
    have hon := Stack.On.ground s.stack
    refine ⟨fun s' hstep => ?_, fun n s' hsteps hn => ?_, ?_⟩
    · obtain ⟨_, _, _, hmove⟩ := step?_move hstep
      refine ⟨hmove.position_le, ?_⟩
      show t.closing? s'.stack.bottom = none
      rw [(hmove.on hfloor hon).1]
      exact hgrounded
    · refine Nat.lt_of_le_of_ne hsteps.position_le fun heq => ?_
      have hpatience := hsteps.le_patience hfloor hon heq.symm
      have hle := t.patience_le s
      omega
    · obtain ⟨s', hends⟩ := exists_ends hfloor searching retok line s hon
      obtain ⟨n, hsteps, hrun⟩ := hends.run_eq
      exact ⟨n, s', hsteps, hends.2, hrun⟩
  · refine ⟨hasks.deeper, hasks.bounded, fun more => ?_⟩
    have hroom : t.options.maxStackDepth.toNat < t.options.maxStackDepth.toNat + inner.depth :=
      Nat.lt_add_of_pos_right inner.depth_pos
    exact retokenize_levels hreached searching (Nat.le_add_right _ more) hasks.capture hasks.bounded
      hroom
  · obtain ⟨answer, hanswer⟩ :=
      exists_evaluates hreached searching stack hcapture text position firstLine memory
    exact ⟨answer, hanswer, fun _ hother => hother.unique hreached hcapture hanswer⟩
  · exact ⟨existsUnique_evaluatesLine hreached searching text hgrounded memory,
      fun _ h => h.grounded hgrounded⟩

end Tokenizer

end

namespace Tokenizer

/-- A region that takes no text and ends where it began. -/
theorem guards_suffice_empty_region :
    let x : Part := .name { chars := ['x'] }
    let a : Part := .name { chars := ['a'] }
    let region : RuleDefinition := { keys := { beginText := some "", endText := some "" } }
    let d : GrammarDefinition := { scopeName := some "x.a", patterns := [region] }
    let scope : Scope := ⟨[x, a], by decide⟩
    let g := Grammar.ofScoped d scope
    let held := Function.update (fun _ => none) "x.a" (some g)
    ∃ r : Registry, r.Reached held ∧
      let t : Tokenizer := ⟨r, "x.a", scope, .standard⟩
      let s : LineState Unit := ⟨t.initialStack, .startingAt 0, 0, true, ()⟩
      t.Grounded s.stack ∧ ∀ retok line, ∃ n s', t.Steps .anew retok line n s s' ∧
        t.step? .anew retok line s' = none := by
  intro x a region d scope g held
  have hg : Grammar.ofDefinition d = .ok g := rfl
  have hpath : Registry.checkPath "x.a" = .ok () := rfl
  have hreached : Registry.Reached _ held :=
    Registry.reached_single hg hpath
  refine ⟨_, hreached, ?_⟩
  intro t s
  obtain ⟨hloop, -, -, -, -, hinitial⟩ := guards_suffice t held hreached Searching.anew
  refine ⟨hinitial, fun retok line => ?_⟩
  obtain ⟨-, -, n, s', hsteps, hlast, -⟩ := hloop retok line s hinitial
  exact ⟨n, s', hsteps, hlast⟩

end Tokenizer

end Highlight
