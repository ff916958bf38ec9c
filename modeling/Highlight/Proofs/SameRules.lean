import Highlight.Proofs.Enclosed
import Highlight.Proofs.Restart

/-!
# Tokenizers that have the same rules

A run reads rules through references only, and the references come from the frames, from the candidates
inside of rules and from capture maps. So two tokenizers that have the same rules and the same
candidates within a set that the run of one does not leave go through the same steps, whatever else
their registries hold.

- `Tokenizer.SameWithin`: two tokenizers with the same rules and candidates within a set of rules.
- `Retokenize.SameWithin`: what is asked of the tokenizing of capture groups.
- `Tokenizer.SameWithin.step?_eq`, `Tokenizer.SameWithin.run_eq`, `Tokenizer.SameWithin.start_eq`: the
  steps of a line.
- `Tokenizer.SameWithin.retokenize`, `Tokenizer.SameWithin.tokenizeText_eq`: whole texts.
- `Tokenizer.SameWithin.tokenizeLines_eq`: several lines.
-/

namespace Highlight

variable {σ : Type}

/-- Two ways to tokenize the texts of capture groups that are the same on the stacks all of whose rules
are in a set. -/
def Retokenize.SameWithin (R : RuleRef → Prop) (retok retok' : Retokenize σ) : Prop :=
  ∀ stack, stack.Inside R → retok' stack = retok stack

variable [Engine]

namespace Tokenizer

/-- Two tokenizers with the same options that have the same rules and candidates within a set. -/
structure SameWithin (t t' : Tokenizer) (searching : Searching σ) (R : RuleRef → Prop) : Prop where
  options : t'.options = t.options
  rule? : ∀ {ref}, R ref → t'.rule? ref = t.rule? ref
  candidates : ∀ {ref} memory, R ref →
    searching.candidates t' ref memory = searching.candidates t ref memory

namespace SameWithin

variable {t t' : Tokenizer} {searching : Searching σ} {R : RuleRef → Prop}
  {retok retok' : Retokenize σ} {s : LineState σ} {stack : Stack}
  (h : t.SameWithin t' searching R) (line : IndexedText)
include h

/-! ## The match that wins -/

/-- A frame for a rule of the set is ended by the same rule. -/
theorem closing?_eq {f : Frame} (hf : R f.rule) : t'.closing? f = t.closing? f := by
  unfold closing?
  rw [h.rule? hf]

theorem guard?_eq {f : Frame} (hf : R f.rule) : t'.guard? f = t.guard? f := by
  unfold guard?
  rw [h.rule? hf]

/-- Candidates within the set are tried with the same patterns. -/
theorem bestOf_eq {candidates : List RuleRef} (hcandidates : ∀ ref ∈ candidates, R ref) (place : Nat)
    (firstLine : Bool) (best : Option (Choice × Found)) (memory : σ) :
    t'.bestOf searching line place firstLine candidates best memory =
      t.bestOf searching line place firstLine candidates best memory := by
  induction candidates generalizing best memory with
  | nil => rfl
  | cons ref rest ih =>
    have hrule := h.rule? (hcandidates ref List.mem_cons_self)
    have hrest := ih fun other hother => hcandidates other (List.mem_cons_of_mem _ hother)
    simp only [bestOf, hrule, hrest]

variable (henc : t.Encloses searching R)
include henc

/-- The same match wins, since the candidates do not lead out of the set. -/
theorem next?_eq (hstack : stack.Inside R) (place : Nat) (firstLine : Bool) (memory : σ) :
    t'.next? searching stack line place firstLine memory =
      t.next? searching stack line place firstLine memory := by
  have hinside : ∀ ref ∈ (searching.candidates t stack.top.rule memory).1, R ref :=
    fun _ href => henc.candidates memory hstack.top href
  have hbest := h.bestOf_eq line hinside place firstLine
  unfold next?
  rw [h.candidates memory hstack.top, h.closing?_eq hstack.top]
  simp only [hbest]

/-! ## Capture groups -/

omit henc in
theorem captureTokens?_eq (hretok : Retokenize.SameWithin R retok retok') (hstack : stack.Inside R)
    {ref : RuleRef} (href : R ref) (rule : Rule) (text : List Char) (groups : Groups) (span : Span)
    (firstLine : Bool) (memory : σ) :
    t'.captureTokens? retok' stack ref rule text groups span firstLine memory =
      t.captureTokens? retok stack ref rule text groups span firstLine memory := by
  unfold captureTokens?
  rw [h.options, hretok _ (inside_captureStack hstack href rule text groups span.start)]

omit henc in
/-- The groups of a match get the same tokens, if their rules are in the set. -/
theorem produceGroups_eq (hretok : Retokenize.SameWithin R retok retok') (hstack : stack.Inside R)
    {grammar : String} {pairs : List (Option RuleId × Option Span)}
    (hpairs : CaptureRules.Inside R grammar (pairs.map Prod.fst)) (text : List Char) (groups : Groups)
    (firstLine : Bool) (opened : List OpenCapture) (tokens : TokenList) (memory : σ) :
    t'.produceGroups retok' stack text grammar groups firstLine pairs opened tokens memory =
      t.produceGroups retok stack text grammar groups firstLine pairs opened tokens memory := by
  induction pairs generalizing opened tokens memory with
  | nil => rfl
  | cons pair rest ih =>
    have hrest := ih fun id hid => hpairs id (List.mem_cons_of_mem _ hid)
    obtain ⟨id?, span?⟩ := pair
    match id?, span? with
    | none, _ => simp only [produceGroups, hrest]
    | some id, none => simp only [produceGroups, hrest]
    | some id, some span =>
      have href : R ⟨grammar, id⟩ := hpairs id List.mem_cons_self
      simp only [produceGroups, h.rule? href, h.captureTokens?_eq hretok hstack href, hrest]

omit henc in
theorem produceMatch_eq (hretok : Retokenize.SameWithin R retok retok') (hstack : stack.Inside R)
    {grammar : String} {rules : CaptureRules} (hrules : rules.Inside R grammar) (found : Found)
    (firstLine : Bool) (tokens : TokenList) (memory : σ) :
    t'.produceMatch retok' stack line grammar rules found firstLine tokens memory =
      t.produceMatch retok stack line grammar rules found firstLine tokens memory := by
  unfold produceMatch produceCaptures
  rw [h.produceGroups_eq hretok hstack (hrules.zip found.groups)]

/-! ## Steps -/

variable {found : Found}

/-- A region ends in the same way. -/
theorem close_eq (hretok : Retokenize.SameWithin R retok retok') (hs : s.stack.Inside R) :
    t'.close retok' line s found = t.close retok line s found := by
  unfold close
  rw [h.closing?_eq hs.top]
  let stack := s.stack.withContent s.stack.top.nameScopes
  have hmatch := h.produceMatch_eq line hretok (hs.withContent s.stack.top.nameScopes)
    (henc.inside_closing hs) found s.firstLine (s.tokens.produce found.start s.stack.scopes) s.memory
  exact congrArg (fun produced : TokenList × σ =>
    moveOn line { s with stack := stack.pop, tokens := produced.1, memory := produced.2 } found
      (stack.popped?.any fun f => f.entered == some s.position)) hmatch

omit henc in
theorem takeMatch_eq (hretok : Retokenize.SameWithin R retok retok') (hs : s.stack.Inside R)
    {ref : RuleRef} (href : R ref) (rule : Rule) {rules : CaptureRules}
    (hrules : rules.Inside R ref.grammar) :
    t'.takeMatch retok' line s ref rule rules found =
      t.takeMatch retok line s ref rule rules found := by
  have hframe (scopes : List Scope) : (s.stack.pushRegion ref s.position scopes).Inside R :=
    hs.push href
  unfold takeMatch
  simp only [h.produceMatch_eq line hretok (hframe _) hrules]

omit henc in
/-- A region begins in the same way. -/
theorem enter_eq (hretok : Retokenize.SameWithin R retok retok') (hs : s.stack.Inside R)
    {ref : RuleRef} (href : R ref) (rule : Rule) {rules : CaptureRules}
    (hrules : rules.Inside R ref.grammar) (ending : Pattern) :
    t'.enter retok' line s ref rule rules ending found =
      t.enter retok line s ref rule rules ending found := by
  have hframe (scopes : List Scope) : (s.stack.pushRegion ref s.position scopes).Inside R :=
    hs.push href
  unfold enter
  simp only [h.options, h.takeMatch_eq line hretok hs href rule hrules,
    h.produceMatch_eq line hretok (hframe _) hrules]

theorem perform?_eq (hretok : Retokenize.SameWithin R retok retok') (hs : s.stack.Inside R)
    {choice : Choice} (hchoice : ∀ ref, choice = .rule ref → R ref) :
    t'.perform? retok' line s found choice = t.perform? retok line s found choice := by
  cases choice with
  | close =>
    unfold perform?
    rw [h.close_eq line henc hretok hs]
  | rule ref =>
    have href := hchoice ref rfl
    unfold perform?
    simp only [h.rule? href]
    cases hrule : t.rule? ref with
    | none => rfl
    | some rule =>
      have hrules {rules : CaptureRules} (hsub : rules.filterMap id ⊆ rule.kind.captureRules) :=
        henc.inside_of_rule href hrule hsub
      simp only
      -- each kind of rule has the captures of its first pattern among its own
      split
      · rename_i m hkind
        rw [h.takeMatch_eq line hretok hs href rule (hrules fun id hid => by rw [hkind]; exact hid)]
      · rename_i r hkind
        rw [h.enter_eq line hretok hs href rule (hrules fun id hid => by
          rw [hkind]
          exact List.mem_append_left _ hid)]
      · rename_i w hkind
        rw [h.enter_eq line hretok hs href rule (hrules fun id hid => by
          rw [hkind]
          exact List.mem_append_left _ hid)]
      · rfl

/-- **Both take the same step.** -/
theorem step?_eq (hretok : Retokenize.SameWithin R retok retok') (hs : s.stack.Inside R) :
    t'.step? searching retok' line s = t.step? searching retok line s := by
  unfold step?
  split
  · rfl
  · rename_i place _
    simp only [h.next?_eq line henc hs]
    split
    · rfl
    · rename_i choice found memory hnext
      refine h.perform?_eq line henc hretok (s := { s with memory := memory }) hs ?_
      rintro ref rfl
      -- a rule that matches is one of the candidates
      rcases next?_source (congrArg Prod.fst hnext) with ⟨hclose, -⟩ | ⟨other, heq, hmem⟩
      · cases hclose
      · cases heq
        exact henc.candidates _ hs.top hmem

/-- Both take the same steps. -/
theorem run_eq (hretok : Retokenize.SameWithin R retok retok') (steps : Nat)
    (hs : s.stack.Inside R) :
    t'.run searching retok' line steps s = t.run searching retok line steps s := by
  induction steps generalizing s with
  | zero => rfl
  | succ steps ih =>
    unfold run
    rw [h.step?_eq line henc hretok hs]
    cases hstep : t.step? searching retok line s with
    | none => rfl
    | some s' => exact ih (step?_inside henc hs hstep)

/-- The same conditions match at the start of a line. -/
theorem conditions_eq (hretok : Retokenize.SameWithin R retok retok') {frames : List Frame}
    (hframes : ∀ f ∈ frames, R f.rule) (hs : s.stack.Inside R) :
    t'.conditions searching retok' line frames s = t.conditions searching retok line frames s := by
  induction frames generalizing s with
  | nil => rfl
  | cons f rest ih =>
    have hf := hframes f List.mem_cons_self
    have hpush := hs.push hf
    have hrest : ∀ f ∈ rest, R f.rule := fun g hg => hframes g (List.mem_cons_of_mem _ hg)
    unfold conditions
    rw [h.guard?_eq hf]
    split
    · exact ih hrest hpush
    · rename_i w hguard
      simp only
      split
      · rfl
      · rw [h.produceMatch_eq line hretok hpush (henc.inside_condition hf hguard)]
        refine ih hrest ?_
        rw [stack_moveOn]
        exact hpush

theorem start_eq (hretok : Retokenize.SameWithin R retok retok') (hstack : stack.Inside R)
    (memory : σ) :
    t'.start searching retok' line stack memory = t.start searching retok line stack memory := by
  have habove : ∀ f ∈ stack.above.reverse, R f.rule := fun f hf => hstack f (List.mem_cons_of_mem _ hf)
  refine h.conditions_eq line henc hretok habove ?_
  exact hstack.of_frames ⟨stack.above.reverse, rfl⟩

/-! ## Whole texts -/

omit henc in
/-- The limits are among the options, which are the same. -/
theorem budget_eq : t'.budget line = t.budget line := by
  rw [budget, h.options, budget]

/-- The texts of capture groups are tokenized in the same way. -/
theorem retokenize (levels : Nat) :
    Retokenize.SameWithin R (t.retokenize searching levels) (t'.retokenize searching levels) := by
  induction levels with
  | zero => exact fun _ _ => rfl
  | succ levels ih =>
    intro stack hstack
    funext text position firstLine memory
    have hrun := h.run_eq (.ofText text) henc ih (t.budget (.ofText text))
      (s := ⟨stack, .startingAt position, position, firstLine, searching.enter firstLine memory⟩) hstack
    simp only [Tokenizer.retokenize, h.budget_eq, hrun]

/-- **Both tokenize a text in the same way.** -/
theorem tokenizeText_eq (hstack : stack.Inside R) (text : List Char) (memory : σ) :
    t'.tokenizeText searching text stack memory = t.tokenizeText searching text stack memory := by
  have hretok := h.retokenize henc t.options.maxStackDepth.toNat
  have hstart := h.start_eq (.ofText text) henc hretok hstack memory
  have hinside : (t.start searching (t.retokenize searching t.options.maxStackDepth.toNat)
      (.ofText text) stack memory).stack.Inside R :=
    hstack.of_frames (start_frames t searching _ _ stack memory)
  have hrun := h.run_eq (.ofText text) henc hretok (t.budget (.ofText text)) hinside
  unfold tokenizeText
  simp only [h.options, h.budget_eq, hstart, hrun]

end SameWithin

variable {t t' : Tokenizer} {R : RuleRef → Prop}

/-- Both tokenize a line in the same way, and stay inside. -/
theorem SameWithin.tokenizeLine_eq (h : t.SameWithin t' .remembering R)
    (henc : t.Encloses .remembering R) (line : List Char) {stack : Stack} (hstack : stack.Inside R) :
    t'.tokenizeLine line stack = t.tokenizeLine line stack ∧
      (t.tokenizeLine line stack).2.Inside R := by
  obtain ⟨hline, -⟩ := tokenizeLineWith_spec (Tables.right_empty t) line stack
  obtain ⟨hline', -⟩ := tokenizeLineWith_spec (Tables.right_empty t') line stack
  have hsame := h.tokenizeText_eq henc hstack (line ++ ['\n']) .empty
  have hinside := tokenizeText_inside henc hstack (line ++ ['\n']) .empty
  rw [tokenizeLine, tokenizeLine, hline, hline', hsame]
  exact ⟨rfl, hinside.endLine⟩

/-- **Both tokenize lines in the same way**, from a stack inside. -/
theorem SameWithin.tokenizeLines_eq (h : t.SameWithin t' .remembering R)
    (henc : t.Encloses .remembering R) (lines : List (List Char)) {stack : Stack}
    (hstack : stack.Inside R) : t'.tokenizeLines lines stack = t.tokenizeLines lines stack := by
  induction lines generalizing stack with
  | nil => rfl
  | cons line rest ih =>
    obtain ⟨hline, hinside⟩ := h.tokenizeLine_eq henc line hstack
    rw [tokenizeLines_cons, tokenizeLines_cons, hline, ih hinside]

end Tokenizer

end Highlight
