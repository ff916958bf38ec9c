import Highlight.Proofs.Enclosed

/-!
# The scopes of tokens and frames

The scopes of a token are those of a frame or of an open capture group, and these come from the
frame below or the group around by adding the scopes of a rule. So what holds of the bottom frame's
scopes and is kept when the scopes of a rule are added holds of the scopes of all frames and tokens,
those of tokenized capture groups included. If a run does not leave a set of rules, it is enough that
the rules of this set keep the property.

- `Tokenizer.KeptWithin`, `Tokenizer.KeptByRules`: a property of lists of scopes that the rules of a set
  keep, or all rules.
- `Stack.ScopesHold`, `TokenList.ScopesHold`, `LineState.ScopesHold`: it holds of all frames and
  tokens.
- `Tokenizer.produceGroups_hold`: what holds of the tokens and the open groups through a whole match.
- `Tokenizer.step?_scopesHold_within`, `Tokenizer.conditions_scopesHold`: each part of the work keeps it.
- `Tokenizer.retokenize_scopesHold_within`, `Tokenizer.tokenizeText_scopesHold_within`: whole texts.
- `Tokenizer.step?_scopesHold`, `Tokenizer.tokenizeText_scopesHold`: the same for the set of all rules.
-/

namespace Highlight

variable [Engine]

/-- A property of lists of scopes that is kept when the scopes of the name or of the content of one of
the given rules are added. -/
structure Tokenizer.KeptWithin (t : Tokenizer) (R : RuleRef → Prop) (P : List Scope → Prop) :
    Prop where
  name : ∀ {ref rule scopes} text groups, R ref → t.rule? ref = some rule → P scopes →
    P (scopes ++ rule.nameScopes text groups)
  content : ∀ {ref rule scopes} text groups, R ref → t.rule? ref = some rule → P scopes →
    P (scopes ++ rule.contentScopes text groups)

/-- A property of lists of scopes that is kept when the scopes of a rule's name or of its content are
added. -/
structure Tokenizer.KeptByRules (t : Tokenizer) (P : List Scope → Prop) : Prop where
  name : ∀ {ref rule scopes} text groups, t.rule? ref = some rule → P scopes →
    P (scopes ++ rule.nameScopes text groups)
  content : ∀ {ref rule scopes} text groups, t.rule? ref = some rule → P scopes →
    P (scopes ++ rule.contentScopes text groups)

/-- The property holds of both lists of a frame. -/
structure Frame.ScopesHold (P : List Scope → Prop) (f : Frame) : Prop where
  name : P f.nameScopes
  content : P f.contentScopes

/-- The property holds of the lists of all frames. -/
def Stack.ScopesHold (P : List Scope → Prop) (s : Stack) : Prop := ∀ f ∈ s.frames, f.ScopesHold P

/-- The property holds of the lists of all tokens. -/
def TokenList.ScopesHold (P : List Scope → Prop) (tokens : TokenList) : Prop :=
  ∀ token ∈ tokens.reversed, P token.scopes

/-- The property holds of the lists of all frames and tokens. -/
structure LineState.ScopesHold {σ : Type} (P : List Scope → Prop) (s : LineState σ) : Prop where
  stack : s.stack.ScopesHold P
  tokens : s.tokens.ScopesHold P

/-- The property holds of the lists of the tokens for capture groups, if it holds of the lists of the
frames with which they are tokenized, and these are for rules of a set. -/
def Retokenize.ScopesHold {σ : Type} (R : RuleRef → Prop) (P : List Scope → Prop)
    (r : Retokenize σ) : Prop :=
  ∀ stack, Stack.Inside R stack → Stack.ScopesHold P stack → ∀ text position firstLine memory,
    ∀ token ∈ (r stack text position firstLine memory).1, P token.scopes

/-- What all rules keep is kept by the rules of a set, here the set of all rules. -/
theorem Tokenizer.KeptByRules.within {t : Tokenizer} {P : List Scope → Prop} (h : t.KeptByRules P) :
    t.KeptWithin (fun _ => True) P where
  name text groups _ := h.name text groups
  content text groups _ := h.content text groups

variable {R : RuleRef → Prop} {P : List Scope → Prop}

/-! ## Frames, tokens and open groups -/

namespace Stack

omit [Engine]

variable {s : Stack}

theorem ScopesHold.top (h : s.ScopesHold P) : s.top.ScopesHold P := h s.top s.top_mem_frames

/-- The scopes of the text inside of the innermost region are those of the content of its frame. -/
theorem ScopesHold.scopes (h : s.ScopesHold P) : P s.scopes := h.top.content

theorem ScopesHold.push (h : s.ScopesHold P) {f : Frame} (hf : f.ScopesHold P) :
    (s.push f).ScopesHold P :=
  forall_frames_push h hf

theorem ScopesHold.pop (h : s.ScopesHold P) : s.pop.ScopesHold P := forall_frames_pop h

theorem ScopesHold.withContent (h : s.ScopesHold P) {scopes : List Scope} (hs : P scopes) :
    (s.withContent scopes).ScopesHold P :=
  forall_frames_withContent h ⟨h.top.name, hs⟩

/-- The end of a line forgets where regions were entered, and no scopes. -/
theorem ScopesHold.endLine (h : s.ScopesHold P) : s.endLine.ScopesHold P :=
  forall_frames_endLine fun f hf => ⟨(h f hf).name, (h f hf).content⟩

/-- A match is given its own scopes by a frame on top. -/
theorem ScopesHold.pushRegion (h : s.ScopesHold P) (ref : RuleRef) (entered : Nat)
    {scopes : List Scope} (hs : P scopes) : (s.pushRegion ref entered scopes).ScopesHold P :=
  h.push ⟨hs, hs⟩

end Stack

namespace TokenList

omit [Engine]

variable {tokens : TokenList}

/-- A token that is put behind the others brings the only list that is new. -/
theorem ScopesHold.produce (h : tokens.ScopesHold P) (stop : Nat) {scopes : List Scope}
    (hs : P scopes) : (tokens.produce stop scopes).ScopesHold P := by
  unfold TokenList.produce
  split
  · intro token ht
    rcases List.mem_cons.1 ht with rfl | ht
    · exact hs
    · exact h token ht
  · exact h

theorem ScopesHold.produceAll (h : tokens.ScopesHold P) {more : List Token}
    (hmore : ∀ token ∈ more, P token.scopes) : (tokens.produceAll more).ScopesHold P := by
  refine List.foldlRecOn (motive := ScopesHold P) more _ h ?_
  intro tokens h token ht
  exact h.produce _ (hmore token ht)

/-- Cutting tokens off at an offset changes how far they go, not their scopes. -/
theorem ScopesHold.clip (h : tokens.ScopesHold P) (size : Nat) :
    ∀ token ∈ tokens.clip size, P token.scopes := by
  have hkept : ∀ token ∈ tokens.reversed.filter fun token => token.span.start < size,
      P token.scopes :=
    fun token ht => h token (List.mem_filter.1 ht).1
  unfold TokenList.clip
  split
  · exact fun _ ht => absurd ht List.not_mem_nil
  · rename_i last rest hcons
    rw [hcons] at hkept
    intro token ht
    -- cutting the last token off leaves its scopes
    rcases List.mem_cons.1 (List.mem_reverse.1 ht) with rfl | ht
    · exact hkept last List.mem_cons_self
    · exact hkept token (List.mem_cons_of_mem _ ht)

end TokenList

namespace OpenCapture

omit [Engine]

/-- The property holds of the lists of all open groups. -/
def ScopesHold (P : List Scope → Prop) (opened : List OpenCapture) : Prop :=
  ∀ c ∈ opened, P c.scopes

/-- Groups that end in front of an offset leave tokens with their own scopes behind. -/
theorem closeUpTo_scopesHold (offset : Nat) {opened : List OpenCapture} {tokens : TokenList}
    (ho : ScopesHold P opened) (ht : tokens.ScopesHold P) :
    ScopesHold P (closeUpTo offset opened tokens).1 ∧
      (closeUpTo offset opened tokens).2.ScopesHold P := by
  induction opened generalizing tokens with
  | nil => exact ⟨ho, ht⟩
  | cons c rest ih =>
    obtain ⟨hc, hrest⟩ := List.forall_mem_cons.1 ho
    unfold closeUpTo
    split
    · exact ih hrest (ht.produce _ hc)
    · exact ⟨ho, ht⟩

/-- Closing all groups leaves a token for each that still has some text. -/
theorem closeAll_scopesHold {opened : List OpenCapture} {tokens : TokenList}
    (ho : ScopesHold P opened) (ht : tokens.ScopesHold P) :
    (closeAll opened tokens).ScopesHold P := by
  induction opened generalizing tokens with
  | nil => exact ht
  | cons c rest ih =>
    obtain ⟨hc, hrest⟩ := List.forall_mem_cons.1 ho
    exact ih hrest (ht.produce _ hc)

/-- Text has the scopes of the innermost open group around it, or else those from outside. -/
theorem scopesOf_hold {outside : List Scope} {opened : List OpenCapture} (hs : P outside)
    (ho : ScopesHold P opened) : P (scopesOf outside opened) := by
  cases opened with
  | nil => exact hs
  | cons c rest => exact ho c List.mem_cons_self

end OpenCapture

namespace Tokenizer

variable {σ : Type} {t : Tokenizer} {searching : Searching σ} {retok : Retokenize σ}
  {line : IndexedText} {s s' : LineState σ} {stack : Stack} {tokens : TokenList}

/-! ## Capture groups -/

/-- **What holds of the scopes of a stack holds of the tokens for groups**, if the rules of the groups
keep it and it holds of what is tokenized again. -/
theorem produceGroups_hold {text : List Char} {grammar : String} {groups : Groups} {firstLine : Bool}
    (hscopes : P stack.scopes)
    (hname : ∀ {id rule scopes}, R ⟨grammar, id⟩ → t.rule? ⟨grammar, id⟩ = some rule → P scopes →
      P (scopes ++ rule.nameScopes text groups))
    (hinner : ∀ {id rule span memory inner}, R ⟨grammar, id⟩ → t.rule? ⟨grammar, id⟩ = some rule →
      t.captureTokens? retok stack ⟨grammar, id⟩ rule text groups span firstLine memory = some inner →
      ∀ token ∈ inner.1, P token.scopes)
    {pairs : List (Option RuleId × Option Span)}
    (hpairs : CaptureRules.Inside R grammar (pairs.map Prod.fst)) {opened : List OpenCapture}
    (memory : σ) (ho : OpenCapture.ScopesHold P opened) (ht : tokens.ScopesHold P) :
    (t.produceGroups retok stack text grammar groups firstLine pairs opened tokens
      memory).1.ScopesHold P := by
  induction pairs generalizing opened tokens memory with
  | nil => exact OpenCapture.closeAll_scopesHold ho ht
  | cons pair rest ih =>
    have hrest : CaptureRules.Inside R grammar (rest.map Prod.fst) :=
      fun id hid => hpairs id (List.mem_cons_of_mem _ hid)
    obtain ⟨id?, span?⟩ := pair
    match id?, span? with
    | none, _ => exact ih hrest memory ho ht
    | some id, none => exact ih hrest memory ho ht
    | some id, some span =>
      unfold produceGroups
      split
      · exact ih hrest memory ho ht
      · split
        · exact ih hrest memory ho ht
        · rename_i rule hrule
          have href : R ⟨grammar, id⟩ := hpairs id List.mem_cons_self
          obtain ⟨ho', ht'⟩ := OpenCapture.closeUpTo_scopesHold span.start ho ht
          have houter := OpenCapture.scopesOf_hold hscopes ho'
          simp only
          split
          · rename_i inner memory' hcaptured
            exact ih hrest memory' ho'
              ((ht'.produce _ houter).produceAll (hinner href hrule hcaptured))
          · refine ih hrest memory ?_ (ht'.produce _ houter)
            split
            · exact ho'
            · exact List.forall_mem_cons.2 ⟨hname href hrule houter, ho'⟩

section Captures

variable (hP : t.KeptWithin R P) (hr : retok.ScopesHold R P)
include hP hr

/-- The text of a group is tokenized again with a frame on top that has the scopes of the group. -/
theorem captureTokens?_scopesHold (hinside : stack.Inside R) (hstack : stack.ScopesHold P)
    {ref : RuleRef} (href : R ref) {rule : Rule} (hrule : t.rule? ref = some rule)
    {text : List Char} {groups : Groups} {span : Span} {firstLine : Bool} {memory : σ}
    {inner : List Token × σ}
    (h : t.captureTokens? retok stack ref rule text groups span firstLine memory = some inner) :
    ∀ token ∈ inner.1, P token.scopes := by
  unfold captureTokens? at h
  split at h
  · cases h
  · split at h
    · obtain ⟨part, -, rfl⟩ := Option.map_eq_some_iff.1 h
      have hname := hP.name text groups href hrule hstack.scopes
      exact hr _ (inside_captureStack hinside href rule text groups span.start)
        ((hstack.pushRegion ref span.start hname).withContent
          (hP.content text groups href hrule hname)) part span.start _ memory
    · cases h

theorem produceGroups_scopesHold (hinside : stack.Inside R) (hstack : stack.ScopesHold P)
    (text : List Char) {grammar : String} (groups : Groups) (firstLine : Bool)
    {pairs : List (Option RuleId × Option Span)}
    (hpairs : CaptureRules.Inside R grammar (pairs.map Prod.fst)) {opened : List OpenCapture}
    (memory : σ) (ho : OpenCapture.ScopesHold P opened) (ht : tokens.ScopesHold P) :
    (t.produceGroups retok stack text grammar groups firstLine pairs opened tokens
      memory).1.ScopesHold P :=
  produceGroups_hold hstack.scopes (hP.name text groups)
    (fun href hrule h => captureTokens?_scopesHold hP hr hinside hstack href hrule h) hpairs memory ho ht

/-- The tokens of a match have scopes of the stack and of the rules for its groups. -/
theorem produceMatch_scopesHold (hinside : stack.Inside R) (hstack : stack.ScopesHold P)
    (line : IndexedText) {grammar : String} {rules : CaptureRules}
    (hrules : rules.Inside R grammar) (found : Found) (firstLine : Bool) (memory : σ)
    (ht : tokens.ScopesHold P) :
    (t.produceMatch retok stack line grammar rules found firstLine tokens
      memory).1.ScopesHold P := by
  have hgroups := produceGroups_scopesHold hP hr hinside hstack line.text found.groups firstLine
    (hrules.zip found.groups) memory (fun _ hc => absurd hc List.not_mem_nil) ht
  exact hgroups.produce _ hstack.scopes

end Captures

/-! ## Steps -/

omit [Engine] in
theorem moveOn_scopesHold (h : s.ScopesHold P) (line : IndexedText) (found : Found) (skip : Bool) :
    (moveOn line s found skip).ScopesHold P := by
  unfold moveOn
  split
  · exact ⟨h.stack, h.tokens⟩
  · split
    · exact ⟨h.stack, h.tokens⟩
    · exact h

/-- The frame of a new region adds the scopes of the name, and inside of these those of the content.
-/
theorem regionFrame_scopesHold (hP : t.KeptWithin R P) (hstack : stack.ScopesHold P) {ref : RuleRef}
    (href : R ref) {rule : Rule} (hrule : t.rule? ref = some rule) (position : Nat)
    (line : IndexedText) (ending : Pattern) (found : Found) :
    (regionFrame stack position line ref rule ending found).ScopesHold P := by
  have hname := hP.name line.text found.groups href hrule hstack.scopes
  exact ⟨hname, hP.content line.text found.groups href hrule hname⟩

section Steps

variable (henc : t.Encloses searching R) (hP : t.KeptWithin R P) (hr : retok.ScopesHold R P)

include henc hP hr in
/-- Where a region ends, its end has the scopes of its name, and the frames below are those from
before. -/
theorem close_scopesHold (hinside : s.stack.Inside R) (h : s.ScopesHold P) (found : Found) :
    (t.close retok line s found).ScopesHold P := by
  have hname := h.stack.withContent h.stack.top.name
  apply moveOn_scopesHold
  exact ⟨hname.pop, produceMatch_scopesHold hP hr (hinside.withContent _) hname line
    (henc.inside_closing hinside) found s.firstLine s.memory (h.tokens.produce _ h.stack.scopes)⟩

include hP hr in
/-- The match of a rule without a region brings tokens only. -/
theorem takeMatch_scopesHold (hinside : s.stack.Inside R) (h : s.ScopesHold P) {ref : RuleRef}
    (href : R ref) {rule : Rule} (hrule : t.rule? ref = some rule) {rules : CaptureRules}
    (hrules : rules.Inside R ref.grammar) (found : Found) :
    (t.takeMatch retok line s ref rule rules found).ScopesHold P := by
  have hname := hP.name line.text found.groups href hrule h.stack.scopes
  have hpushed := h.stack.pushRegion ref s.position hname
  apply moveOn_scopesHold
  exact ⟨hpushed.pop, produceMatch_scopesHold hP hr (hinside.push href) hpushed line hrules found
    s.firstLine s.memory (h.tokens.produce _ h.stack.scopes)⟩

include hP hr in
/-- Where a region begins, its beginning has the scopes of its name, and its frame is put on top. -/
theorem enter_scopesHold (hinside : s.stack.Inside R) (h : s.ScopesHold P) {ref : RuleRef}
    (href : R ref) {rule : Rule} (hrule : t.rule? ref = some rule) {rules : CaptureRules}
    (hrules : rules.Inside R ref.grammar) (ending : Pattern) (found : Found) :
    (t.enter retok line s ref rule rules ending found).ScopesHold P := by
  unfold enter
  simp only
  split
  · apply moveOn_scopesHold
    exact ⟨h.stack, h.tokens.produce _ h.stack.scopes⟩
  · split
    · exact takeMatch_scopesHold hP hr hinside h href hrule hrules found
    · have hname := hP.name line.text found.groups href hrule h.stack.scopes
      have hpushed := h.stack.pushRegion ref s.position hname
      apply moveOn_scopesHold
      refine ⟨?_, produceMatch_scopesHold hP hr (hinside.push href) hpushed line hrules found
        s.firstLine s.memory (h.tokens.produce _ h.stack.scopes)⟩
      show (openRegion s line ref rule ending found).ScopesHold P
      rw [openRegion_eq_push]
      exact h.stack.push
        (regionFrame_scopesHold hP h.stack href hrule s.position line ending found)

include henc hP hr

/-- Whatever wins, its rule is one of the set. -/
theorem perform?_scopesHold (hinside : s.stack.Inside R) (h : s.ScopesHold P) {found : Found}
    {choice : Choice} (hchoice : ∀ ref, choice = .rule ref → R ref)
    (hs : t.perform? retok line s found choice = some s') : s'.ScopesHold P := by
  unfold perform? at hs
  split at hs
  · cases hs
    exact close_scopesHold henc hP hr hinside h found
  · rename_i ref
    have href : R ref := hchoice ref rfl
    split at hs
    · cases hs
    · rename_i rule hrule
      split at hs
      · rename_i m hkind
        cases hs
        refine takeMatch_scopesHold hP hr hinside h href hrule
          (henc.inside_of_rule href hrule fun id hid => ?_) found
        rw [hkind]
        exact hid
      · rename_i r hkind
        cases hs
        refine enter_scopesHold hP hr hinside h href hrule
          (henc.inside_of_rule href hrule fun id hid => ?_) _ found
        rw [hkind]
        exact List.mem_append_left _ hid
      · rename_i w hkind
        cases hs
        refine enter_scopesHold hP hr hinside h href hrule
          (henc.inside_of_rule href hrule fun id hid => ?_) _ found
        rw [hkind]
        exact List.mem_append_left _ hid
      · cases hs

/-- **A step keeps what the rules keep.** -/
theorem step?_scopesHold_within (hinside : s.stack.Inside R) (h : s.ScopesHold P)
    (hs : t.step? searching retok line s = some s') : s'.ScopesHold P := by
  unfold step? at hs
  split at hs
  · cases hs
  · simp only at hs
    split at hs
    · cases hs
    · rename_i choice found memory hnext
      refine perform?_scopesHold (s := { s with memory := memory }) henc hP hr hinside
        ⟨h.stack, h.tokens⟩ ?_ hs
      rintro ref rfl
      rcases next?_source (congrArg Prod.fst hnext) with ⟨hclose, -⟩ | ⟨ref', hchoice, hmem⟩
      · cases hclose
      · cases hchoice
        exact henc.candidates _ hinside.top hmem

/-- Several steps keep what one step keeps. -/
theorem run_scopesHold (steps : Nat) (hinside : s.stack.Inside R) (h : s.ScopesHold P) :
    (t.run searching retok line steps s).ScopesHold P := by
  have hboth : (t.run searching retok line steps s).stack.Inside R ∧
      (t.run searching retok line steps s).ScopesHold P := by
    refine run_invariant (I := fun s : LineState σ => s.stack.Inside R ∧ s.ScopesHold P) ?_ steps
      ⟨hinside, h⟩
    rintro s s' ⟨hinside, h⟩ hstep
    exact ⟨step?_inside henc hinside hstep, step?_scopesHold_within henc hP hr hinside h hstep⟩
  exact hboth.2

/-- The conditions at the start of a line keep what the rules keep, if it holds of the frames that are
left to go through. -/
theorem conditions_scopesHold {frames : List Frame} (hrefs : ∀ f ∈ frames, R f.rule)
    (hframes : ∀ f ∈ frames, f.ScopesHold P) (hinside : s.stack.Inside R) (h : s.ScopesHold P) :
    (t.conditions searching retok line frames s).ScopesHold P := by
  induction frames generalizing s with
  | nil => exact h
  | cons f rest ih =>
    obtain ⟨href, hrefs⟩ := List.forall_mem_cons.1 hrefs
    obtain ⟨hf, hrest⟩ := List.forall_mem_cons.1 hframes
    have hpushed := h.stack.push hf
    have hinside' := hinside.push href
    unfold conditions
    split
    · exact ih hrefs hrest hinside' ⟨hpushed, h.tokens⟩
    · rename_i w hguard
      split
      rename_i condition memory _
      split
      · exact ⟨h.stack, h.tokens⟩
      · rename_i found _
        refine ih hrefs hrest ?_ (moveOn_scopesHold ?_ line found false)
        · rw [stack_moveOn]
          exact hinside'
        · exact ⟨hpushed, produceMatch_scopesHold hP hr hinside' hpushed line
            (henc.inside_condition href hguard) found s.firstLine memory
            (h.tokens.produce _ hf.content)⟩

end Steps

omit [Engine] in
theorem startingAt_scopesHold (offset : Nat) : (TokenList.startingAt offset).ScopesHold P :=
  fun _ ht => absurd ht List.not_mem_nil

/-- In front of the first step, when the conditions have been tried, nothing else has been added. -/
theorem start_scopesHold (henc : t.Encloses searching R) (hP : t.KeptWithin R P)
    (hr : retok.ScopesHold R P) (hinside : stack.Inside R) (hstack : stack.ScopesHold P)
    (line : IndexedText) (memory : σ) :
    (t.start searching retok line stack memory).ScopesHold P := by
  -- all frames but the bottom one are still to be gone through
  have hbottom : ∀ {Q : Frame → Prop}, (∀ f ∈ stack.frames, Q f) →
      ∀ f ∈ Stack.frames { stack with above := [] }, Q f := by
    intro Q hQ f hf
    rw [List.mem_singleton.1 hf]
    exact hQ stack.bottom List.mem_cons_self
  exact conditions_scopesHold henc hP hr (fun f hf => hinside f (List.mem_cons_of_mem _ hf))
    (fun f hf => hstack f (List.mem_cons_of_mem _ hf)) (hbottom hinside)
    ⟨hbottom hstack, startingAt_scopesHold 0⟩

omit [Engine] in
theorem finish_scopesHold (h : s.ScopesHold P) (line : IndexedText) :
    (finish line s).ScopesHold P :=
  ⟨h.stack, h.tokens.produce _ h.stack.scopes⟩

/-! ## Whole texts -/

/-- The tokens for capture groups, however deep the recursion goes. -/
theorem retokenize_scopesHold_within (henc : t.Encloses searching R) (hP : t.KeptWithin R P)
    (levels : Nat) : (t.retokenize searching levels).ScopesHold R P := by
  induction levels with
  | zero => exact fun _ _ _ _ _ _ _ _ ht => absurd ht List.not_mem_nil
  | succ levels ih =>
    intro stack hinside hstack text position firstLine memory token ht
    have hrun : (t.run searching (t.retokenize searching levels) (.ofText text)
        (t.budget (.ofText text)) ⟨stack, .startingAt position, position, firstLine,
          searching.enter firstLine memory⟩).ScopesHold P :=
      run_scopesHold henc hP ih _ hinside ⟨hstack, startingAt_scopesHold position⟩
    exact (finish_scopesHold hrun (.ofText text)).tokens token (List.mem_reverse.1 ht)

/-- **What the rules keep holds of all scopes of a text**, if it holds of those of the stack in front
of it. -/
theorem tokenizeText_scopesHold_within (henc : t.Encloses searching R) (hP : t.KeptWithin R P)
    (text : List Char) (hinside : stack.Inside R) (hstack : stack.ScopesHold P) (memory : σ) :
    (t.tokenizeText searching text stack memory).ScopesHold P := by
  have hr := retokenize_scopesHold_within henc hP t.options.maxStackDepth.toNat
  have hstart := start_scopesHold henc hP hr hinside hstack (.ofText text) memory
  have hinside' : (t.start searching (t.retokenize searching t.options.maxStackDepth.toNat)
      (.ofText text) stack memory).stack.Inside R :=
    hinside.of_frames (start_frames t searching _ (.ofText text) stack memory)
  exact finish_scopesHold (run_scopesHold henc hP hr _ hinside' hstart) (.ofText text)

/-! ## All rules -/

section All

variable (hP : t.KeptByRules P)
include hP

/-- A step keeps what all rules keep. -/
theorem step?_scopesHold (hr : retok.ScopesHold (fun _ => True) P) (h : s.ScopesHold P)
    (hs : t.step? searching retok line s = some s') : s'.ScopesHold P :=
  step?_scopesHold_within (t.encloses_all searching) hP.within hr s.stack.inside_all h hs

theorem retokenize_scopesHold (searching : Searching σ) (levels : Nat) :
    (t.retokenize searching levels).ScopesHold (fun _ => True) P :=
  retokenize_scopesHold_within (t.encloses_all searching) hP.within levels

/-- What all rules keep holds of all scopes of a text if it holds of those of the stack. -/
theorem tokenizeText_scopesHold (searching : Searching σ) (text : List Char)
    (hstack : stack.ScopesHold P) (memory : σ) :
    (t.tokenizeText searching text stack memory).ScopesHold P :=
  tokenizeText_scopesHold_within (t.encloses_all searching) hP.within text stack.inside_all hstack
    memory

end All

end Tokenizer

end Highlight
