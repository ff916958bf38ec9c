import Highlight.Proofs.MatchReach
import Highlight.Proofs.ScopeLists
import Highlight.Proofs.Termination

/-!
# Scopes inside of a capture group

The text of a capture group is tokenized with a frame of its own on the stack. The rule of this frame is
no region, so no pattern ends it, and whatever begins in the text has the scopes of the frame with more
behind them. The frames below do not matter: their scopes are not looked at for as long as the frame
stays.

- `Stack.Raised`: regions opened on a floor, all of them with the scopes of the floor in front.
- `Tokenizer.Move.raised`: a step keeps this.
- `Retokenize.Carries`: the tokens for the text of a group have the scopes of its frame in front.
- `Tokenizer.step?_carries`, `Tokenizer.retokenize_carries`: steps, and whole texts of groups.
-/

namespace Highlight

/-- A stack on a floor, with regions opened there whose scopes begin with those of the floor. -/
inductive Stack.Raised (floor : Stack) : Stack → Prop
  | floor : Raised floor floor
  | push {s : Stack} {f : Frame} (below : Raised floor s) (name : floor.scopes <+: f.nameScopes)
      (content : floor.scopes <+: f.contentScopes) : Raised floor (s.push f)

variable [Engine]

/-- The tokens for the text of a capture group have scopes that begin with those of the innermost frame
of the stack they are made with. -/
def Retokenize.Carries {σ : Type} (t : Tokenizer) (r : Retokenize σ) : Prop :=
  ∀ stack, t.CaptureOf (Stack.top stack).rule → ∀ text position firstLine memory,
    ∀ token ∈ (r stack text position firstLine memory).1, stack.scopes <+: token.scopes

namespace Stack

omit [Engine]

theorem scopes_withContent (s : Stack) (scopes : List Scope) :
    (s.withContent scopes).scopes = scopes := by
  obtain ⟨bottom, above, firstLine⟩ := s
  cases above with
  | nil => rfl
  | cons f rest => rfl

theorem Raised.scopes {floor s : Stack} (h : floor.Raised s) : floor.scopes <+: s.scopes := by
  cases h with
  | floor => exact List.prefix_rfl
  | push _ _ content => exact content

end Stack

namespace Tokenizer

variable {σ : Type} {t : Tokenizer} {searching : Searching σ} {retok : Retokenize σ}
  {line : IndexedText} {s s' : LineState σ} {found : Found} {floor stack : Stack}
  {outer : List Scope} {tokens : TokenList}

/-! ## Regions on a floor -/

/-- A region that a pattern ends lies above the floor. -/
theorem raised_of_closing? (hfloor : t.closing? floor.top = none) (h : floor.Raised stack)
    {r : EndRule} (hclosing : t.closing? stack.top = some r) (scopes : List Scope) :
    floor.scopes <+: stack.top.nameScopes ∧ floor.Raised (stack.withContent scopes).pop := by
  cases h with
  | floor =>
    rw [hfloor] at hclosing
    cases hclosing
  | push below name _ => exact ⟨name, below⟩

/-- **Steps keep the scopes of the floor in front.** -/
theorem Move.raised (hfloor : t.closing? floor.top = none) (h : t.Move searching line s s' found)
    (hs : floor.Raised s.stack) : floor.Raised s'.stack := by
  cases h with
  | closed r closing stack _ =>
    rw [stack]
    exact (raised_of_closing? hfloor hs closing _).2
  | passed stack _ =>
    rw [stack]
    exact hs
  | opened ref rule ending _ _ _ _ stack _ =>
    rw [stack]
    have hname := hs.scopes.trans (List.prefix_append s.stack.scopes
      (rule.nameScopes line.text found.groups))
    exact .push hs hname (hname.trans (List.prefix_append _ _))

/-! ## The tokens of a match -/

/-- The scopes of a group's frame are those of the stack, then those of the group's rule. -/
theorem captureTokens?_carries (hr : retok.Carries t) {ref : RuleRef} (href : t.CaptureOf ref)
    {rule : Rule} {text : List Char} {groups : Groups} {span : Span} {firstLine : Bool} {memory : σ}
    {inner : List Token × σ}
    (h : t.captureTokens? retok stack ref rule text groups span firstLine memory = some inner) :
    ∀ token ∈ inner.1, stack.scopes ++ rule.nameScopes text groups ++ rule.contentScopes text groups
      <+: token.scopes := by
  unfold captureTokens? at h
  split at h
  · cases h
  · split at h
    · obtain ⟨part, -, rfl⟩ := Option.map_eq_some_iff.1 h
      intro token ht
      have hscopes := hr (captureStack stack ref rule text groups span.start) href part span.start _
        memory token ht
      rwa [captureStack, Stack.scopes_withContent] at hscopes
    · cases h

/-- The tokens of a match have scopes that begin with those of the stack. -/
theorem produceMatch_carries (hr : retok.Carries t) (hstack : outer <+: stack.scopes)
    (line : IndexedText) {grammar : String} {rules : CaptureRules} (howned : t.Owned grammar rules)
    (found : Found) (firstLine : Bool) (memory : σ) (ht : tokens.ScopesHold (outer <+: ·)) :
    (t.produceMatch retok stack line grammar rules found firstLine tokens
      memory).1.ScopesHold (outer <+: ·) := by
  have hpairs : CaptureRules.Inside t.CaptureOf grammar ((rules.zip found.groups).map Prod.fst) :=
    howned.zip found.groups
  have hgroups : (t.produceCaptures retok stack line.text grammar rules found.groups firstLine tokens
      memory).1.ScopesHold (outer <+: ·) := by
    refine produceGroups_hold hstack (fun _ _ hscopes => hscopes.trans (List.prefix_append _ _)) ?_
      hpairs memory (fun _ hc => absurd hc List.not_mem_nil) ht
    intro id rule span memory inner hcapture _ hcaptured token htoken
    have hscopes := captureTokens?_carries hr hcapture hcaptured token htoken
    rw [List.append_assoc] at hscopes
    exact hstack.trans ((List.prefix_append _ _).trans hscopes)
  exact hgroups.produce _ hstack

/-! ## Steps -/

theorem takeMatch_carries (hr : retok.Carries t) (hstack : outer <+: s.stack.scopes)
    (ht : s.tokens.ScopesHold (outer <+: ·)) (ref : RuleRef) (rule : Rule) {rules : CaptureRules}
    (howned : t.Owned ref.grammar rules) (found : Found) :
    (t.takeMatch retok line s ref rule rules found).tokens.ScopesHold (outer <+: ·) := by
  unfold takeMatch
  rw [tokens_moveOn]
  exact produceMatch_carries hr (hstack.trans (List.prefix_append _ _)) line howned found s.firstLine
    s.memory (ht.produce _ hstack)

/-- So have those of the beginning of a region. -/
theorem enter_carries (hr : retok.Carries t) (hstack : outer <+: s.stack.scopes)
    (ht : s.tokens.ScopesHold (outer <+: ·)) (ref : RuleRef) (rule : Rule) {rules : CaptureRules}
    (howned : t.Owned ref.grammar rules) (ending : Pattern) (found : Found) :
    (t.enter retok line s ref rule rules ending found).tokens.ScopesHold (outer <+: ·) := by
  unfold enter
  simp only
  split
  · rw [tokens_moveOn]
    exact ht.produce _ hstack
  · split
    · exact takeMatch_carries hr hstack ht ref rule howned found
    · rw [tokens_moveOn]
      exact produceMatch_carries hr (hstack.trans (List.prefix_append _ _)) line howned found
        s.firstLine s.memory (ht.produce _ hstack)

theorem perform?_carries (hr : retok.Carries t) (hfloor : t.closing? floor.top = none)
    (hs : floor.Raised s.stack) (ht : s.tokens.ScopesHold (floor.scopes <+: ·)) {choice : Choice}
    (hclose : choice = .close → ∃ r, t.closing? s.stack.top = some r)
    (h : t.perform? retok line s found choice = some s') :
    s'.tokens.ScopesHold (floor.scopes <+: ·) := by
  unfold perform? at h
  split at h
  · cases h
    obtain ⟨r, hr'⟩ := hclose rfl
    obtain ⟨hname, -⟩ := raised_of_closing? hfloor hs hr' []
    unfold close
    rw [tokens_moveOn]
    -- the end of the region has the scopes of the region's name
    refine produceMatch_carries hr ?_ line (owned_closing s.stack) found s.firstLine s.memory
      (ht.produce _ hs.scopes)
    rwa [Stack.scopes_withContent]
  · split at h
    · cases h
    · rename_i ref rule hrule
      split at h
      · rename_i m hkind
        cases h
        refine takeMatch_carries hr hs.scopes ht _ rule (owned_of_rule hrule fun id hid => ?_) found
        rw [hkind]
        exact hid
      · rename_i r hkind
        cases h
        refine enter_carries hr hs.scopes ht _ rule (owned_of_rule hrule fun id hid => ?_) _ found
        rw [hkind]
        exact List.mem_append_left _ hid
      · rename_i w hkind
        cases h
        refine enter_carries hr hs.scopes ht _ rule (owned_of_rule hrule fun id hid => ?_) _ found
        rw [hkind]
        exact List.mem_append_left _ hid
      · cases h

/-- **A step gives scopes that begin with those of the floor.** -/
theorem step?_carries (hr : retok.Carries t) (hfloor : t.closing? floor.top = none)
    (hs : floor.Raised s.stack) (ht : s.tokens.ScopesHold (floor.scopes <+: ·))
    (h : t.step? searching retok line s = some s') :
    floor.Raised s'.stack ∧ s'.tokens.ScopesHold (floor.scopes <+: ·) := by
  obtain ⟨_, _, -, hmove⟩ := step?_move h
  refine ⟨hmove.raised hfloor hs, ?_⟩
  unfold step? at h
  split at h
  · cases h
  · simp only at h
    split at h
    · cases h
    · rename_i choice found memory hnext
      refine perform?_carries (s := { s with memory := memory }) hr hfloor hs ht ?_ h
      rintro rfl
      rcases next?_source (congrArg Prod.fst hnext) with ⟨-, hclosing⟩ | ⟨_, hrule, -⟩
      · exact hclosing
      · cases hrule

/-- **The tokens for the text of a group have the scopes of its frame in front**, by induction on the
levels: the groups in the text are tokenized in turn. -/
theorem retokenize_carries {held : String → Option Grammar} (hreached : t.registry.Reached held)
    (searching : Searching σ) (levels : Nat) : (t.retokenize searching levels).Carries t := by
  induction levels with
  | zero => exact fun _ _ _ _ _ _ token ht => absurd ht List.not_mem_nil
  | succ levels ih =>
    intro stack hcapture text position firstLine memory
    have hfloor : t.closing? stack.top = none := closing?_of_captureOf hreached hcapture
    obtain ⟨hraised, htokens⟩ : stack.Raised _ ∧ TokenList.ScopesHold (stack.scopes <+: ·) _ :=
      run_invariant
        (I := fun s : LineState σ => stack.Raised s.stack ∧ s.tokens.ScopesHold (stack.scopes <+: ·))
        (fun h hstep => step?_carries ih hfloor h.1 h.2 hstep) (t.budget (.ofText text))
        (s := groupState searching stack position firstLine memory)
        ⟨.floor, startingAt_scopesHold position⟩
    intro token ht
    exact htokens.produce _ hraised.scopes token (List.mem_reverse.1 ht)

end Tokenizer

end Highlight
