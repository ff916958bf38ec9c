import Highlight.Tokenizer

/-!
# Ways to search that cannot be told apart

A memory spares the tokenizer work and must not show in what it produces. Two ways to search can be
compared when their memories stay in a relation in which each gives the same answers; the two
tokenizers then go through the same steps.

The relation is indexed by the line and by whether it counts as the first one, since that is what
results of searches depend on. The tokenizing of capture groups is compared only on the stacks that
can come up. That keeps open on which stacks the two have to agree, so the same lemmas also compare a
tokenizer with itself at different depths of recursion.

- `Searching.Simulates`: what is asked of the two ways to search.
- `Tokenizer.Asks`: the stacks with which the text of a capture group can be tokenized.
- `Retokenize.Agree`: what is asked of the tokenizing of capture groups.
- `LineState.Alike`: states that differ in their memories only, which are in the relation.
- `Tokenizer.step?_alike`, `Tokenizer.run_alike`, `Tokenizer.start_alike`: the steps of a line.
- `Tokenizer.retokenize_agree`, `Tokenizer.tokenizeText_alike`: whole texts.
- `Tokenizer.isSome_step?_run_eq`: whether another step follows.
-/

namespace Highlight

variable {σ₁ σ₂ : Type}

/-- A relation between the memories of two ways to search, on a line that counts as the first one or
not. -/
abbrev MemoryRelation (σ₁ σ₂ : Type) := IndexedText → Bool → σ₁ → σ₂ → Prop

/-- Equal answers, with memories in a relation behind them. -/
def SameAnswer {α : Type} (Q : σ₁ → σ₂ → Prop) (a : α × σ₁) (b : α × σ₂) : Prop :=
  a.1 = b.1 ∧ Q a.2 b.2

/-- Both answers, with the memories behind them. -/
theorem SameAnswer.exists_eq {α : Type} {Q : σ₁ → σ₂ → Prop} {a : α × σ₁} {b : α × σ₂}
    (h : SameAnswer Q a b) : ∃ answer m₁ m₂, a = (answer, m₁) ∧ b = (answer, m₂) ∧ Q m₁ m₂ := by
  obtain ⟨answer, m₁⟩ := a
  obtain ⟨_, m₂⟩ := b
  obtain ⟨rfl, hm⟩ := h
  exact ⟨answer, m₁, m₂, rfl, rfl, hm⟩

/-- Two optional values in a relation are both missing or both there. -/
theorem cases_rel {α β : Type} {Q : α → β → Prop} {a : Option α} {b : Option β}
    (h : Option.Rel Q a b) : a = none ∧ b = none ∨ ∃ x y, a = some x ∧ b = some y ∧ Q x y := by
  cases h with
  | none => exact .inl ⟨rfl, rfl⟩
  | some hxy => exact .inr ⟨_, _, rfl, rfl, hxy⟩

variable [Engine]

/-- Two ways to search that give the same answers for as long as their memories are in a relation,
and keep them there. -/
structure Searching.Simulates (t : Tokenizer) (s₁ : Searching σ₁) (s₂ : Searching σ₂)
    (R : MemoryRelation σ₁ σ₂) : Prop where
  enter : ∀ {line firstLine m₁ m₂} line' firstLine', R line firstLine m₁ m₂ →
    R line' firstLine' (s₁.enter firstLine' m₁) (s₂.enter firstLine' m₂)
  leave : ∀ {line firstLine b₁ b₂ line' firstLine' i₁ i₂}, R line firstLine b₁ b₂ →
    R line' firstLine' i₁ i₂ → R line firstLine (s₁.leave b₁ i₁) (s₂.leave b₂ i₂)
  noteFirstLine : ∀ {line firstLine m₁ m₂} firstLine', R line firstLine m₁ m₂ →
    R line firstLine' (s₁.noteFirstLine firstLine' m₁) (s₂.noteFirstLine firstLine' m₂)
  find : ∀ {line firstLine m₁ m₂ ref pattern place}, place ≤ line.size → R line firstLine m₁ m₂ →
    (t.rule? ref).bind Tokenizer.entryPattern? = some pattern →
    SameAnswer (R line firstLine) (s₁.find ref pattern line place firstLine m₁)
      (s₂.find ref pattern line place firstLine m₂)
  candidates : ∀ {line firstLine m₁ m₂} ref, R line firstLine m₁ m₂ →
    SameAnswer (R line firstLine) (s₁.candidates t ref m₁) (s₂.candidates t ref m₂)
  endPattern : ∀ {line firstLine m₁ m₂} text, R line firstLine m₁ m₂ →
    SameAnswer (R line firstLine) (s₁.endPattern text m₁) (s₂.endPattern text m₂)

/-- A way to search cannot be told from itself. -/
theorem Searching.Simulates.refl {σ : Type} (t : Tokenizer) (s : Searching σ) :
    s.Simulates t s fun _ _ => Eq where
  enter _ _ h := by rw [h]
  leave h h' := by rw [h, h']
  noteFirstLine _ h := by rw [h]
  find _ h _ := by rw [h]; exact ⟨rfl, rfl⟩
  candidates _ h := by rw [h]; exact ⟨rfl, rfl⟩
  endPattern _ h := by rw [h]; exact ⟨rfl, rfl⟩

/-! ## Stacks that are asked for -/

namespace Tokenizer

variable (t : Tokenizer)

/-- A rule for the text of a capture group of another rule of its grammar. -/
def CaptureOf (ref : RuleRef) : Prop :=
  ∃ owner rule, t.rule? ⟨ref.grammar, owner⟩ = some rule ∧ ref.rule ∈ rule.kind.captureRules

/-- Capture rules that some rule of a grammar has. -/
def Owned (grammar : String) (rules : CaptureRules) : Prop :=
  ∀ id, some id ∈ rules → t.CaptureOf ⟨grammar, id⟩

/-- The stacks with which the text of a capture group can be tokenized while a stack is in use: they
have more frames, within the limit, and the rule of a capture group at the top. -/
structure Asks (stack inner : Stack) : Prop where
  deeper : stack.depth < inner.depth
  bounded : inner.depth ≤ t.options.maxStackDepth.toNat
  bottom : inner.bottom.rule = stack.bottom.rule
  capture : t.CaptureOf inner.top.rule

variable {t}

/-- A stack with more frames asks for no stack that one with fewer frames does not ask for. -/
theorem Asks.of_le {stack stack' inner : Stack} (h : t.Asks stack' inner)
    (hdepth : stack.depth ≤ stack'.depth) (hbottom : stack'.bottom.rule = stack.bottom.rule) :
    t.Asks stack inner :=
  ⟨Nat.lt_of_le_of_lt hdepth h.deeper, h.bounded, h.bottom.trans hbottom, h.capture⟩

theorem Asks.of_push {stack inner : Stack} {f : Frame} (h : t.Asks (stack.push f) inner) :
    t.Asks stack inner := by
  refine h.of_le ?_ rfl
  rw [Stack.depth_push]
  exact Nat.le_succ _

theorem Asks.of_withContent {stack inner : Stack} {scopes : List Scope}
    (h : t.Asks (stack.withContent scopes) inner) : t.Asks stack inner := by
  refine h.of_le (Nat.le_of_eq (Stack.depth_mapTop stack _).symm) ?_
  unfold Stack.withContent Stack.mapTop
  split
  · rfl
  · rfl

theorem asks_captureStack {stack : Stack} {ref : RuleRef} (hdepth : stack.depth <
    t.options.maxStackDepth.toNat) (hcapture : t.CaptureOf ref) (rule : Rule) (line : List Char)
    (groups : Groups) (start : Nat) :
    t.Asks stack (captureStack stack ref rule line groups start) where
  deeper := by
    rw [captureStack, Stack.withContent, Stack.depth_mapTop, Stack.pushRegion, Stack.depth_push]
    exact Nat.lt_succ_self _
  bounded := by
    rw [captureStack, Stack.withContent, Stack.depth_mapTop, Stack.pushRegion, Stack.depth_push]
    exact hdepth
  bottom := rfl
  capture := hcapture

theorem owned_of_rule {grammar : String} {owner : RuleId} {rule : Rule}
    (hrule : t.rule? ⟨grammar, owner⟩ = some rule) {rules : CaptureRules}
    (hrules : rules.filterMap id ⊆ rule.kind.captureRules) : t.Owned grammar rules :=
  fun id hid => ⟨owner, rule, hrule, hrules (List.mem_filterMap.2 ⟨some id, hid, rfl⟩)⟩

theorem Owned.zip {grammar : String} {rules : CaptureRules} (h : t.Owned grammar rules)
    (groups : Groups) : t.Owned grammar ((rules.zip groups).map Prod.fst) := by
  intro id hid
  obtain ⟨⟨_, _⟩, hpair, rfl⟩ := List.mem_map.1 hid
  exact h id (List.of_mem_zip hpair).1

end Tokenizer

/-- Two ways to tokenize the texts of capture groups that give the same answers on certain stacks. -/
def Retokenize.Agree (P : Stack → Prop) (R : MemoryRelation σ₁ σ₂) (r₁ : Retokenize σ₁)
    (r₂ : Retokenize σ₂) : Prop :=
  ∀ stack, P stack → ∀ text position inside {line firstLine m₁ m₂}, R line firstLine m₁ m₂ →
    SameAnswer (R line firstLine) (r₁ stack text position inside m₁)
      (r₂ stack text position inside m₂)

omit [Engine] in
/-- What agrees on some stacks agrees on fewer of them. -/
theorem Retokenize.Agree.mono {P P' : Stack → Prop} {R : MemoryRelation σ₁ σ₂}
    {r₁ : Retokenize σ₁} {r₂ : Retokenize σ₂} (h : Agree P R r₁ r₂)
    (hP : ∀ stack, P' stack → P stack) : Agree P' R r₁ r₂ :=
  fun stack hstack => h stack (hP stack hstack)

/-- States that differ in their memories only, which are in a relation. -/
structure LineState.Alike (R : MemoryRelation σ₁ σ₂) (line : IndexedText) (a : LineState σ₁)
    (b : LineState σ₂) : Prop where
  stack : a.stack = b.stack
  tokens : a.tokens = b.tokens
  position : a.position = b.position
  firstLine : a.firstLine = b.firstLine
  memory : ∃ firstLine, R line firstLine a.memory b.memory

namespace Tokenizer

variable {t : Tokenizer} {s₁ : Searching σ₁} {s₂ : Searching σ₂} {R : MemoryRelation σ₁ σ₂}
  {line : IndexedText} {r₁ : Retokenize σ₁} {r₂ : Retokenize σ₂}

/-! ## The match that wins -/

section Search

variable {firstLine : Bool} {m₁ : σ₁} {m₂ : σ₂}

/-- The pattern that ends a region is the same with both memories. -/
theorem filledPattern_same (h : s₁.Simulates t s₂ R) (hm : R line firstLine m₁ m₂)
    (declared : Pattern) (filled : Option (List Char)) :
    SameAnswer (R line firstLine) (s₁.filledPattern declared filled m₁)
      (s₂.filledPattern declared filled m₂) := by
  cases filled with
  | none => exact ⟨rfl, hm⟩
  | some text => exact h.endPattern text hm

/-- The same candidate is the best with both memories. -/
theorem bestOf_same (h : s₁.Simulates t s₂ R) {place : Nat} (hplace : place ≤ line.size)
    (candidates : List RuleRef) (best : Option (Choice × Found)) (hm : R line firstLine m₁ m₂) :
    SameAnswer (R line firstLine) (t.bestOf s₁ line place firstLine candidates best m₁)
      (t.bestOf s₂ line place firstLine candidates best m₂) := by
  induction candidates generalizing best m₁ m₂ with
  | nil => exact ⟨rfl, hm⟩
  | cons ref rest ih =>
    unfold bestOf
    split
    · exact ih best hm
    · rename_i pattern hpattern
      obtain ⟨found, m₁', m₂', h₁, h₂, hm'⟩ := (h.find hplace hm hpattern).exists_eq
      rw [h₁, h₂]
      cases found with
      | none => exact ih best hm'
      | some found =>
        simp only
        split
        · exact ih best hm'
        · split
          · exact ⟨rfl, hm'⟩
          · exact ih _ hm'

/-- The same match wins with both memories. -/
theorem next?_same (h : s₁.Simulates t s₂ R) (stack : Stack) {place : Nat}
    (hplace : place ≤ line.size) (hm : R line firstLine m₁ m₂) :
    SameAnswer (R line firstLine) (t.next? s₁ stack line place firstLine m₁)
      (t.next? s₂ stack line place firstLine m₂) := by
  unfold next?
  obtain ⟨candidates, k₁, k₂, h₁, h₂, hk⟩ := (h.candidates stack.top.rule hm).exists_eq
  rw [h₁, h₂]
  simp only
  split
  · exact bestOf_same h hplace candidates none hk
  · rename_i r _
    obtain ⟨pattern, l₁, l₂, h₃, h₄, hl⟩ :=
      (filledPattern_same h hk r.closing stack.top.endPattern).exists_eq
    rw [h₃, h₄]
    simp only
    -- the end of the region is tried after the rules or before them
    split
    · obtain ⟨best, n₁, n₂, h₅, h₆, hn⟩ :=
        (bestOf_same h hplace candidates none hl).exists_eq
      rw [h₅, h₆]
      simp only
      split
      · exact ⟨rfl, hn⟩
      · split
        · exact ⟨rfl, hn⟩
        · exact ⟨rfl, hn⟩
    · split
      · exact bestOf_same h hplace candidates none hl
      · split
        · exact ⟨rfl, hl⟩
        · exact bestOf_same h hplace candidates _ hl

end Search

/-! ## Capture groups -/

section Captures

variable {firstLine : Bool} {m₁ : σ₁} {m₂ : σ₂} {stack : Stack}

/-- The text of a group is tokenized in both or in neither. -/
theorem captureTokens?_same (hr : Retokenize.Agree (t.Asks stack) R r₁ r₂) {ref : RuleRef}
    (hcapture : t.CaptureOf ref) (rule : Rule) (text : List Char) (groups : Groups) (span : Span)
    (first : Bool) (hm : R line firstLine m₁ m₂) :
    Option.Rel (SameAnswer (R line firstLine))
      (t.captureTokens? r₁ stack ref rule text groups span first m₁)
      (t.captureTokens? r₂ stack ref rule text groups span first m₂) := by
  unfold captureTokens?
  split
  · exact .none
  · split
    · rename_i hdepth
      cases Text.takeBytes? span.stop text with
      | none => exact .none
      | some part => exact .some (hr _ (asks_captureStack hdepth hcapture _ _ _ _) _ _ _ hm)
    · exact .none

/-- The groups of a match get the same tokens with both memories. -/
theorem produceGroups_same (hr : Retokenize.Agree (t.Asks stack) R r₁ r₂) (text : List Char)
    {grammar : String} (groups : Groups) (first : Bool)
    {pairs : List (Option RuleId × Option Span)} (opened : List OpenCapture) (tokens : TokenList)
    (hp : t.Owned grammar (pairs.map Prod.fst)) (hm : R line firstLine m₁ m₂) :
    SameAnswer (R line firstLine)
      (t.produceGroups r₁ stack text grammar groups first pairs opened tokens m₁)
      (t.produceGroups r₂ stack text grammar groups first pairs opened tokens m₂) := by
  induction pairs generalizing opened tokens m₁ m₂ with
  | nil => exact ⟨rfl, hm⟩
  | cons pair rest ih =>
    have hrest : t.Owned grammar (rest.map Prod.fst) :=
      fun id hid => hp id (List.mem_cons_of_mem _ hid)
    obtain ⟨id?, span?⟩ := pair
    -- a group without a rule is passed over, and so is one that took nothing
    match id?, span? with
    | none, _ => exact ih opened tokens hrest hm
    | some id, none => exact ih opened tokens hrest hm
    | some id, some span =>
      unfold produceGroups
      split
      · exact ih opened tokens hrest hm
      · split
        · exact ih opened tokens hrest hm
        · rename_i rule _
          have hcapture := captureTokens?_same hr (hp id List.mem_cons_self) rule text groups span
            first hm
          simp only
          rcases cases_rel hcapture with ⟨h₁, h₂⟩ | ⟨inner, inner', h₁, h₂, hsame⟩
          · rw [h₁, h₂]
            exact ih _ _ hrest hm
          · obtain ⟨produced, k₁, k₂, rfl, rfl, hk⟩ := hsame.exists_eq
            rw [h₁, h₂]
            exact ih _ _ hrest hk

theorem produceMatch_same (hr : Retokenize.Agree (t.Asks stack) R r₁ r₂) {grammar : String}
    {rules : CaptureRules} (howned : t.Owned grammar rules) (found : Found) (first : Bool)
    (tokens : TokenList) (hm : R line firstLine m₁ m₂) :
    SameAnswer (R line firstLine)
      (t.produceMatch r₁ stack line grammar rules found first tokens m₁)
      (t.produceMatch r₂ stack line grammar rules found first tokens m₂) := by
  obtain ⟨htokens, hk⟩ := produceGroups_same hr line.text found.groups first [] tokens
    (howned.zip found.groups) hm
  exact ⟨congrArg (fun produced : TokenList => produced.produce found.stop stack.scopes) htokens, hk⟩

end Captures

/-! ## Steps -/

section Steps

variable {a : LineState σ₁} {b : LineState σ₂} {found : Found}

omit [Engine] in
theorem moveOn_alike (h : a.Alike R line b) (found : Found) (skip : Bool) :
    (moveOn line a found skip).Alike R line (moveOn line b found skip) := by
  obtain ⟨stack, tokens, position, firstLine, m₁⟩ := a
  obtain ⟨_, _, _, _, m₂⟩ := b
  obtain ⟨rfl, rfl, rfl, rfl, hm⟩ := h
  unfold moveOn
  simp only
  split
  · exact ⟨rfl, rfl, rfl, rfl, hm⟩
  · split
    · exact ⟨rfl, rfl, rfl, rfl, hm⟩
    · exact ⟨rfl, rfl, rfl, rfl, hm⟩

/-- The rule whose region a pattern ends has the captures of that pattern. -/
theorem owned_closing (stack : Stack) :
    t.Owned stack.top.rule.grammar (match t.closing? stack.top with
      | some r => r.closingCaptures
      | none => []) := by
  split
  · rename_i r hclosing
    unfold closing? at hclosing
    split at hclosing
    · rename_i r' hkind
      cases hclosing
      obtain ⟨rule, hrule, hr⟩ := Option.map_eq_some_iff.1 hkind
      refine owned_of_rule hrule fun id hid => ?_
      rw [hr]
      exact List.mem_append_right _ hid
    · cases hclosing
  · exact nofun

/-- A region ends alike. -/
theorem close_alike (hr : Retokenize.Agree (t.Asks a.stack) R r₁ r₂) (h : a.Alike R line b) :
    (t.close r₁ line a found).Alike R line (t.close r₂ line b found) := by
  obtain ⟨stack, tokens, position, firstLine, m₁⟩ := a
  obtain ⟨_, _, _, _, m₂⟩ := b
  obtain ⟨rfl, rfl, rfl, rfl, first, hm⟩ := h
  obtain ⟨htokens, hk⟩ := produceMatch_same
    (hr.mono fun _ hs => Asks.of_withContent hs)
    (owned_closing stack) found firstLine (tokens.produce found.start stack.scopes) hm
  apply moveOn_alike
  exact ⟨rfl, htokens, rfl, rfl, first, hk⟩

/-- A match without a region is taken alike. -/
theorem takeMatch_alike (hr : Retokenize.Agree (t.Asks a.stack) R r₁ r₂) (h : a.Alike R line b)
    (ref : RuleRef) (rule : Rule) {rules : CaptureRules} (howned : t.Owned ref.grammar rules) :
    (t.takeMatch r₁ line a ref rule rules found).Alike R line
      (t.takeMatch r₂ line b ref rule rules found) := by
  obtain ⟨stack, tokens, position, firstLine, m₁⟩ := a
  obtain ⟨_, _, _, _, m₂⟩ := b
  obtain ⟨rfl, rfl, rfl, rfl, first, hm⟩ := h
  obtain ⟨htokens, hk⟩ := produceMatch_same (hr.mono fun _ hs => Asks.of_push hs) howned found
    firstLine (tokens.produce found.start stack.scopes) hm
  apply moveOn_alike
  exact ⟨rfl, htokens, rfl, rfl, first, hk⟩

/-- A region begins alike. -/
theorem enter_alike (hr : Retokenize.Agree (t.Asks a.stack) R r₁ r₂) (h : a.Alike R line b)
    (ref : RuleRef) (rule : Rule) {rules : CaptureRules} (howned : t.Owned ref.grammar rules)
    (ending : Pattern) :
    (t.enter r₁ line a ref rule rules ending found).Alike R line
      (t.enter r₂ line b ref rule rules ending found) := by
  have htake : (t.takeMatch r₁ line a ref rule rules found).Alike R line
      (t.takeMatch r₂ line b ref rule rules found) := takeMatch_alike hr h ref rule howned
  obtain ⟨stack, tokens, position, firstLine, m₁⟩ := a
  obtain ⟨_, _, _, _, m₂⟩ := b
  obtain ⟨rfl, rfl, rfl, rfl, first, hm⟩ := h
  unfold enter
  simp only
  split
  · apply moveOn_alike
    exact ⟨rfl, rfl, rfl, rfl, first, hm⟩
  · split
    · exact htake
    · obtain ⟨htokens, hk⟩ := produceMatch_same (hr.mono fun _ hs => Asks.of_push hs) howned found
        firstLine (tokens.produce found.start stack.scopes) hm
      apply moveOn_alike
      exact ⟨rfl, htokens, rfl, rfl, first, hk⟩

/-- Whatever wins, both states go on alike, or neither does. -/
theorem perform?_alike (hr : Retokenize.Agree (t.Asks a.stack) R r₁ r₂) (h : a.Alike R line b)
    (choice : Choice) :
    Option.Rel (LineState.Alike R line) (t.perform? r₁ line a found choice)
      (t.perform? r₂ line b found choice) := by
  unfold perform?
  split
  · exact .some (close_alike hr h)
  · split
    · exact .none
    · rename_i rule hrule
      split
      · rename_i m hkind
        refine .some (takeMatch_alike hr h _ rule (owned_of_rule hrule fun id hid => ?_))
        rw [hkind]
        exact hid
      · rename_i r hkind
        refine .some (enter_alike hr h _ rule (owned_of_rule hrule fun id hid => ?_) _)
        rw [hkind]
        exact List.mem_append_left _ hid
      · rename_i w hkind
        refine .some (enter_alike hr h _ rule (owned_of_rule hrule fun id hid => ?_) _)
        rw [hkind]
        exact List.mem_append_left _ hid
      · exact .none

/-- Alike states take alike steps. -/
theorem step?_alike (hs : s₁.Simulates t s₂ R) (hr : Retokenize.Agree (t.Asks a.stack) R r₁ r₂)
    (h : a.Alike R line b) :
    Option.Rel (LineState.Alike R line) (t.step? s₁ r₁ line a) (t.step? s₂ r₂ line b) := by
  obtain ⟨stack, tokens, position, firstLine, m₁⟩ := a
  obtain ⟨_, _, _, _, m₂⟩ := b
  obtain ⟨rfl, rfl, rfl, rfl, first, hm⟩ := h
  unfold step?
  simp only
  split
  · exact .none
  · rename_i place hplace
    obtain ⟨next, k₁, k₂, h₁, h₂, hk⟩ := (next?_same hs stack
      (IndexedText.le_size_of_place? hplace) (hs.noteFirstLine firstLine hm)).exists_eq
    rw [h₁, h₂]
    rcases next with _ | ⟨choice, found⟩
    · exact .none
    · exact perform?_alike
        (a := ⟨stack, tokens, position, firstLine, k₁⟩)
        (b := ⟨stack, tokens, position, firstLine, k₂⟩) hr ⟨rfl, rfl, rfl, rfl, firstLine, hk⟩ choice

/-- Alike states stay alike for any number of steps, given an invariant of the first one's stack by
which the tokenizing of capture groups agrees on what comes up. -/
theorem run_alike (hs : s₁.Simulates t s₂ R) {P I : Stack → Prop} (hr : Retokenize.Agree P R r₁ r₂)
    (hP : ∀ stack inner, I stack → t.Asks stack inner → P inner)
    (hI : ∀ {a a' : LineState σ₁}, I a.stack → t.step? s₁ r₁ line a = some a' → I a'.stack)
    (steps : Nat) (hstack : I a.stack) (h : a.Alike R line b) :
    (t.run s₁ r₁ line steps a).Alike R line (t.run s₂ r₂ line steps b) := by
  induction steps generalizing a b with
  | zero => exact h
  | succ steps ih =>
    have hstep := step?_alike hs (hr.mono (hP a.stack · hstack)) h
    -- either both go on or both end
    unfold run
    rcases cases_rel hstep with ⟨h₁, h₂⟩ | ⟨a', b', h₁, h₂, hnext⟩
    · rw [h₁, h₂]
      exact h
    · rw [h₁, h₂]
      exact ih (hI hstack h₁) hnext

/-- The conditions of open regions: what they ask for is asked for by the frames kept so far. -/
theorem conditions_alike (hs : s₁.Simulates t s₂ R)
    (hr : Retokenize.Agree (t.Asks a.stack) R r₁ r₂) (frames : List Frame) (h : a.Alike R line b) :
    (t.conditions s₁ r₁ line frames a).Alike R line (t.conditions s₂ r₂ line frames b) := by
  induction frames generalizing a b with
  | nil => exact h
  | cons f rest ih =>
    obtain ⟨stack, tokens, position, firstLine, m₁⟩ := a
    obtain ⟨_, _, _, _, m₂⟩ := b
    obtain ⟨rfl, rfl, rfl, rfl, first, hm⟩ := h
    -- what is asked for with more frames is asked for with fewer
    have hpushed : Retokenize.Agree (t.Asks (stack.push f)) R r₁ r₂ :=
      hr.mono fun _ hs => Asks.of_push hs
    unfold conditions
    split
    · exact ih hpushed ⟨rfl, rfl, rfl, rfl, first, hm⟩
    · rename_i w hguard
      have howned : t.Owned f.rule.grammar w.conditionCaptures := by
        unfold guard? at hguard
        split at hguard
        · rename_i w' hkind
          cases hguard
          obtain ⟨rule, hrule, hw⟩ := Option.map_eq_some_iff.1 hkind
          refine owned_of_rule hrule fun id hid => ?_
          rw [hw]
          exact List.mem_append_right _ hid
        · cases hguard
      obtain ⟨condition, k₁, k₂, h₁, h₂, hk⟩ :=
        (filledPattern_same hs hm w.condition f.endPattern).exists_eq
      simp only
      rw [h₁, h₂]
      simp only
      split
      · exact ⟨rfl, rfl, rfl, rfl, first, hk⟩
      · rename_i found _
        obtain ⟨htokens, hl⟩ := produceMatch_same hpushed howned found firstLine
          (tokens.produce position f.contentScopes) hk
        refine ih ?_ ?_
        · rw [stack_moveOn]
          exact hpushed
        · apply moveOn_alike
          exact ⟨rfl, htokens, rfl, rfl, first, hl⟩

/-- The states in front of the first step are alike. -/
theorem start_alike (hs : s₁.Simulates t s₂ R) (stack : Stack)
    (hr : Retokenize.Agree (t.Asks { stack with above := [] }) R r₁ r₂) (before : IndexedText)
    (firstLine : Bool) {m₁ : σ₁} {m₂ : σ₂} (hm : R before firstLine m₁ m₂) :
    (t.start s₁ r₁ line stack m₁).Alike R line (t.start s₂ r₂ line stack m₂) := by
  apply conditions_alike hs hr
  exact ⟨rfl, rfl, rfl, rfl, stack.firstLine, hs.enter line stack.firstLine hm⟩

omit [Engine] in
theorem finish_alike (h : a.Alike R line b) : (finish line a).Alike R line (finish line b) := by
  obtain ⟨stack, tokens, position, firstLine, m₁⟩ := a
  obtain ⟨_, _, _, _, m₂⟩ := b
  obtain ⟨rfl, rfl, rfl, rfl, hm⟩ := h
  exact ⟨rfl, rfl, rfl, rfl, hm⟩

end Steps

/-! ## Whole texts -/

/-- The texts of capture groups are tokenized in the same way on all stacks. -/
theorem retokenize_agree (hs : s₁.Simulates t s₂ R) (levels : Nat) :
    Retokenize.Agree (fun _ => True) R (t.retokenize s₁ levels) (t.retokenize s₂ levels) := by
  induction levels with
  | zero =>
    intro stack _ text position inside line firstLine m₁ m₂ hm
    exact ⟨rfl, hm⟩
  | succ levels ih =>
    intro stack _ text position inside line firstLine m₁ m₂ hm
    -- the levels below agree on all stacks, so nothing has to be known of those that come up
    have hrun := run_alike hs (I := fun _ => True) ih (fun _ _ _ _ => trivial)
      (fun _ _ => trivial) (t.budget (.ofText text)) trivial
      (a := ⟨stack, .startingAt position, position, inside, s₁.enter inside m₁⟩)
      (b := ⟨stack, .startingAt position, position, inside, s₂.enter inside m₂⟩)
      ⟨rfl, rfl, rfl, rfl, inside, hs.enter (.ofText text) inside hm⟩
    obtain ⟨_, hinner⟩ := hrun.memory
    exact ⟨congrArg TokenList.toList (finish_alike hrun).tokens, hs.leave hm hinner⟩

/-- The steps of a line, when capture groups are tokenized in the same two ways. -/
theorem run_retokenize_alike (hs : s₁.Simulates t s₂ R) (levels steps : Nat) {line : IndexedText}
    {a : LineState σ₁} {b : LineState σ₂} (h : a.Alike R line b) :
    (t.run s₁ (t.retokenize s₁ levels) line steps a).Alike R line
      (t.run s₂ (t.retokenize s₂ levels) line steps b) :=
  run_alike hs (I := fun _ => True) (retokenize_agree hs levels) (fun _ _ _ _ => trivial)
    (fun _ _ => trivial) steps trivial h

theorem start_retokenize_alike (hs : s₁.Simulates t s₂ R) (levels : Nat) (line : IndexedText)
    (stack : Stack) {before : IndexedText} {firstLine : Bool} {m₁ : σ₁} {m₂ : σ₂}
    (hm : R before firstLine m₁ m₂) :
    (t.start s₁ (t.retokenize s₁ levels) line stack m₁).Alike R line
      (t.start s₂ (t.retokenize s₂ levels) line stack m₂) :=
  start_alike hs stack ((retokenize_agree hs levels).mono fun _ _ => trivial) before firstLine hm

/-- **Ways to search whose memories stay in a relation produce the same line.** -/
theorem tokenizeText_alike (hs : s₁.Simulates t s₂ R) (text : List Char) (stack : Stack)
    {before : IndexedText} {firstLine : Bool} {m₁ : σ₁} {m₂ : σ₂} (hm : R before firstLine m₁ m₂) :
    (t.tokenizeText s₁ text stack m₁).Alike R (.ofText text)
      (t.tokenizeText s₂ text stack m₂) := by
  apply finish_alike
  apply run_retokenize_alike hs t.options.maxStackDepth.toNat
  exact start_retokenize_alike hs t.options.maxStackDepth.toNat (.ofText text) stack hm

/-- After any number of steps there is another one with both ways to search or with none. -/
theorem isSome_step?_run_eq (hs : s₁.Simulates t s₂ R) (levels steps : Nat) (line : IndexedText)
    (stack : Stack) {before : IndexedText} {firstLine : Bool} {m₁ : σ₁} {m₂ : σ₂}
    (hm : R before firstLine m₁ m₂) :
    let r₁ := t.retokenize s₁ levels
    let r₂ := t.retokenize s₂ levels
    (t.step? s₁ r₁ line (t.run s₁ r₁ line steps (t.start s₁ r₁ line stack m₁))).isSome =
      (t.step? s₂ r₂ line (t.run s₂ r₂ line steps (t.start s₂ r₂ line stack m₂))).isSome := by
  intro r₁ r₂
  have hrun := run_retokenize_alike hs levels steps (start_retokenize_alike hs levels line stack hm)
  have hstep := step?_alike hs ((retokenize_agree hs levels).mono fun _ _ => trivial) hrun
  rcases cases_rel hstep with ⟨h₁, h₂⟩ | ⟨_, _, h₁, h₂, -⟩
  · rw [h₁, h₂]
    rfl
  · rw [h₁, h₂]
    rfl

end Tokenizer

end Highlight
