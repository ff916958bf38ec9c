import Highlight.Pattern.Literal
import Highlight.Proofs.Links
import Highlight.Proofs.Matches
import Highlight.Proofs.Steps
import Highlight.Proofs.Tiling

/-!
# The tokens of a line cover the line

Tokens come from the gaps between matches, from matches, from both ends of regions, from conditions
and from capture groups, whose text can be tokenized in turn. Two things are carried through all of
it: the tokens produced so far tile the line from where it was begun, and the memory holds matches
within the line only. A group may lie anywhere on the line, also in front of what has been produced;
nothing is lost by that, because producing up to a boundary keeps a tiling whatever the boundary.

- `Retokenize.Sound`: what is asked of the tokenizing of capture groups.
- `Tokenizer.produceGroups_covers`, `Tokenizer.step?_covers`, `Tokenizer.conditions_covers`: each
  part of the work keeps both.
- `Tokenizer.retokenize_tiles`: the text of a capture group.
- `Tokenizer.tokens_partition_line`: the tokens of a line.
-/

namespace Highlight

open Text (IsBoundary)

/-- The tokens for the text of a capture group end at boundaries of that text, and the memory behind
them holds what the one in front of them did. -/
structure Retokenize.Sound {σ : Type} (Holds : IndexedText → σ → Prop) (r : Retokenize σ) :
    Prop where
  stops : ∀ stack text position firstLine memory,
    ∀ token ∈ (r stack text position firstLine memory).1, IsBoundary text token.span.stop
  memory : ∀ {line before} stack text position firstLine, Holds line before →
    Holds line (r stack text position firstLine before).2

namespace OpenCapture

variable {text : List Char} {start : Nat}

/-- All open groups end at boundaries of the text. -/
def Within (text : List Char) (opened : List OpenCapture) : Prop :=
  ∀ c ∈ opened, IsBoundary text c.stop

theorem closeUpTo_covers (offset : Nat) {opened : List OpenCapture} {tokens : TokenList}
    (ho : Within text opened) (ht : tokens.TilesFrom text start) :
    Within text (closeUpTo offset opened tokens).1 ∧
      (closeUpTo offset opened tokens).2.TilesFrom text start := by
  induction opened generalizing tokens with
  | nil => exact ⟨ho, ht⟩
  | cons c rest ih =>
    unfold closeUpTo
    split
    · exact ih (fun d hd => ho d (List.mem_cons_of_mem _ hd))
        (ht.produce (ho c List.mem_cons_self) _)
    · exact ⟨ho, ht⟩

theorem closeAll_covers {opened : List OpenCapture} {tokens : TokenList}
    (ho : Within text opened) (ht : tokens.TilesFrom text start) :
    (closeAll opened tokens).TilesFrom text start := by
  induction opened generalizing tokens with
  | nil => exact ht
  | cons c rest ih =>
    exact ih (fun d hd => ho d (List.mem_cons_of_mem _ hd))
      (ht.produce (ho c List.mem_cons_self) _)

end OpenCapture

section

variable [Engine]

namespace Tokenizer

variable {σ : Type} {searching : Searching σ} {Holds : IndexedText → σ → Prop}
  {retok : Retokenize σ} {line : IndexedText} {start : Nat}

/-- The tokens tile the line from an offset on, and the memory holds what it should. -/
def Covers (Holds : IndexedText → σ → Prop) (line : IndexedText) (start : Nat)
    (result : TokenList × σ) : Prop :=
  result.1.TilesFrom line.text start ∧ Holds line result.2

/-! ## Capture groups -/

/-- The tokens for the text of a group end at boundaries of the line, of which that text is the
first part. -/
theorem captureTokens?_within (t : Tokenizer) (hr : retok.Sound Holds) {stack : Stack}
    {ref : RuleRef} {rule : Rule} {groups : Groups} {span : Span} {firstLine : Bool}
    {memory memory' : σ} {inner : List Token}
    (h : t.captureTokens? retok stack ref rule line.text groups span firstLine memory
      = some (inner, memory')) (hm : Holds line memory) :
    (∀ token ∈ inner, IsBoundary line.text token.span.stop) ∧ Holds line memory' := by
  unfold captureTokens? at h
  split at h
  · cases h
  · split at h
    · obtain ⟨text, htext, heq⟩ := Option.map_eq_some_iff.1 h
      obtain ⟨after, hline, -⟩ := Text.takeBytes?_eq_some_iff.1 htext
      have hinner : inner = _ := (congrArg Prod.fst heq).symm
      have hmemory : memory' = _ := (congrArg Prod.snd heq).symm
      subst hinner hmemory
      refine ⟨fun token ht => ?_, hr.memory _ _ _ _ hm⟩
      -- a boundary of the first part of a line is one of the line
      rw [hline]
      exact (hr.stops _ _ _ _ _ token ht).append after
    · cases h

theorem produceGroups_covers (t : Tokenizer) (hr : retok.Sound Holds) (stack : Stack)
    (grammar : String) (groups : Groups) (firstLine : Bool)
    {pairs : List (Option RuleId × Option Span)} {opened : List OpenCapture} {tokens : TokenList}
    {memory : σ}
    (hp : ∀ span, some span ∈ pairs.map Prod.snd →
      IsBoundary line.text span.start ∧ IsBoundary line.text span.stop)
    (ho : OpenCapture.Within line.text opened) (hc : Covers Holds line start (tokens, memory)) :
    Covers Holds line start (t.produceGroups retok stack line.text grammar groups firstLine pairs
      opened tokens memory) := by
  induction pairs generalizing opened tokens memory with
  | nil => exact ⟨OpenCapture.closeAll_covers ho hc.1, hc.2⟩
  | cons pair rest ih =>
    have hrest : ∀ span, some span ∈ rest.map Prod.snd →
        IsBoundary line.text span.start ∧ IsBoundary line.text span.stop :=
      fun span hspan => hp span (List.mem_cons_of_mem _ hspan)
    obtain ⟨id?, span?⟩ := pair
    match id?, span? with
    | none, _ => exact ih hrest ho hc
    | some id, none => exact ih hrest ho hc
    | some id, some span =>
      have hspan := hp span List.mem_cons_self
      unfold produceGroups
      split
      · exact ih hrest ho hc
      · split
        · exact ih hrest ho hc
        · rename_i rule _
          -- groups that end in front of this one are closed, then the text in front of it is taken
          obtain ⟨ho', ht'⟩ := OpenCapture.closeUpTo_covers span.start ho hc.1
          have ht := ht'.produce hspan.1
            (OpenCapture.scopesOf stack.scopes (OpenCapture.closeUpTo span.start opened tokens).1)
          simp only
          split
          · rename_i inner memory' hinner
            obtain ⟨hstops, hm⟩ := captureTokens?_within t hr hinner hc.2
            exact ih hrest ho' ⟨ht.produceAll hstops, hm⟩
          · refine ih hrest ?_ ⟨ht, hc.2⟩
            split
            · exact ho'
            · intro c hcm
              rcases List.mem_cons.1 hcm with rfl | hcm
              · exact hspan.2
              · exact ho' c hcm

/-- The tokens of a match: up to its start, for its groups, and up to its end. -/
theorem produceMatch_covers (t : Tokenizer) (hr : retok.Sound Holds) (stack : Stack)
    (grammar : String) (rules : CaptureRules) {found : Found} (hf : found.Within line.text)
    (firstLine : Bool) {tokens : TokenList} {memory : σ}
    (hc : Covers Holds line start (tokens, memory)) :
    Covers Holds line start
      (t.produceMatch retok stack line grammar rules found firstLine tokens memory) := by
  have hpairs : ∀ span, some span ∈ (rules.zip found.groups).map Prod.snd →
      IsBoundary line.text span.start ∧ IsBoundary line.text span.stop := by
    intro span hspan
    obtain ⟨⟨_, _⟩, hpair, rfl⟩ := List.mem_map.1 hspan
    exact hf.groups span (List.of_mem_zip hpair).2
  have hopened : OpenCapture.Within line.text [] := nofun
  have hgroups :=
    produceGroups_covers t hr stack grammar found.groups firstLine hpairs hopened hc
  exact ⟨hgroups.1.produce hf.stop _, hgroups.2⟩

/-! ## Steps -/

/-- The tokens of a state tile the line, and its memory holds what it should. -/
def StateCovers (Holds : IndexedText → σ → Prop) (line : IndexedText) (start : Nat)
    (s : LineState σ) : Prop :=
  Covers Holds line start (s.tokens, s.memory)

omit [Engine] in
theorem moveOn_covers {s : LineState σ} (h : StateCovers Holds line start s) (found : Found)
    (skip : Bool) : StateCovers Holds line start (moveOn line s found skip) := by
  unfold moveOn
  split
  · exact h
  · split
    · exact h
    · exact h

variable {s : LineState σ} {found : Found}

theorem close_covers (t : Tokenizer) (hr : retok.Sound Holds)
    (h : StateCovers Holds line start s) (hf : found.Within line.text) :
    StateCovers Holds line start (t.close retok line s found) := by
  apply moveOn_covers
  exact produceMatch_covers t hr _ _ _ hf _ ⟨h.1.produce hf.start _, h.2⟩

theorem takeMatch_covers (t : Tokenizer) (hr : retok.Sound Holds) (ref : RuleRef) (rule : Rule)
    (rules : CaptureRules) (h : StateCovers Holds line start s) (hf : found.Within line.text) :
    StateCovers Holds line start (t.takeMatch retok line s ref rule rules found) := by
  apply moveOn_covers
  exact produceMatch_covers t hr _ _ _ hf _ ⟨h.1.produce hf.start _, h.2⟩

theorem enter_covers (t : Tokenizer) (hr : retok.Sound Holds) (ref : RuleRef) (rule : Rule)
    (rules : CaptureRules) (ending : Pattern) (h : StateCovers Holds line start s)
    (hf : found.Within line.text) :
    StateCovers Holds line start (t.enter retok line s ref rule rules ending found) := by
  unfold enter
  simp only
  split
  · apply moveOn_covers
    exact ⟨h.1.produce hf.start _, h.2⟩
  · split
    · exact takeMatch_covers t hr ref rule rules h hf
    · apply moveOn_covers
      exact produceMatch_covers t hr _ _ _ hf _ ⟨h.1.produce hf.start _, h.2⟩

theorem perform?_covers (t : Tokenizer) (hr : retok.Sound Holds) {s' : LineState σ}
    {choice : Choice} (h : StateCovers Holds line start s) (hf : found.Within line.text)
    (hs : t.perform? retok line s found choice = some s') : StateCovers Holds line start s' := by
  unfold perform? at hs
  split at hs
  · cases hs
    exact close_covers t hr h hf
  · split at hs
    · cases hs
    · split at hs
      · cases hs
        exact takeMatch_covers t hr _ _ _ h hf
      · cases hs
        exact enter_covers t hr _ _ _ _ h hf
      · cases hs
        exact enter_covers t hr _ _ _ _ h hf
      · cases hs

/-- A step keeps the tiling. -/
theorem step?_covers (t : Tokenizer) (hs : searching.Sound Holds) (hr : retok.Sound Holds)
    {s' : LineState σ} (h : StateCovers Holds line start s)
    (hstep : t.step? searching retok line s = some s') : StateCovers Holds line start s' := by
  unfold step? at hstep
  split at hstep
  · cases hstep
  · rename_i place _
    have hsight := next?_within t hs s.stack place s.firstLine
      (hs.noteFirstLine s.firstLine h.2)
    simp only at hstep hsight
    split at hstep
    · cases hstep
    · rename_i choice found memory hnext
      rw [hnext] at hsight
      exact perform?_covers t hr (s := { s with memory := memory }) ⟨h.1, hsight.2⟩
        (hsight.1 choice found rfl) hstep

/-- However many steps are done, the tokens tile the line. -/
theorem run_covers (t : Tokenizer) (hs : searching.Sound Holds) (hr : retok.Sound Holds)
    (steps : Nat) (h : StateCovers Holds line start s) :
    StateCovers Holds line start (t.run searching retok line steps s) :=
  run_invariant (fun h hstep => step?_covers t hs hr h hstep) steps h

/-- The conditions of open regions keep the tiling. The place stays a boundary: it is the start of
the line or the end of a match. -/
theorem conditions_covers (t : Tokenizer) (hs : searching.Sound Holds) (hr : retok.Sound Holds)
    {frames : List Frame} (h : StateCovers Holds line start s)
    (hp : IsBoundary line.text s.position) :
    StateCovers Holds line start (t.conditions searching retok line frames s) := by
  induction frames generalizing s with
  | nil => exact h
  | cons f rest ih =>
    unfold conditions
    split
    · exact ih h hp
    · rename_i w _
      split
      rename_i condition memory hc
      have hm : Holds line memory := by
        have hkept := hs.filledPattern w.condition f.endPattern h.2
        rwa [hc] at hkept
      split
      · exact ⟨h.1, hm⟩
      · rename_i found hmeets
        have hf : found.Within line.text := by
          unfold meets? at hmeets
          split at hmeets
          · rename_i found' hfound
            split at hmeets
            · cases hmeets
              exact Pattern.findAt?_within hfound
            · cases hmeets
          · cases hmeets
        refine ih ?_ ?_
        · apply moveOn_covers
          exact produceMatch_covers t hr _ _ _ hf _ ⟨h.1.produce hp _, hm⟩
        · unfold moveOn
          split
          · exact hf.stop
          · exact hp

/-! ## Whole texts -/

omit [Engine] in
/-- After the last token the tokens reach the end of the text. -/
theorem finish_covers (h : StateCovers Holds line start s) :
    (finish line s).tokens.TilesFrom line.text start ∧
      (finish line s).tokens.position = max start (Text.byteLength line.text) := by
  have ht : s.tokens.TilesFrom line.text start := h.1
  -- what the steps produced ends where they began or within the text
  have hle : start ≤ s.tokens.position := ht.le
  have hstop : s.tokens.position ≤ max start (Text.byteLength line.text) := ht.stop_le
  unfold finish
  rw [IndexedText.byteLength_eq]
  refine ⟨ht.produce (Text.isBoundary_byteLength line.text) _, ?_⟩
  rw [TokenList.position_produce]
  omega

/-- The state behind the steps for the text of a capture group. -/
theorem retokenize_covers (t : Tokenizer) (hs : searching.Sound Holds) (hr : retok.Sound Holds)
    (stack : Stack) (text : List Char) (position : Nat) (firstLine : Bool) (memory : σ)
    (steps : Nat) :
    StateCovers Holds (.ofText text) position (t.run searching retok (.ofText text) steps
      ⟨stack, .startingAt position, position, firstLine, searching.enter firstLine memory⟩) :=
  run_covers t hs hr steps ⟨TokenList.tilesFrom_startingAt text position, hs.enter _ _ _⟩

theorem retokenize_sound (t : Tokenizer) (hs : searching.Sound Holds) (levels : Nat) :
    (t.retokenize searching levels).Sound Holds := by
  induction levels with
  | zero => exact ⟨nofun, fun _ _ _ _ hm => hm⟩
  | succ levels ih =>
    refine ⟨fun stack text position firstLine memory token ht => ?_,
      fun _ _ _ _ hm => hs.leave _ hm⟩
    have hrun := retokenize_covers t hs ih stack text position firstLine memory
      (t.budget (.ofText text))
    exact (finish_covers hrun).1.isBoundary_of_mem ht

/-- The tokens for the text of a capture group tile it from where the group begins. -/
theorem retokenize_tiles (t : Tokenizer) (hs : searching.Sound Holds) (levels : Nat)
    (stack : Stack) (text : List Char) (position : Nat) (firstLine : Bool) (memory : σ) :
    Tiles text position (max position (Text.byteLength text))
      (t.retokenize searching (levels + 1) stack text position firstLine memory).1 := by
  have hrun := retokenize_covers t hs (retokenize_sound t hs levels) stack text position firstLine
    memory (t.budget (.ofText text))
  obtain ⟨htiles, hpos⟩ := finish_covers hrun
  exact hpos ▸ htiles

/-- The tokens of a line and of what was added behind it tile both together. -/
theorem tokenizeText_covers (t : Tokenizer) (hs : searching.Sound Holds) (text : List Char)
    (stack : Stack) (memory : σ) :
    (t.tokenizeText searching text stack memory).tokens.TilesFrom text 0 ∧
      (t.tokenizeText searching text stack memory).tokens.position = Text.byteLength text := by
  have hr := retokenize_sound t hs t.options.maxStackDepth.toNat
  have hstart : StateCovers Holds (.ofText text) 0
      (t.start searching (t.retokenize searching t.options.maxStackDepth.toNat) (.ofText text) stack
        memory) :=
    conditions_covers t hs hr ⟨TokenList.tilesFrom_startingAt text 0, hs.enter _ _ _⟩
      (Text.isBoundary_zero text)
  obtain ⟨htiles, hpos⟩ := finish_covers (run_covers t hs hr (t.budget (.ofText text)) hstart)
  rw [Nat.zero_max] at hpos
  exact ⟨htiles, hpos⟩

/-- What is tokenized again is the line up to the end of the group. As long as the levels make up for
the frames that are missing to the limit, they do not run out in front of it. -/
theorem captureTokens?_tiles (t : Tokenizer) (hs : searching.Sound Holds) {levels : Nat}
    {stack : Stack} (hlevels : t.options.maxStackDepth.toNat ≤ levels + stack.depth)
    {ref : RuleRef} {rule : Rule} {text : List Char} {groups : Groups} {span : Span}
    {firstLine : Bool} {memory : σ} {inner : List Token × σ}
    (h : t.captureTokens? (t.retokenize searching levels) stack ref rule text groups span
      firstLine memory = some inner) :
    Tiles text span.start (max span.start span.stop) inner.1 := by
  unfold captureTokens? at h
  split at h
  · cases h
  · split at h
    · rename_i hdepth
      -- there is room for another frame, so there is another level
      obtain ⟨below, rfl⟩ : ∃ below, levels = below + 1 := ⟨levels - 1, by omega⟩
      obtain ⟨part, hpart, rfl⟩ := Option.map_eq_some_iff.1 h
      obtain ⟨after, rfl, hlen⟩ := Text.takeBytes?_eq_some_iff.1 hpart
      have htiles := retokenize_tiles t hs below
        (captureStack stack ref rule (part ++ after) groups span.start) part span.start
        (firstLine && span.start == 0) memory
      rw [hlen] at htiles
      exact htiles.append_text after
    · cases h

/-- **The tokens of a line partition it**, whatever the grammars, the limits, the line and the stack
are, and whatever has been worked out before: none is empty, the first begins at the start of the
line, each begins where the one before it ends, the last ends at the end of the line, and all ends
are boundaries of characters. In particular the empty line has no tokens. When the text of a capture
group is tokenized again, at whatever depth, the tokens for it partition the span of the group in the
same way. -/
theorem tokens_partition_line (t : Tokenizer) (line : List Char) (stack : Stack)
    (tables : Tables) :
    Tiles line 0 (Text.byteLength line) (t.tokenizeLineWith line stack tables).1.1 ∧
    (t.tokenizeLineWith [] stack tables).1.1 = [] ∧
    ∀ levels (inside : Stack), t.options.maxStackDepth.toNat ≤ levels + inside.depth →
      ∀ ref rule text groups (span : Span) firstLine memory inner,
      t.captureTokens? (t.retokenize Searching.remembering.keeping levels) inside ref rule text
        groups span firstLine memory = some inner →
      Tiles text span.start (max span.start span.stop) inner.1 := by
  have hs := Searching.sound_remembering.keeping
  have hline : ∀ line : List Char,
      Tiles line 0 (Text.byteLength line) (t.tokenizeLineWith line stack tables).1.1 := by
    intro line
    obtain ⟨htiles, hpos⟩ := tokenizeText_covers t hs (line ++ ['\n']) stack (.empty, tables)
    -- the line break behind the line is cut off again
    refine htiles.clip ?_
    rw [hpos, Text.byteLength_append]
    exact Nat.le_add_right _ _
  refine ⟨hline line, (hline []).eq_nil, ?_⟩
  intro levels inside hlevels ref rule text groups span firstLine memory inner h
  exact captureTokens?_tiles t hs hlevels h

end Tokenizer

end

namespace Tokenizer

/-- A group with patterns is tokenized again, and the first of its two characters is found by a rule. -/
theorem tokens_partition_group :
    let x : Part := .name { chars := ['x'] }
    let a : Part := .name { chars := ['a'] }
    let word : Part := .name { chars := ['w', 'o', 'r', 'd'] }
    let inner : RuleDefinition := { keys := { name := some "word.x", matchText := some "b" } }
    let single : RuleDefinition :=
      { keys := { matchText := some "a(bc)" },
        captures := some [("1", { patterns := some [inner] })] }
    let d : GrammarDefinition := { scopeName := some "x.a", patterns := [single] }
    let scope : Scope := ⟨[x, a], by decide⟩
    let t : Tokenizer := ⟨.single (.ofScoped d scope) "x.a", "x.a", scope, .standard⟩
    let line := IndexedText.ofText ['a', 'b', 'c', '\n']
    let found : Found := ⟨0, 3, [some ⟨0, 3⟩, some ⟨1, 3⟩]⟩
    let again := t.retokenize Searching.remembering.keeping 255
    (t.next? Searching.anew t.initialStack line 0 true ()).1 = some (.rule ⟨"x.a", 1⟩, found) ∧
      t.options.maxStackDepth.toNat ≤ 255 + t.initialStack.depth ∧
      ∃ group after, t.rule? ⟨"x.a", 2⟩ = some group ∧
        t.captureTokens? again t.initialStack ⟨"x.a", 2⟩ group line.text found.groups ⟨1, 3⟩ true
          (.empty, .empty) = some after ∧
        after.1 = [⟨⟨1, 2⟩, [scope, ⟨[word, x], by decide⟩]⟩, ⟨⟨2, 3⟩, [scope]⟩] ∧
        Tiles line.text 1 3 after.1 := by
  intro x a word inner single d scope t line found again
  have hnext : (t.next? Searching.anew t.initialStack line 0 true ()).1 =
      some (.rule ⟨"x.a", 1⟩, found) := by decide +kernel
  have hlevels : t.options.maxStackDepth.toNat ≤ 255 + t.initialStack.depth := by decide +kernel
  have hrun : ((t.rule? ⟨"x.a", 2⟩).bind fun group => t.captureTokens? again t.initialStack ⟨"x.a", 2⟩
      group line.text found.groups ⟨1, 3⟩ true (.empty, .empty)).map Prod.fst =
        some [⟨⟨1, 2⟩, [scope, ⟨[word, x], by decide⟩]⟩, ⟨⟨2, 3⟩, [scope]⟩] := by
    decide +kernel
  obtain ⟨after, hbind, htokens⟩ := Option.map_eq_some_iff.1 hrun
  obtain ⟨group, hgroup, hafter⟩ := Option.bind_eq_some_iff.1 hbind
  exact ⟨hnext, hlevels, group, after, hgroup, hafter, htokens,
    (t.tokens_partition_line [] t.initialStack .empty).2.2 255 t.initialStack hlevels ⟨"x.a", 2⟩
      group line.text found.groups ⟨1, 3⟩ true (.empty, .empty) after hafter⟩

end Tokenizer

end Highlight
