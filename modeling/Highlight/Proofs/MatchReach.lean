import Highlight.Pattern.Literal
import Highlight.Proofs.Coverage
import Highlight.Proofs.NestedCaptures
import Highlight.Proofs.Restart

/-!
# How far a match reaches

The tokens of a match begin where the ones in front of it end. They go on to the end of the match, and
beyond it if a group of the match does: a group in a look-ahead takes text behind the match, and its
scopes go to that text. What follows on the line then finds the text taken. A group reaches as far only
if something comes of it, that is if its rule has patterns or scopes; otherwise it reaches its start.

- `TokenList.Grows`: tokens with others behind them, without a gap.
- `Tokenizer.TakesAgain`: the groups whose text is tokenized with the patterns of their rule.
- `Tokenizer.produceMatch_grows`: the tokens of a match are put behind those in front of it.
- `Tokenizer.groupReach`, `Tokenizer.produceGroups_position_le`: how far groups reach.
- `Tokenizer.match_reaches_groups`: how far a match reaches, with a group in front of it as an example.
- `Tokenizer.match_reaches_lookahead`: a match that takes text behind its end.
-/

namespace Highlight

/-! ## Tokens behind others -/

namespace TokenList

variable {tokens tokens' tokens'' : TokenList} {stop n : Nat}

/-- Tokens with others behind them, each of which begins where the one before it ends. -/
def Grows (tokens tokens' : TokenList) : Prop :=
  tokens.Extends (fun _ _ => True) tokens'.position tokens'

theorem Grows.refl (tokens : TokenList) : tokens.Grows tokens :=
  ⟨rfl, [], (List.append_nil _).symm, .done _⟩

/-- Tokens that are added in two turns are added in one. -/
theorem Grows.trans (h : tokens.Grows tokens') (h' : tokens'.Grows tokens'') :
    tokens.Grows tokens'' :=
  Extends.trans h h'

theorem Grows.le (h : tokens.Grows tokens') : tokens.position ≤ tokens'.position := by
  obtain ⟨-, _, -, hpaints⟩ := h
  exact hpaints.le

theorem grows_produce (tokens : TokenList) (stop : Nat) (scopes : List Scope) :
    tokens.Grows (tokens.produce stop scopes) := by
  rcases Nat.le_total tokens.position stop with hle | hge
  · have hposition : (tokens.produce stop scopes).position = stop := by
      rw [position_produce, Nat.max_eq_right hle]
    unfold Grows
    rw [hposition]
    exact extends_produce hle fun _ _ _ => trivial
  · rw [produce_of_le hge]
    exact .refl tokens

theorem grows_produceAll (tokens : TokenList) (inner : List Token) :
    tokens.Grows (tokens.produceAll inner) := by
  unfold produceAll
  induction inner generalizing tokens with
  | nil => exact .refl tokens
  | cons token inner ih => exact (tokens.grows_produce _ _).trans (ih _)

/-- With one more token, tokens reach as far as it and as those in front of it. -/
theorem position_produce_le (scopes : List Scope) :
    (tokens.produce stop scopes).position ≤ n ↔ tokens.position ≤ n ∧ stop ≤ n := by
  rw [position_produce, Nat.max_le]

end TokenList

/-- Tokens that tile a range end where it ends, put behind others that reach its start. -/
theorem Tiles.position_produceAll {text : List Char} {start stop : Nat} {inner : List Token}
    (h : Tiles text start stop inner) {tokens : TokenList} (hstart : start ≤ tokens.position) :
    (tokens.produceAll inner).position = max tokens.position stop := by
  induction h generalizing tokens with
  | done offset => exact (Nat.max_eq_left hstart).symm
  | @next start middle stop scopes rest hlt _ hrest ih =>
    have hmiddle : (tokens.produce middle scopes).position = max tokens.position middle :=
      TokenList.position_produce _ _ _
    have hle : middle ≤ stop := hrest.le
    show ((tokens.produce middle scopes).produceAll rest).position = _
    rw [ih (by omega), hmiddle]
    omega

/-! ## Open groups -/

namespace OpenCapture

variable {opened : List OpenCapture} {tokens : TokenList} {offset n : Nat}

/-- Closing groups adds tokens and takes none back. -/
theorem grows_closeAll (opened : List OpenCapture) (tokens : TokenList) :
    tokens.Grows (closeAll opened tokens) := by
  induction opened generalizing tokens with
  | nil => exact .refl tokens
  | cons c rest ih => exact (tokens.grows_produce _ _).trans (ih _)

theorem grows_closeUpTo (offset : Nat) (opened : List OpenCapture) (tokens : TokenList) :
    tokens.Grows (closeUpTo offset opened tokens).2 := by
  induction opened generalizing tokens with
  | nil => exact .refl tokens
  | cons c rest ih =>
    unfold closeUpTo
    split
    · exact (tokens.grows_produce _ _).trans (ih _)
    · exact .refl tokens

/-- Closing all groups reaches the end of each. -/
theorem position_closeAll_le :
    (closeAll opened tokens).position ≤ n ↔ tokens.position ≤ n ∧ ∀ c ∈ opened, c.stop ≤ n := by
  induction opened generalizing tokens with
  | nil =>
    show tokens.position ≤ n ↔ _
    exact (and_iff_left nofun).symm
  | cons c rest ih =>
    show (closeAll rest (tokens.produce c.stop c.scopes)).position ≤ n ↔ _
    rw [ih, TokenList.position_produce_le, List.forall_mem_cons, and_assoc]

/-- Closing some of the groups does not change how far all of them reach. -/
theorem position_closeUpTo_le (offset : Nat) :
    ((closeUpTo offset opened tokens).2.position ≤ n ∧
        ∀ c ∈ (closeUpTo offset opened tokens).1, c.stop ≤ n) ↔
      tokens.position ≤ n ∧ ∀ c ∈ opened, c.stop ≤ n := by
  induction opened generalizing tokens with
  | nil => exact Iff.rfl
  | cons c rest ih =>
    unfold closeUpTo
    split
    · rw [ih, TokenList.position_produce_le, List.forall_mem_cons, and_assoc]
    · exact Iff.rfl

end OpenCapture

section

variable [Engine]

namespace Tokenizer

variable {σ : Type} {t : Tokenizer} {retok : Retokenize σ} {stack : Stack} {line : List Char}
  {grammar : String} {groups : Groups} {firstLine : Bool} {g : Rule × Span} {n : Nat}

/-! ## One group -/

/-- Whether the text of a group is tokenized with the patterns of its rule: there are some, there is
room for another frame, and the line has a character's end where the group ends. -/
def TakesAgain (t : Tokenizer) (stack : Stack) (line : List Char) (g : Rule × Span) : Prop :=
  g.1.kind.patterns ≠ [] ∧ stack.depth < t.options.maxStackDepth.toNat ∧
    (Text.takeBytes? g.2.stop line).isSome = true

instance (t : Tokenizer) (stack : Stack) (line : List Char) (g : Rule × Span) :
    Decidable (t.TakesAgain stack line g) := inferInstanceAs (Decidable (_ ∧ _ ∧ _))

/-- A group is tokenized again exactly if its rule has patterns, there is room for a frame, and its
end is a place of the text. -/
theorem captureTokens?_isSome (t : Tokenizer) (retok : Retokenize σ) (stack : Stack) (ref : RuleRef)
    (line : List Char) (groups : Groups) (g : Rule × Span) (firstLine : Bool) (memory : σ) :
    (t.captureTokens? retok stack ref g.1 line groups g.2 firstLine memory).isSome = true ↔
      t.TakesAgain stack line g := by
  unfold captureTokens? TakesAgain
  by_cases hpatterns : g.1.kind.patterns = []
  · simp [hpatterns]
  · rw [if_neg (by simpa using hpatterns)]
    by_cases hdepth : stack.depth < t.options.maxStackDepth.toNat
    · rw [if_pos hdepth, Option.isSome_map]
      exact ⟨fun h => ⟨hpatterns, hdepth, h⟩, fun h => h.2.2⟩
    · rw [if_neg hdepth]
      exact ⟨nofun, fun h => absurd h.2.1 hdepth⟩

/-! ## Groups and matches -/

/-- The tokens for groups are put behind those that are there. -/
theorem produceGroups_grows (pairs : List (Option RuleId × Option Span)) (opened : List OpenCapture)
    (tokens : TokenList) (memory : σ) :
    tokens.Grows (t.produceGroups retok stack line grammar groups firstLine pairs opened tokens
      memory).1 := by
  induction pairs generalizing opened tokens memory with
  | nil => exact OpenCapture.grows_closeAll opened tokens
  | cons pair rest ih =>
    cases hgroup : t.scopedGroup? grammar pair with
    | none =>
      rw [produceGroups_skip hgroup]
      exact ih opened tokens memory
    | some g =>
      obtain ⟨id, -, -, htake⟩ :=
        produceGroups_group retok stack line groups firstLine hgroup rest opened tokens memory
      rw [htake]
      have hclosed := OpenCapture.grows_closeUpTo g.2.start opened tokens
      generalize OpenCapture.closeUpTo g.2.start opened tokens = closed at hclosed ⊢
      have hstart := hclosed.trans
        (closed.2.grows_produce g.2.start (OpenCapture.scopesOf stack.scopes closed.1))
      split
      · exact (hstart.trans (TokenList.grows_produceAll _ _)).trans (ih _ _ _)
      · exact hstart.trans (ih _ _ _)

/-- The tokens of a match are put behind those in front of it. -/
theorem produceMatch_grows (line : IndexedText) (rules : CaptureRules) (found : Found)
    (tokens : TokenList) (memory : σ) :
    tokens.Grows
      (t.produceMatch retok stack line grammar rules found firstLine tokens memory).1 :=
  (produceGroups_grows _ _ _ _).trans (TokenList.grows_produce _ _ _)

/-- How far the tokens for a group reach. -/
def groupReach (t : Tokenizer) (stack : Stack) (line : List Char) (groups : Groups)
    (g : Rule × Span) : Nat :=
  if t.TakesAgain stack line g ∨ g.1.nameScopes line groups ≠ [] then max g.2.start g.2.stop
  else g.2.start

variable {searching : Searching σ} {Holds : IndexedText → σ → Prop} {levels : Nat}

/-- **How far groups reach**: to the end of every group that was open, and as far as each group to
come. -/
theorem produceGroups_position_le (hs : searching.Sound Holds)
    (hlevels : t.options.maxStackDepth.toNat ≤ levels + stack.depth)
    (pairs : List (Option RuleId × Option Span)) (opened : List OpenCapture) (tokens : TokenList)
    (memory : σ) :
    (t.produceGroups (t.retokenize searching levels) stack line grammar groups firstLine pairs opened
        tokens memory).1.position ≤ n ↔
      (tokens.position ≤ n ∧ ∀ c ∈ opened, c.stop ≤ n) ∧
        ∀ g ∈ t.scopedGroups grammar pairs, t.groupReach stack line groups g ≤ n := by
  induction pairs generalizing opened tokens memory with
  | nil =>
    show (OpenCapture.closeAll opened tokens).position ≤ n ↔ _
    rw [OpenCapture.position_closeAll_le]
    exact (and_iff_left fun g hg => absurd hg List.not_mem_nil).symm
  | cons pair rest ih =>
    cases hgroup : t.scopedGroup? grammar pair with
    | none =>
      have hskip : t.scopedGroups grammar (pair :: rest) = t.scopedGroups grammar rest :=
        List.filterMap_cons_none hgroup
      rw [produceGroups_skip hgroup, ih, hskip]
    | some g =>
      have htake : t.scopedGroups grammar (pair :: rest) = g :: t.scopedGroups grammar rest :=
        List.filterMap_cons_some hgroup
      obtain ⟨id, -, -, hproduce⟩ := produceGroups_group (t.retokenize searching levels) stack line
        groups firstLine hgroup rest opened tokens memory
      rw [hproduce, htake, List.forall_mem_cons, ← OpenCapture.position_closeUpTo_le g.2.start]
      generalize OpenCapture.closeUpTo g.2.start opened tokens = closed
      have hsome := t.captureTokens?_isSome (t.retokenize searching levels) stack ⟨grammar, id⟩ line
        groups g firstLine memory
      split
      · rename_i inner memory' hinner
        rw [hinner] at hsome
        have hreach : t.groupReach stack line groups g = max g.2.start g.2.stop :=
          if_pos (.inl (hsome.1 rfl))
        have hstart : g.2.start ≤
            (closed.2.produce g.2.start (OpenCapture.scopesOf stack.scopes closed.1)).position := by
          rw [TokenList.position_produce]
          exact Nat.le_max_right _ _
        have hposition := (captureTokens?_tiles t hs hlevels hinner).position_produceAll hstart
        rw [ih, hposition, TokenList.position_produce, hreach]
        simp only [Nat.max_le]
        tauto
      · rename_i hnone
        rw [hnone] at hsome
        have hplain : ¬ t.TakesAgain stack line g := fun h => Bool.false_ne_true (hsome.2 h)
        rw [ih, TokenList.position_produce_le]
        by_cases hscopes : g.1.nameScopes line groups = []
        · have hreach : t.groupReach stack line groups g = g.2.start :=
            if_neg (not_or.2 ⟨hplain, not_not.2 hscopes⟩)
          rw [if_pos (List.isEmpty_iff.2 hscopes), hreach]
          tauto
        · have hreach : t.groupReach stack line groups g = max g.2.start g.2.stop :=
            if_pos (.inr hscopes)
          rw [if_neg (mt List.isEmpty_iff.1 hscopes), List.forall_mem_cons, hreach, Nat.max_le]
          tauto

/-- **How far a match reaches.** The tokens of a match are put behind those in front of it, without a
gap. They reach the end of the match and as far as each of its groups, and no further. So they end where
the match does exactly if no group reaches beyond it. -/
theorem match_reaches_groups (t : Tokenizer) (stack : Stack) (line : IndexedText) (grammar : String)
    (rules : CaptureRules) (found : Found) (firstLine : Bool) (tokens : TokenList)
    (memory : SearchMemory × Tables) (levels : Nat)
    (hlevels : t.options.maxStackDepth.toNat ≤ levels + stack.depth) :
    let after := (t.produceMatch (t.retokenize Searching.remembering.keeping levels) stack line grammar
      rules found firstLine tokens memory).1
    let groups := t.scopedGroups grammar (rules.zip found.groups)
    let own := max tokens.position found.stop
    tokens.Grows after ∧
      (∀ n, after.position ≤ n ↔
        own ≤ n ∧ ∀ g ∈ groups, t.groupReach stack line.text found.groups g ≤ n) ∧
      (after.position = own ↔
        ∀ g ∈ groups, t.groupReach stack line.text found.groups g ≤ own) := by
  intro after groups own
  have hreach : ∀ n, after.position ≤ n ↔
      own ≤ n ∧ ∀ g ∈ groups, t.groupReach stack line.text found.groups g ≤ n := by
    intro n
    show (TokenList.produce _ found.stop stack.scopes).position ≤ n ↔ _
    rw [TokenList.position_produce_le, produceCaptures,
      produceGroups_position_le Searching.sound_remembering.keeping hlevels, Nat.max_le]
    constructor
    · rintro ⟨⟨⟨hposition, -⟩, hgroups⟩, hstop⟩
      exact ⟨⟨hposition, hstop⟩, hgroups⟩
    · rintro ⟨⟨hposition, hstop⟩, hgroups⟩
      exact ⟨⟨⟨hposition, nofun⟩, hgroups⟩, hstop⟩
  refine ⟨produceMatch_grows _ _ _ _ _, hreach, ?_⟩
  have hown : own ≤ after.position := ((hreach _).1 (Nat.le_refl _)).1
  constructor
  · intro heq
    exact ((hreach own).1 (Nat.le_of_eq heq)).2
  · intro hgroups
    exact Nat.le_antisymm ((hreach own).2 ⟨Nat.le_refl own, hgroups⟩) hown

end Tokenizer

end

namespace Tokenizer

set_option maxRecDepth 100000 in
/-- A group in a look-behind lies in front of the match, so the match ends the tokens. -/
theorem match_reaches_lookbehind :
    let x : Part := .name { chars := ['x'] }
    let a : Part := .name { chars := ['a'] }
    let named : RuleDefinition := { keys := { name := some "look.x" } }
    let behind : RuleDefinition :=
      { keys := { matchText := some "(?<=(a))b" }, captures := some [("1", named)] }
    let d : GrammarDefinition := { scopeName := some "x.a", patterns := [behind] }
    let scope : Scope := ⟨[x, a], by decide⟩
    let held := Function.update (fun _ => none) "x.a" (some (Grammar.ofScoped d scope))
    let line := IndexedText.ofText ['a', 'b', '\n']
    let found : Found := ⟨1, 2, [some ⟨1, 2⟩, some ⟨0, 1⟩]⟩
    ∃ r : Registry, r.Reached held ∧
      let t : Tokenizer := ⟨r, "x.a", scope, .standard⟩
      let retok := t.retokenize Searching.remembering.keeping t.options.maxStackDepth.toNat
      (t.next? Searching.anew t.initialStack line 0 true ()).1 = some (.rule ⟨"x.a", 1⟩, found) ∧
      t.options.maxStackDepth.toNat ≤ t.options.maxStackDepth.toNat + t.initialStack.depth ∧
      (t.produceMatch retok t.initialStack line "x.a" [none, some 2] found true (.startingAt 1)
        (.empty, .empty)).1.position = max 1 2 := by
  intro x a named behind d scope held line found
  have hg : Grammar.ofDefinition d = .ok (Grammar.ofScoped d scope) := rfl
  have hpath : Registry.checkPath "x.a" = .ok () := rfl
  -- how far the group reaches is worked out before the registry is hidden behind its name
  obtain ⟨r, hreached, hnext, hgroups⟩ : ∃ r : Registry, r.Reached held ∧
      let t : Tokenizer := ⟨r, "x.a", scope, .standard⟩
      (t.next? Searching.anew t.initialStack line 0 true ()).1 = some (.rule ⟨"x.a", 1⟩, found) ∧
      ∀ g ∈ t.scopedGroups "x.a" (List.zip [none, some 2] found.groups),
        t.groupReach t.initialStack line.text found.groups g ≤ max 1 2 :=
    ⟨_, Registry.reached_single hg hpath, by decide +kernel⟩
  refine ⟨r, hreached, ?_⟩
  intro t retok
  have hlevels : t.options.maxStackDepth.toNat ≤
      t.options.maxStackDepth.toNat + t.initialStack.depth := Nat.le_add_right _ _
  exact ⟨hnext, hlevels, (match_reaches_groups t t.initialStack line "x.a" [none, some 2] found true
    (.startingAt 1) (.empty, .empty) _ hlevels).2.2.2 hgroups⟩

set_option maxRecDepth 100000 in
/-- A group in a look-ahead takes the text behind the match. The rule that matches this text finds it
taken: its token has the scopes of the group. -/
theorem match_reaches_lookahead :
    let x : Part := .name { chars := ['x'] }
    let a : Part := .name { chars := ['a'] }
    let look : Part := .name { chars := ['l', 'o', 'o', 'k'] }
    let named : RuleDefinition := { keys := { name := some "look.x" } }
    let ahead : RuleDefinition :=
      { keys := { matchText := some "a(?=(b))" }, captures := some [("1", named)] }
    let behind : RuleDefinition := { keys := { name := some "a.x", matchText := some "b" } }
    let d : GrammarDefinition := { scopeName := some "x.a", patterns := [ahead, behind] }
    let scope : Scope := ⟨[x, a], by decide⟩
    let held := Function.update (fun _ => none) "x.a" (some (Grammar.ofScoped d scope))
    let line := IndexedText.ofText ['a', 'b', '\n']
    let found : Found := ⟨0, 1, [some ⟨0, 1⟩, some ⟨1, 2⟩]⟩
    ∃ r : Registry, r.Reached held ∧
      let t : Tokenizer := ⟨r, "x.a", scope, .standard⟩
      let retok := t.retokenize Searching.remembering.keeping t.options.maxStackDepth.toNat
      (t.next? Searching.anew t.initialStack line 0 true ()).1 = some (.rule ⟨"x.a", 1⟩, found) ∧
      (t.produceMatch retok t.initialStack line "x.a" [none, some 2] found true (.startingAt 0)
        (.empty, .empty)).1.position = 2 ∧
      (t.next? Searching.anew t.initialStack line 1 false ()).1 =
        some (.rule ⟨"x.a", 3⟩, ⟨1, 2, [some ⟨1, 2⟩]⟩) ∧
      (t.tokenizeLine ['a', 'b'] t.initialStack).1 =
        [⟨⟨0, 1⟩, [scope]⟩, ⟨⟨1, 2⟩, [scope, ⟨[look, x], by decide⟩]⟩] := by
  intro x a look named ahead behind d scope held line found
  have hg : Grammar.ofDefinition d = .ok (Grammar.ofScoped d scope) := rfl
  have hpath : Registry.checkPath "x.a" = .ok () := rfl
  exact ⟨_, Registry.reached_single hg hpath, by decide +kernel⟩

end Tokenizer

end Highlight
