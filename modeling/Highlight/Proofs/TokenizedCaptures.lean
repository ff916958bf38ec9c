import Highlight.Pattern.Literal
import Highlight.Proofs.InnerScopes

/-!
# Capture groups that are tokenized again

A group whose rule has patterns is tokenized with a frame that is put on the stack of the match, not on
the groups around it. So its text has the scopes of the stack and of the group itself, and nothing of
the groups around it; these go on behind it. As all of its text has tokens then, groups inside of it are
passed over. All other bytes of the match have the scopes of the groups around them.

- `Tokenizer.tokenizedAround?`, `Tokenizer.ScopedAround`: the scopes of a byte, by the groups around it.
- `Tokenizer.Ready`: what holds between two groups.
- `Tokenizer.Ready.passed`, `Tokenizer.Ready.plain`, `Tokenizer.Ready.retokenized`: what one group does.
- `Tokenizer.produceGroups_scoped`: one pass over the groups.
- `Tokenizer.tokenized_captures_scoped`: the main statement.
- `Tokenizer.tokenized_capture_unscoped`: a group that loses the scopes of the one around it.
-/

namespace Highlight

/-! ## Tokens put behind others -/

/-- Tokens for text that others have taken already are left out. -/
theorem Tiles.produceAll_of_le {text : List Char} {start stop : Nat} {inner : List Token}
    (h : Tiles text start stop inner) {tokens : TokenList} (hle : stop ≤ tokens.position) :
    tokens.produceAll inner = tokens := by
  induction h with
  | done => rfl
  | @next start middle stop scopes rest _ _ hrest ih =>
    show (tokens.produce middle scopes).produceAll rest = tokens
    rw [TokenList.produce_of_le (Nat.le_trans hrest.le hle), ih hle]

/-- Tokens that begin where others end are put behind them as they are. -/
theorem Tiles.extends_produceAll {text : List Char} {start stop : Nat} {inner : List Token}
    (h : Tiles text start stop inner) {tokens : TokenList} {Right : Nat → List Scope → Prop}
    (hposition : tokens.position = start)
    (hright : ∀ token ∈ inner, ∀ i, start ≤ i → i < stop → Right i token.scopes) :
    tokens.Extends Right stop (tokens.produceAll inner) := by
  induction h generalizing tokens with
  | done offset =>
    subst hposition
    exact ⟨rfl, [], (List.append_nil _).symm, .done _⟩
  | @next start middle stop scopes rest hlt _ hrest ih =>
    subst hposition
    obtain ⟨hhere, hlater⟩ := List.forall_mem_cons.1 hright
    have hfirst : tokens.Extends Right middle (tokens.produce middle scopes) :=
      TokenList.extends_produce (Nat.le_of_lt hlt)
        fun i hi hm => hhere i hi (Nat.lt_of_lt_of_le hm hrest.le)
    refine hfirst.trans (ih hfirst.position fun token ht i hi hs => ?_)
    exact hlater token ht i (Nat.le_trans (Nat.le_of_lt hlt) hi) hs

/-- Closing groups up to an offset that has been reached produces nothing. -/
theorem OpenCapture.closeUpTo_of_le {offset : Nat} (opened : List OpenCapture) {tokens : TokenList}
    (h : offset ≤ tokens.position) : (closeUpTo offset opened tokens).2 = tokens := by
  induction opened with
  | nil => rfl
  | cons c rest ih =>
    unfold closeUpTo
    split
    · rename_i hstop
      rw [TokenList.produce_of_le (Nat.le_trans hstop h), ih]
    · rfl

section

variable [Engine]

namespace Tokenizer

variable {σ : Type} {t : Tokenizer} {stack : Stack} {line : List Char} {groups : Groups}
  {outside : List Scope} {seen coming more : List (Rule × Span)} {g : Rule × Span}
  {opened : List OpenCapture} {tokens : TokenList} {position stop i : Nat} {scopes : List Scope}

/-! ## The scopes of a byte -/

/-- The first group around a byte whose text is tokenized again. -/
def tokenizedAround? (t : Tokenizer) (stack : Stack) (line : List Char) (spans : List (Rule × Span))
    (i : Nat) : Option (Rule × Span) :=
  spans.find? fun g => g.2.Covers i ∧ t.TakesAgain stack line g

/-- Scopes that are right for a byte. If a group around it is tokenized again, they begin with those of
the stack and of this group. Otherwise they are those of the stack and of all groups around it. -/
def ScopedAround (t : Tokenizer) (stack : Stack) (line : List Char) (groups : Groups)
    (spans : List (Rule × Span)) (i : Nat) (scopes : List Scope) : Prop :=
  match t.tokenizedAround? stack line spans i with
  | none => scopes = scopesOver line groups stack.scopes spans i
  | some g =>
    stack.scopes ++ g.1.nameScopes line groups ++ g.1.contentScopes line groups <+: scopes

theorem scopedAround_of_forall {spans : List (Rule × Span)}
    (h : ∀ g ∈ spans, t.TakesAgain stack line g → ¬ g.2.Covers i) :
    t.ScopedAround stack line groups spans i scopes ↔
      scopes = scopesOver line groups stack.scopes spans i := by
  have hnone : t.tokenizedAround? stack line spans i = none := by
    refine List.find?_eq_none.2 fun g hg => ?_
    rw [decide_eq_true_iff]
    rintro ⟨hcovers, hagain⟩
    exact h g hg hagain hcovers
  rw [ScopedAround, hnone]

theorem scopedAround_append_cons (h : ∀ p ∈ seen, t.TakesAgain stack line p → ¬ p.2.Covers i)
    (hcovers : g.2.Covers i) (hagain : t.TakesAgain stack line g) :
    t.ScopedAround stack line groups (seen ++ g :: more) i scopes ↔
      stack.scopes ++ g.1.nameScopes line groups ++ g.1.contentScopes line groups <+: scopes := by
  have hsome : t.tokenizedAround? stack line (seen ++ g :: more) i = some g := by
    have hnone : seen.find? (fun p => decide (p.2.Covers i ∧ t.TakesAgain stack line p)) = none := by
      refine List.find?_eq_none.2 fun p hp => ?_
      rw [decide_eq_true_iff]
      rintro ⟨hcovers, hagain⟩
      exact h p hp hagain hcovers
    rw [tokenizedAround?, List.find?_append, hnone, Option.none_or,
      List.find?_cons_of_pos (by simpa using And.intro hcovers hagain)]
  rw [ScopedAround, hsome]

/-! ## Between two groups -/

/-- A group that lies in front of a place leaves the scopes behind it as they are. -/
theorem Tracks.pass (h : Tracks line groups outside seen position stop opened) (tokens : TokenList)
    {behind : Nat} (hposition : position ≤ behind) (hstart : g.2.start ≤ behind)
    (hpast : g.2.stop ≤ behind) :
    Tracks line groups outside (seen ++ [g]) behind stop
      (OpenCapture.closeUpTo g.2.start opened tokens).1 := by
  obtain ⟨hmem, hsame, -⟩ := OpenCapture.closeUpTo_opened g.2.start outside opened tokens
  refine ⟨fun i hi => ?_, fun c hc => h.stops c (hmem c hc)⟩
  rw [hsame i (Nat.le_trans hstart hi), h.scopes i (Nat.le_trans hposition hi)]
  refine (scopesOver_append fun g' hg' hcovers => ?_).symm
  rw [List.mem_singleton.1 hg'] at hcovers
  exact absurd hcovers.2 (Nat.not_lt.2 (Nat.le_trans hpast hi))

/-- An open group that ends in front of a place has no scopes to give behind it. -/
theorem Tracks.cons (h : Tracks line groups outside seen position stop opened) {c : OpenCapture}
    (hpast : c.stop ≤ position) (hstop : c.stop ≤ stop) :
    Tracks line groups outside seen position stop (c :: opened) := by
  refine ⟨fun i hi => ?_, List.forall_mem_cons.2 ⟨hstop, h.stops⟩⟩
  rw [OpenCapture.scopesAt_cons_of_le (Nat.le_trans hpast hi)]
  exact h.scopes i hi

/-- What holds between two groups of a match, given those in front and those to come. The text that has
been reached ends in front of a group to come or behind it, and the groups that were tokenized again
have all of their text. -/
structure Ready (t : Tokenizer) (stack : Stack) (line : List Char) (groups : Groups)
    (seen coming : List (Rule × Span)) (position stop : Nat) (opened : List OpenCapture) : Prop where
  tracks : Tracks line groups stack.scopes seen position stop opened
  ahead : ∀ g ∈ coming, (position ≤ g.2.start ∨ g.2.stop ≤ position) ∧ g.2.start < g.2.stop ∧
    g.2.stop ≤ stop
  again : ∀ g ∈ seen, t.TakesAgain stack line g → g.2.stop ≤ position
  laminar : Laminar (seen ++ coming)
  le : position ≤ stop

/-- The groups to come begin no earlier than the next one. -/
theorem Ready.start_le (h : t.Ready stack line groups seen (g :: coming) position stop opened) :
    ∀ g' ∈ g :: coming, g.2.start ≤ g'.2.start := by
  obtain ⟨hfirst, -⟩ := List.pairwise_cons.1 (List.pairwise_append.1 h.laminar).2.1
  exact List.forall_mem_cons.2 ⟨Nat.le_refl _, fun g' hg' => (hfirst g' hg').1⟩

/-- No group in front that was tokenized again covers a byte to come. -/
theorem Ready.not_covers (h : t.Ready stack line groups seen coming position stop opened)
    (hi : position ≤ i) : ∀ p ∈ seen, t.TakesAgain stack line p → ¬ p.2.Covers i := by
  intro p hp hagain hcovers
  have hpast := h.again p hp hagain
  exact absurd hcovers.2 (Nat.not_lt.2 (Nat.le_trans hpast hi))

/-- The text in front of a group has the scopes of the groups around it. -/
theorem Ready.extends_closeUpTo
    (h : t.Ready stack line groups seen (g :: coming) tokens.position stop opened)
    (hposition : tokens.position ≤ g.2.start) :
    let closed := OpenCapture.closeUpTo g.2.start opened tokens
    tokens.Extends (t.ScopedAround stack line groups (seen ++ g :: coming)) g.2.start
      (closed.2.produce g.2.start (OpenCapture.scopesOf stack.scopes closed.1)) := by
  intro closed
  refine (h.tracks.extends_closeUpTo hposition h.start_le).mono fun i hi hlt scopes hscopes => ?_
  refine (scopedAround_of_forall fun p hp hagain hcovers => ?_).2 hscopes
  rcases List.mem_append.1 hp with hp | hp
  · exact h.not_covers hi p hp hagain hcovers
  · exact absurd hcovers.1 (Nat.not_le.2 (Nat.lt_of_lt_of_le hlt (h.start_le p hp)))

/-- **A group in text that has been reached** is passed over, with the tokens as they are. -/
theorem Ready.passed (h : t.Ready stack line groups seen (g :: coming) position stop opened)
    (tokens : TokenList) (hpast : g.2.stop ≤ position) :
    t.Ready stack line groups (seen ++ [g]) coming position stop
      (OpenCapture.closeUpTo g.2.start opened tokens).1 := by
  obtain ⟨⟨-, hlt, hstop⟩, hcoming⟩ := List.forall_mem_cons.1 h.ahead
  refine ⟨?_, hcoming, ?_, ?_, h.le⟩
  · exact h.tracks.pass tokens (Nat.le_refl _) (Nat.le_trans (Nat.le_of_lt hlt) hpast) hpast
  · intro p hp hagain
    rcases List.mem_append.1 hp with hp | hp
    · exact h.again p hp hagain
    · rwa [List.mem_singleton.1 hp]
  · rw [← List.append_cons]
    exact h.laminar

/-- **A group that is opened**: the text in front of it has been reached. -/
theorem Ready.plain (h : t.Ready stack line groups seen (g :: coming) position stop opened)
    (tokens : TokenList) (hposition : position ≤ g.2.start) (hplain : ¬ t.TakesAgain stack line g) :
    let closed := (OpenCapture.closeUpTo g.2.start opened tokens).1
    let scopes := g.1.nameScopes line groups
    t.Ready stack line groups (seen ++ [g]) coming g.2.start stop
      (if scopes.isEmpty then closed
        else ⟨OpenCapture.scopesOf stack.scopes closed ++ scopes, g.2.stop⟩ :: closed) := by
  intro closed scopes
  obtain ⟨⟨-, hlt, hstop⟩, hcoming⟩ := List.forall_mem_cons.1 h.ahead
  have hlaminar := h.laminar
  rw [List.append_cons] at hlaminar
  refine ⟨?_, ?_, ?_, hlaminar, Nat.le_trans (Nat.le_of_lt hlt) hstop⟩
  · exact h.tracks.step tokens hposition hstop (List.pairwise_append.1 hlaminar).1
  · intro g' hg'
    exact ⟨.inl (h.start_le g' (List.mem_cons_of_mem _ hg')), (hcoming g' hg').2⟩
  · intro p hp hagain
    rcases List.mem_append.1 hp with hp | hp
    · exact Nat.le_trans (h.again p hp hagain) hposition
    · rw [List.mem_singleton.1 hp] at hagain
      exact absurd hagain hplain

/-- **A group that is tokenized again**: all of its text has been reached. The groups to come lie inside
of it or behind it. -/
theorem Ready.retokenized (h : t.Ready stack line groups seen (g :: coming) position stop opened)
    (tokens : TokenList) (hposition : position ≤ g.2.start) :
    t.Ready stack line groups (seen ++ [g]) coming g.2.stop stop
      (OpenCapture.closeUpTo g.2.start opened tokens).1 := by
  obtain ⟨⟨-, hlt, hstop⟩, hcoming⟩ := List.forall_mem_cons.1 h.ahead
  obtain ⟨hnested, -⟩ := List.pairwise_cons.1 (List.pairwise_append.1 h.laminar).2.1
  refine ⟨?_, ?_, ?_, ?_, hstop⟩
  · exact h.tracks.pass tokens (Nat.le_trans hposition (Nat.le_of_lt hlt)) (Nat.le_of_lt hlt)
      (Nat.le_refl _)
  · intro g' hg'
    obtain ⟨-, hlt', hstop'⟩ := hcoming g' hg'
    obtain ⟨horder, hapart⟩ := hnested g' hg'
    refine ⟨?_, hlt', hstop'⟩
    rcases hapart with (hbehind | hfront) | ⟨-, hinside⟩
    · exact .inl hbehind
    · omega
    · exact .inr hinside
  · intro p hp hagain
    rcases List.mem_append.1 hp with hp | hp
    · have hpast := h.again p hp hagain
      omega
    · cases List.mem_singleton.1 hp
      exact Nat.le_refl _
  · rw [← List.append_cons]
    exact h.laminar

/-! ## One pass over the groups -/

section Pass

variable {held : String → Option Grammar} {searching : Searching σ}
  {Holds : IndexedText → σ → Prop} {levels : Nat} {grammar : String} {firstLine : Bool}

variable (hreached : t.registry.Reached held) (hs : searching.Sound Holds)
  (hlevels : t.options.maxStackDepth.toNat ≤ levels + stack.depth)
include hreached hs hlevels

/-- **What one group does**, whichever way its rule has it: the text up to a place has right scopes, and
the pass goes on with the groups behind it. -/
theorem Ready.group {pair : Option RuleId × Option Span} (hgroup : t.scopedGroup? grammar pair = some g)
    (howned : ∀ id, pair.1 = some id → t.CaptureOf ⟨grammar, id⟩)
    (h : t.Ready stack line groups seen (g :: coming) tokens.position stop opened)
    (rest : List (Option RuleId × Option Span)) (memory : σ) :
    ∃ opened' tokens' memory',
      t.produceGroups (t.retokenize searching levels) stack line grammar groups firstLine
          (pair :: rest) opened tokens memory =
        t.produceGroups (t.retokenize searching levels) stack line grammar groups firstLine rest
          opened' tokens' memory' ∧
      tokens.Extends (t.ScopedAround stack line groups (seen ++ g :: coming)) tokens'.position tokens' ∧
      t.Ready stack line groups (seen ++ [g]) coming tokens'.position stop opened' := by
  obtain ⟨id, hid, -, hproduce⟩ := produceGroups_group (t.retokenize searching levels) stack line groups
    firstLine hgroup rest opened tokens memory
  have hsome := t.captureTokens?_isSome (t.retokenize searching levels) stack ⟨grammar, id⟩ line groups g
    firstLine memory
  obtain ⟨⟨hplace, hlt, hstop⟩, -⟩ := List.forall_mem_cons.1 h.ahead
  have hfront := h.extends_closeUpTo
  have hpassed := h.passed tokens
  have hopened := h.plain tokens
  have hretokenized := h.retokenized tokens
  have hnothing : g.2.stop ≤ tokens.position →
      (OpenCapture.closeUpTo g.2.start opened tokens).2 = tokens :=
    fun hpast => OpenCapture.closeUpTo_of_le opened (Nat.le_trans (Nat.le_of_lt hlt) hpast)
  rw [hproduce]
  generalize OpenCapture.closeUpTo g.2.start opened tokens = closed at *
  cases hinner : t.captureTokens? (t.retokenize searching levels) stack ⟨grammar, id⟩ g.1 line groups
      g.2 firstLine memory with
  | some result =>
    obtain ⟨inner, memory'⟩ := result
    rw [hinner] at hsome
    have hagain : t.TakesAgain stack line g := hsome.1 rfl
    have htiles := captureTokens?_tiles t hs hlevels hinner
    rw [Nat.max_eq_right (Nat.le_of_lt hlt)] at htiles
    refine ⟨_, _, memory', rfl, ?_⟩
    rcases hplace with hposition | hpast
    · have hstart := hfront hposition
      have hright : ∀ token ∈ inner, ∀ i, g.2.start ≤ i → i < g.2.stop →
          t.ScopedAround stack line groups (seen ++ g :: coming) i token.scopes := by
        intro token ht i hi hlast
        have hnot := h.not_covers (Nat.le_trans hposition hi)
        refine (scopedAround_append_cons hnot ⟨hi, hlast⟩ hagain).2 ?_
        exact captureTokens?_carries (retokenize_carries hreached searching levels) (howned id hid)
          hinner token ht
      have htext := htiles.extends_produceAll hstart.position hright
      have hreach := hstart.trans htext
      rw [hreach.position]
      exact ⟨hreach, hretokenized hposition⟩
    · rw [hnothing hpast, TokenList.produce_of_le (Nat.le_trans (Nat.le_of_lt hlt) hpast),
        htiles.produceAll_of_le hpast]
      exact ⟨⟨rfl, [], (List.append_nil _).symm, .done _⟩, hpassed hpast⟩
  | none =>
    rw [hinner] at hsome
    have hplain : ¬ t.TakesAgain stack line g := fun h => Bool.false_ne_true (hsome.2 h)
    refine ⟨_, _, memory, rfl, ?_⟩
    rcases hplace with hposition | hpast
    · have hstart := hfront hposition
      rw [hstart.position]
      exact ⟨hstart, hopened hposition hplain⟩
    · rw [hnothing hpast, TokenList.produce_of_le (Nat.le_trans (Nat.le_of_lt hlt) hpast)]
      refine ⟨⟨rfl, [], (List.append_nil _).symm, .done _⟩, ?_⟩
      have hready := hpassed hpast
      split
      · exact hready
      · exact { hready with tracks := hready.tracks.cons hpast hstop }

/-- **One pass over the groups gives every byte scopes that are right for it.** -/
theorem produceGroups_scoped (seen : List (Rule × Span)) {pairs : List (Option RuleId × Option Span)}
    (howned : t.Owned grammar (pairs.map Prod.fst)) {opened : List OpenCapture} {tokens : TokenList}
    (memory : σ)
    (h : t.Ready stack line groups seen (t.scopedGroups grammar pairs) tokens.position stop opened) :
    tokens.Extends (t.ScopedAround stack line groups (seen ++ t.scopedGroups grammar pairs)) stop
      ((t.produceGroups (t.retokenize searching levels) stack line grammar groups firstLine pairs opened
        tokens memory).1.produce stop stack.scopes) := by
  induction pairs generalizing seen opened tokens memory with
  | nil =>
    have hclosed := h.tracks.extends_closeUpTo h.le fun _ hg => absurd hg List.not_mem_nil
    rw [OpenCapture.closeUpTo_eq_closeAll h.tracks.stops] at hclosed
    refine hclosed.mono fun i hi _ scopes hscopes => (scopedAround_of_forall ?_).2 hscopes
    rw [scopedGroups, List.filterMap_nil, List.append_nil]
    exact h.not_covers hi
  | cons pair rest ih =>
    have hrest : t.Owned grammar (rest.map Prod.fst) :=
      fun id hid => howned id (List.mem_cons_of_mem _ hid)
    cases hgroup : t.scopedGroup? grammar pair with
    | none =>
      have hskip : t.scopedGroups grammar (pair :: rest) = t.scopedGroups grammar rest :=
        List.filterMap_cons_none hgroup
      rw [hskip] at h ⊢
      rw [produceGroups_skip hgroup]
      exact ih seen hrest memory h
    | some g =>
      have htake : t.scopedGroups grammar (pair :: rest) = g :: t.scopedGroups grammar rest :=
        List.filterMap_cons_some hgroup
      rw [htake] at h ⊢
      have hcapture : ∀ id, pair.1 = some id → t.CaptureOf ⟨grammar, id⟩ :=
        fun id hid => howned id (hid ▸ List.mem_cons_self)
      obtain ⟨opened', tokens', memory', hgo, hextends, hready⟩ :=
        Ready.group hreached hs hlevels hgroup hcapture h rest memory
      rw [hgo]
      rw [List.append_cons] at hextends ⊢
      exact hextends.trans (ih (seen ++ [g]) hrest memory' hready)

end Pass

/-- **The scopes of a match with groups that are tokenized again.** When the groups lie within the match,
in the order in which they begin and inside of each other or apart, then every byte outside of the
groups that are tokenized again has the scopes of the stack and behind them those of all groups around
it. A byte inside of such a group has scopes that begin with those of the stack and of the first such
group around it, whatever other groups are around that one. -/
theorem tokenized_captures_scoped (t : Tokenizer) (held : String → Option Grammar)
    (hreached : t.registry.Reached held) (levels : Nat) (stack : Stack)
    (hlevels : t.options.maxStackDepth.toNat ≤ levels + stack.depth) (line : IndexedText)
    (grammar : String) (rules : CaptureRules) (howned : t.Owned grammar rules) (found : Found)
    (firstLine : Bool) (tokens : TokenList) (memory : SearchMemory × Tables)
    (hposition : tokens.position = found.start) (hmatch : found.start ≤ found.stop)
    (hwithin : ∀ g ∈ t.scopedGroups grammar (rules.zip found.groups),
      found.start ≤ g.2.start ∧ g.2.start < g.2.stop ∧ g.2.stop ≤ found.stop)
    (hlaminar : Laminar (t.scopedGroups grammar (rules.zip found.groups))) :
    tokens.Extends (t.ScopedAround stack line.text found.groups
        (t.scopedGroups grammar (rules.zip found.groups))) found.stop
      (t.produceMatch (t.retokenize Searching.remembering.keeping levels) stack line grammar rules found
        firstLine tokens memory).1 := by
  refine produceGroups_scoped hreached Searching.sound_remembering.keeping hlevels []
    (howned.zip found.groups) memory ?_
  have htracks : Tracks line.text found.groups stack.scopes [] tokens.position found.stop [] :=
    ⟨fun i _ => (List.append_nil _).symm, fun _ hc => absurd hc List.not_mem_nil⟩
  refine ⟨htracks, ?_, fun _ hg => absurd hg List.not_mem_nil, hlaminar, by rwa [hposition]⟩
  intro g hg
  obtain ⟨hstart, hlt, hstop⟩ := hwithin g hg
  exact ⟨.inl (by rwa [hposition]), hlt, hstop⟩

end Tokenizer

end

namespace Tokenizer

/-- A rule for two groups, one inside of the other. The inner one has patterns. -/
def groupInGroup : GrammarDefinition :=
  let single (name : Option String) (pattern : String)
      (captures : Option (List (String × RuleDefinition))) : RuleDefinition :=
    { keys := { name := name, matchText := some pattern }, captures := captures }
  let group (name : String) (patterns : Option (List RuleDefinition)) : RuleDefinition :=
    { keys := { name := some name }, patterns := patterns }
  let inner := group "b.x" (some [single (some "c.x") "c" none])
  { scopeName := some "x.a",
    patterns := [single none "(a(bc))" (some [("1", group "a.x" none), ("2", inner)])] }

set_option maxRecDepth 100000 in
/-- The groups of the rule lie inside of each other. -/
theorem tokenized_captures_scoped_inner :
    let x : Part := .name { chars := ['x'] }
    let a : Part := .name { chars := ['a'] }
    let scope : Scope := ⟨[x, a], by decide⟩
    let held := Function.update (fun _ => none) "x.a" (some (Grammar.ofScoped groupInGroup scope))
    let line := IndexedText.ofText ['a', 'b', 'c', '\n']
    let rules : CaptureRules := [none, some 2, some 3]
    let found : Found := ⟨0, 3, [some ⟨0, 3⟩, some ⟨0, 3⟩, some ⟨1, 3⟩]⟩
    ∃ r : Registry, r.Reached held ∧
      let t : Tokenizer := ⟨r, "x.a", scope, .standard⟩
      let levels := t.options.maxStackDepth.toNat
      let spans := t.scopedGroups "x.a" (rules.zip found.groups)
      t.options.maxStackDepth.toNat ≤ levels + t.initialStack.depth ∧ t.Owned "x.a" rules ∧
      ((∀ g ∈ spans, 0 ≤ g.2.start ∧ g.2.start < g.2.stop ∧ g.2.stop ≤ 3) ∧ Laminar spans) ∧
      (TokenList.startingAt 0).Extends (t.ScopedAround t.initialStack line.text found.groups spans) 3
        (t.produceMatch (t.retokenize Searching.remembering.keeping levels) t.initialStack line "x.a"
          rules found true (.startingAt 0) (.empty, .empty)).1 := by
  intro x a scope held line rules found
  have hg : Grammar.ofDefinition groupInGroup = .ok (Grammar.ofScoped groupInGroup scope) := rfl
  have hpath : Registry.checkPath "x.a" = .ok () := rfl
  -- the groups are worked out before the registry is hidden behind its name
  obtain ⟨r, hreached, hrule, hspans⟩ : ∃ r : Registry, r.Reached held ∧
      let t : Tokenizer := ⟨r, "x.a", scope, .standard⟩
      let spans := t.scopedGroups "x.a" (rules.zip found.groups)
      ((t.rule? ⟨"x.a", 1⟩).any fun rule =>
        decide (∀ k ∈ rules.filterMap id, k ∈ rule.kind.captureRules)) = true ∧
      (∀ g ∈ spans, 0 ≤ g.2.start ∧ g.2.start < g.2.stop ∧ g.2.stop ≤ 3) ∧ Laminar spans :=
    ⟨_, Registry.reached_single hg hpath, by
      decide +kernel, by decide +kernel, by decide +kernel⟩
  refine ⟨r, hreached, ?_⟩
  intro t levels spans
  have hlevels : t.options.maxStackDepth.toNat ≤ levels + t.initialStack.depth := Nat.le_add_right _ _
  obtain ⟨rule, hsome, hcaptures⟩ := (Option.any_eq_true _ _).1 hrule
  have howned : t.Owned "x.a" rules :=
    owned_of_rule hsome (of_decide_eq_true hcaptures)
  exact ⟨hlevels, howned, hspans, tokenized_captures_scoped t held hreached levels t.initialStack hlevels
    line "x.a" rules howned found true (.startingAt 0) (.empty, .empty) rfl (by decide) hspans.1
    hspans.2⟩

set_option maxRecDepth 100000 in
/-- A group loses the scopes of the one around it when its rule has patterns. The groups of the match lie
within it and inside of each other, and the rule of the outer one has a name and no patterns; but only
the first token has its scopes, and the two tokens for the inner group do not. -/
theorem tokenized_capture_unscoped :
    let x : Part := .name { chars := ['x'] }
    let a : Part := .name { chars := ['a'] }
    let b : Part := .name { chars := ['b'] }
    let c : Part := .name { chars := ['c'] }
    let scope : Scope := ⟨[x, a], by decide⟩
    let held := Function.update (fun _ => none) "x.a" (some (Grammar.ofScoped groupInGroup scope))
    let line := IndexedText.ofText ['a', 'b', 'c', '\n']
    let found : Found := ⟨0, 3, [some ⟨0, 3⟩, some ⟨0, 3⟩, some ⟨1, 3⟩]⟩
    ∃ r : Registry, r.Reached held ∧
      let t : Tokenizer := ⟨r, "x.a", scope, .standard⟩
      let spans := t.scopedGroups "x.a" (List.zip [none, some 2, some 3] found.groups)
      (t.next? Searching.anew t.initialStack line 0 true ()).1 = some (.rule ⟨"x.a", 1⟩, found) ∧
      Laminar spans ∧ spans.map Prod.snd = [⟨0, 3⟩, ⟨1, 3⟩] ∧
      spans.map (fun g => g.1.kind.patterns.isEmpty) = [true, false] ∧
      spans.map (fun g => g.1.nameScopes line.text found.groups) =
        [[⟨[a, x], by decide⟩], [⟨[b, x], by decide⟩]] ∧
      (t.tokenizeLine ['a', 'b', 'c'] t.initialStack).1 =
        [⟨⟨0, 1⟩, [scope, ⟨[a, x], by decide⟩]⟩,
          ⟨⟨1, 2⟩, [scope, ⟨[b, x], by decide⟩]⟩,
          ⟨⟨2, 3⟩, [scope, ⟨[b, x], by decide⟩, ⟨[c, x], by decide⟩]⟩] := by
  intro x a b c scope held line found
  have hg : Grammar.ofDefinition groupInGroup = .ok (Grammar.ofScoped groupInGroup scope) := rfl
  have hpath : Registry.checkPath "x.a" = .ok () := rfl
  exact ⟨_, Registry.reached_single hg hpath, by decide +kernel⟩

end Tokenizer

end Highlight
