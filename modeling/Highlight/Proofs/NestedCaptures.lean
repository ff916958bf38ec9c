import Highlight.Pattern.Literal
import Highlight.Proofs.Links
import Highlight.Tokenizer

/-!
# Scopes follow the nesting of capture groups

The groups of a match come in the order in which they begin, and each lies inside of the ones that it
begins in. The tokens of a match are produced in one pass over them: a list of open groups tells, for
every byte from the place that has been reached on, the scopes that the groups seen so far give to it.

- `Paints`, `TokenList.Extends`: tokens for a range of bytes, each with scopes that are right for its
  bytes.
- `OpenCapture.scopesAt`, `OpenCapture.closeUpTo_extends`: the scopes that open groups give to a byte,
  and closing them produces just these.
- `Tokenizer.scopedGroups`, `Tokenizer.scopesOver`: the groups that count, and the scopes of a byte by
  the groups around it.
- `Tokenizer.Laminar`: groups that lie inside of each other or apart.
- `Tokenizer.produceGroups_group`: what one group does in the pass over the groups.
- `Tokenizer.Tracks`: the open groups know the scopes of every byte that is still to come.
- `Tokenizer.produceGroups_extends`: one pass gives every byte the scopes of the groups around it.
- `Tokenizer.captures_scoped_by_nesting`: the main statement.
-/

namespace Highlight

/-! ## Painting -/

/-- Tokens from one offset to another, without gaps and none of them empty, whose scopes are right for
each byte of theirs. -/
inductive Paints (Right : Nat → List Scope → Prop) : Nat → Nat → List Token → Prop
  | done (offset : Nat) : Paints Right offset offset []
  | next {start middle stop : Nat} {scopes : List Scope} {rest : List Token} : start < middle →
      (∀ i, start ≤ i → i < middle → Right i scopes) → Paints Right middle stop rest →
      Paints Right start stop (⟨⟨start, middle⟩, scopes⟩ :: rest)

namespace Paints

variable {Right Right' : Nat → List Scope → Prop} {start middle stop : Nat}
  {tokens more : List Token}

theorem append (h : Paints Right start middle tokens) (h' : Paints Right middle stop more) :
    Paints Right start stop (tokens ++ more) := by
  induction h with
  | done => exact h'
  | next hlt hright _ ih => exact .next hlt hright (ih h')

theorem le (h : Paints Right start stop tokens) : start ≤ stop := by
  induction h with
  | done => exact Nat.le_refl _
  | next hlt _ _ ih => exact Nat.le_trans (Nat.le_of_lt hlt) ih

/-- What is right within the range is all that matters. -/
theorem mono (h : Paints Right start stop tokens)
    (hright : ∀ i, start ≤ i → i < stop → ∀ scopes, Right i scopes → Right' i scopes) :
    Paints Right' start stop tokens := by
  induction h with
  | done offset => exact .done offset
  | @next start middle stop scopes rest hlt hhere hrest ih =>
    refine .next hlt (fun i hi hm => ?_) (ih fun i hi hs => hright i (by omega) hs)
    exact hright i hi (Nat.lt_of_lt_of_le hm hrest.le) scopes (hhere i hi hm)

end Paints

namespace TokenList

/-- Tokens with others behind them that paint the bytes up to an offset. -/
structure Extends (Right : Nat → List Scope → Prop) (tokens : TokenList) (stop : Nat)
    (tokens' : TokenList) : Prop where
  position : tokens'.position = stop
  painted : ∃ produced, tokens'.toList = tokens.toList ++ produced ∧
    Paints Right tokens.position stop produced

variable {Right Right' : Nat → List Scope → Prop} {tokens tokens' tokens'' : TokenList}
  {middle stop : Nat}

theorem Extends.trans (h : tokens.Extends Right middle tokens')
    (h' : tokens'.Extends Right stop tokens'') : tokens.Extends Right stop tokens'' := by
  obtain ⟨hposition, produced, hlist, hpaints⟩ := h
  obtain ⟨hposition', more, hlist', hpaints'⟩ := h'
  rw [hposition] at hpaints'
  refine ⟨hposition', produced ++ more, ?_, hpaints.append hpaints'⟩
  rw [hlist', hlist, List.append_assoc]

theorem Extends.mono (h : tokens.Extends Right stop tokens')
    (hright : ∀ i, tokens.position ≤ i → i < stop → ∀ scopes, Right i scopes → Right' i scopes) :
    tokens.Extends Right' stop tokens' := by
  obtain ⟨hposition, produced, hlist, hpaints⟩ := h
  exact ⟨hposition, produced, hlist, hpaints.mono hright⟩

/-- Producing a token paints the bytes up to its end. -/
theorem extends_produce (hle : tokens.position ≤ stop) {scopes : List Scope}
    (hright : ∀ i, tokens.position ≤ i → i < stop → Right i scopes) :
    tokens.Extends Right stop (tokens.produce stop scopes) := by
  refine ⟨by rw [position_produce, Nat.max_eq_right hle], ?_⟩
  rcases Nat.lt_or_ge tokens.position stop with hlt | hge
  · exact ⟨_, toList_produce_of_lt hlt scopes, .next hlt hright (.done stop)⟩
  · obtain rfl : tokens.position = stop := Nat.le_antisymm hle hge
    rw [produce_of_le hge]
    exact ⟨[], (List.append_nil _).symm, .done _⟩

end TokenList

/-! ## Open groups -/

namespace OpenCapture

variable {outside : List Scope} {opened : List OpenCapture} {tokens : TokenList} {offset i : Nat}

/-- The scopes that open groups give to a byte: those of the innermost one that reaches it. -/
def scopesAt (outside : List Scope) (opened : List OpenCapture) (i : Nat) : List Scope :=
  ((opened.find? fun c => i < c.stop).map OpenCapture.scopes).getD outside

theorem scopesAt_cons_of_lt {c : OpenCapture} (h : i < c.stop) :
    scopesAt outside (c :: opened) i = c.scopes := by
  rw [scopesAt, List.find?_cons_of_pos (by simpa using h)]
  rfl

theorem scopesAt_cons_of_le {c : OpenCapture} (h : c.stop ≤ i) :
    scopesAt outside (c :: opened) i = scopesAt outside opened i := by
  rw [scopesAt, List.find?_cons_of_neg (by simpa using h)]
  rfl

/-- **Closing groups up to an offset paints the bytes up to there** with the scopes that the groups give
to them. -/
theorem closeUpTo_extends (outside : List Scope) (opened : List OpenCapture)
    (hle : tokens.position ≤ offset) :
    tokens.Extends (fun i scopes => scopes = scopesAt outside opened i) offset
      ((closeUpTo offset opened tokens).2.produce offset
        (scopesOf outside (closeUpTo offset opened tokens).1)) := by
  induction opened generalizing tokens with
  | nil => exact TokenList.extends_produce hle fun _ _ _ => rfl
  | cons c rest ih =>
    unfold closeUpTo
    split
    · rename_i hstop
      rcases Nat.le_total c.stop tokens.position with hpast | hahead
      · rw [TokenList.produce_of_le hpast]
        refine (ih hle).mono fun i hi _ scopes hscopes => ?_
        rw [scopesAt_cons_of_le (Nat.le_trans hpast hi)]
        exact hscopes
      · have hfirst : tokens.Extends (fun i scopes => scopes = scopesAt outside (c :: rest) i) c.stop
            (tokens.produce c.stop c.scopes) :=
          TokenList.extends_produce hahead fun i _ hlt => (scopesAt_cons_of_lt hlt).symm
        refine hfirst.trans ((ih (by rwa [hfirst.position])).mono fun i hi _ scopes hscopes => ?_)
        rw [scopesAt_cons_of_le (hfirst.position ▸ hi)]
        exact hscopes
    · rename_i hstop
      refine TokenList.extends_produce hle fun i _ hlt => ?_
      rw [scopesAt_cons_of_lt (Nat.lt_trans hlt (Nat.lt_of_not_le hstop))]
      rfl

/-- The groups that stay open reach beyond the offset, and give the bytes from there on the same
scopes. -/
theorem closeUpTo_opened (offset : Nat) (outside : List Scope) (opened : List OpenCapture)
    (tokens : TokenList) :
    (∀ c ∈ (closeUpTo offset opened tokens).1, c ∈ opened) ∧
      (∀ i, offset ≤ i → scopesAt outside (closeUpTo offset opened tokens).1 i =
        scopesAt outside opened i) ∧
      scopesOf outside (closeUpTo offset opened tokens).1 = scopesAt outside opened offset := by
  induction opened generalizing tokens with
  | nil => exact ⟨fun _ h => h, fun _ _ => rfl, rfl⟩
  | cons c rest ih =>
    unfold closeUpTo
    split
    · rename_i hstop
      obtain ⟨hmem, hsame, htop⟩ := ih (tokens.produce c.stop c.scopes)
      refine ⟨fun d hd => List.mem_cons_of_mem c (hmem d hd), fun i hi => ?_, ?_⟩
      · rw [hsame i hi, scopesAt_cons_of_le (Nat.le_trans hstop hi)]
      · rw [htop, scopesAt_cons_of_le hstop]
    · rename_i hstop
      refine ⟨fun _ h => h, fun _ _ => rfl, ?_⟩
      rw [scopesAt_cons_of_lt (Nat.lt_of_not_le hstop)]
      rfl

/-- All groups that end up to an offset are closed there. -/
theorem closeUpTo_eq_closeAll (h : ∀ c ∈ opened, c.stop ≤ offset) (tokens : TokenList) :
    closeUpTo offset opened tokens = ([], closeAll opened tokens) := by
  induction opened generalizing tokens with
  | nil => rfl
  | cons c rest ih =>
    obtain ⟨hstop, hrest⟩ := List.forall_mem_cons.1 h
    rw [closeUpTo, if_pos hstop, ih hrest]
    rfl

end OpenCapture

/-! ## Groups inside of groups -/

namespace Span

/-- A byte of a span. -/
def Covers (s : Span) (i : Nat) : Prop := s.start ≤ i ∧ i < s.stop

instance (s : Span) (i : Nat) : Decidable (s.Covers i) := inferInstanceAs (Decidable (_ ∧ _))

/-- Spans without a common byte. -/
def Apart (s s' : Span) : Prop := s.stop ≤ s'.start ∨ s'.stop ≤ s.start

instance (s s' : Span) : Decidable (s.Apart s') := inferInstanceAs (Decidable (_ ∨ _))

/-- A span that lies inside of another one. -/
def Inside (s s' : Span) : Prop := s'.start ≤ s.start ∧ s.stop ≤ s'.stop

instance (s s' : Span) : Decidable (s.Inside s') := inferInstanceAs (Decidable (_ ∧ _))

end Span

section

variable [Engine]

namespace Tokenizer

variable {σ : Type} {t : Tokenizer} {retok : Retokenize σ} {stack : Stack} {line : List Char}
  {grammar : String} {groups : Groups} {firstLine : Bool} {outside : List Scope}
  {seen more : List (Rule × Span)} {g : Rule × Span} {stop i : Nat}

/-- The rule and the span of a group, if it took text and has a rule. -/
def scopedGroup? (t : Tokenizer) (grammar : String) : Option RuleId × Option Span → Option (Rule × Span)
  | (some id, some span) =>
    if span.start = span.stop then none
    else (t.rule? ⟨grammar, id⟩).map fun rule => (rule, span)
  | _ => none

/-- The groups that took text and have a rule, in their order. -/
def scopedGroups (t : Tokenizer) (grammar : String) (pairs : List (Option RuleId × Option Span)) :
    List (Rule × Span) :=
  pairs.filterMap (t.scopedGroup? grammar)

/-- The scopes of a byte by the groups around it: those outside of the match, and then those of each
group in order. -/
def scopesOver (line : List Char) (groups : Groups) (outside : List Scope)
    (spans : List (Rule × Span)) (i : Nat) : List Scope :=
  outside ++ (spans.filter fun g => g.2.Covers i).flatMap fun g => g.1.nameScopes line groups

/-- Groups in the order in which they begin, each of which lies inside of the ones in front of it or
apart from them. -/
def Laminar (spans : List (Rule × Span)) : Prop :=
  spans.Pairwise fun g h => g.2.start ≤ h.2.start ∧ (g.2.Apart h.2 ∨ h.2.Inside g.2)

instance (spans : List (Rule × Span)) : Decidable (Laminar spans) :=
  inferInstanceAs (Decidable (List.Pairwise _ _))

/-- Groups that do not cover a byte, or have no scopes, leave its scopes as they are. -/
theorem scopesOver_append (h : ∀ g ∈ more, g.2.Covers i → g.1.nameScopes line groups = []) :
    scopesOver line groups outside (seen ++ more) i = scopesOver line groups outside seen i := by
  have hnone :
      ((more.filter fun g => g.2.Covers i).flatMap fun g => g.1.nameScopes line groups) = [] := by
    refine List.flatMap_eq_nil_iff.2 fun g hg => ?_
    obtain ⟨hmem, hcovers⟩ := List.mem_filter.1 hg
    exact h g hmem (of_decide_eq_true hcovers)
  rw [scopesOver, scopesOver, List.filter_append, List.flatMap_append, hnone, List.append_nil]

/-- **Within a group the groups around it stay the same.** -/
theorem scopesOver_concat (hlaminar : Laminar (seen ++ [g])) (hg : g.2.Covers i) :
    scopesOver line groups outside (seen ++ [g]) i =
      scopesOver line groups outside seen g.2.start ++ g.1.nameScopes line groups := by
  have haround : (seen.filter fun p => p.2.Covers i) = seen.filter fun p => p.2.Covers g.2.start := by
    refine List.filter_congr fun p hp => ?_
    obtain ⟨hbefore, hnested⟩ :=
      (List.pairwise_append.1 hlaminar).2.2 p hp g (List.mem_singleton.2 rfl)
    obtain ⟨hstart, hstop⟩ := hg
    rw [decide_eq_decide]
    unfold Span.Apart Span.Inside at hnested
    unfold Span.Covers
    omega
  rw [scopesOver, scopesOver, List.filter_append, haround, List.filter_cons_of_pos (by simpa using hg),
    List.filter_nil, List.flatMap_append, List.flatMap_singleton, List.append_assoc]

/-- A group that took no text or has no rule is passed over. -/
theorem produceGroups_skip {pair : Option RuleId × Option Span}
    (h : t.scopedGroup? grammar pair = none) (rest : List (Option RuleId × Option Span))
    (opened : List OpenCapture) (tokens : TokenList) (memory : σ) :
    t.produceGroups retok stack line grammar groups firstLine (pair :: rest) opened tokens memory =
      t.produceGroups retok stack line grammar groups firstLine rest opened tokens memory := by
  obtain ⟨id?, span?⟩ := pair
  match id?, span? with
  | none, _ => rfl
  | some id, none => rfl
  | some id, some span =>
    rw [produceGroups]
    split
    · rfl
    · rename_i hsome
      rw [scopedGroup?, if_neg hsome, Option.map_eq_none_iff] at h
      rw [h]

/-- **What one group does.** The groups that end in front of it are closed. Then its text is tokenized
again, or it is opened if it has scopes. -/
theorem produceGroups_group (retok : Retokenize σ) (stack : Stack) (line : List Char) (groups : Groups)
    (firstLine : Bool) {pair : Option RuleId × Option Span} (h : t.scopedGroup? grammar pair = some g)
    (rest : List (Option RuleId × Option Span)) (opened : List OpenCapture) (tokens : TokenList)
    (memory : σ) :
    ∃ id, pair.1 = some id ∧ t.rule? ⟨grammar, id⟩ = some g.1 ∧
      let closed := OpenCapture.closeUpTo g.2.start opened tokens
      let outer := OpenCapture.scopesOf stack.scopes closed.1
      let scopes := g.1.nameScopes line groups
      t.produceGroups retok stack line grammar groups firstLine (pair :: rest) opened tokens memory =
        match t.captureTokens? retok stack ⟨grammar, id⟩ g.1 line groups g.2 firstLine memory with
        | some (inner, memory) =>
          t.produceGroups retok stack line grammar groups firstLine rest closed.1
            ((closed.2.produce g.2.start outer).produceAll inner) memory
        | none =>
          t.produceGroups retok stack line grammar groups firstLine rest
            (if scopes.isEmpty then closed.1 else ⟨outer ++ scopes, g.2.stop⟩ :: closed.1)
            (closed.2.produce g.2.start outer) memory := by
  obtain ⟨id?, span?⟩ := pair
  match id?, span? with
  | none, _ => cases h
  | some id, none => cases h
  | some id, some span =>
    rw [scopedGroup?] at h
    split at h
    · cases h
    · rename_i hsome
      obtain ⟨rule, hrule, rfl⟩ := Option.map_eq_some_iff.1 h
      refine ⟨id, rfl, hrule, ?_⟩
      rw [produceGroups]
      cases hcaptured : t.captureTokens? retok stack ⟨grammar, id⟩ rule line groups span firstLine memory with
      | none => simp only [if_neg hsome, hrule, hcaptured]
      | some result => simp only [if_neg hsome, hrule, hcaptured]

/-- A group whose rule has no patterns is opened, once those that end in front of it are closed. -/
theorem produceGroups_open {pair : Option RuleId × Option Span}
    (h : t.scopedGroup? grammar pair = some g) (hplain : g.1.kind.patterns = [])
    (rest : List (Option RuleId × Option Span)) (opened : List OpenCapture) (tokens : TokenList)
    (memory : σ) :
    t.produceGroups retok stack line grammar groups firstLine (pair :: rest) opened tokens memory =
      let closed := OpenCapture.closeUpTo g.2.start opened tokens
      let outer := OpenCapture.scopesOf stack.scopes closed.1
      let scopes := g.1.nameScopes line groups
      t.produceGroups retok stack line grammar groups firstLine rest
        (if scopes.isEmpty then closed.1 else ⟨outer ++ scopes, g.2.stop⟩ :: closed.1)
        (closed.2.produce g.2.start outer) memory := by
  obtain ⟨id, -, -, hproduce⟩ :=
    produceGroups_group retok stack line groups firstLine h rest opened tokens memory
  have hnone : t.captureTokens? retok stack ⟨grammar, id⟩ g.1 line groups g.2 firstLine memory = none := by
    rw [captureTokens?, if_pos (List.isEmpty_iff.2 hplain)]
  rw [hproduce, hnone]

/-! ## One pass over the groups -/

/-- The open groups give each byte from a place on the scopes of the groups seen, and end within the
match. -/
structure Tracks (line : List Char) (groups : Groups) (outside : List Scope)
    (seen : List (Rule × Span)) (position stop : Nat) (opened : List OpenCapture) : Prop where
  scopes : ∀ i, position ≤ i →
    OpenCapture.scopesAt outside opened i = scopesOver line groups outside seen i
  stops : ∀ c ∈ opened, c.stop ≤ stop

/-- **Opening a group keeps track**, when the groups that end in front of it have been closed. -/
theorem Tracks.step {position : Nat} {opened : List OpenCapture}
    (h : Tracks line groups outside seen position stop opened) (tokens : TokenList)
    (hposition : position ≤ g.2.start) (hstop : g.2.stop ≤ stop)
    (hlaminar : Laminar (seen ++ [g])) :
    let closed := (OpenCapture.closeUpTo g.2.start opened tokens).1
    let scopes := g.1.nameScopes line groups
    Tracks line groups outside (seen ++ [g]) g.2.start stop
      (if scopes.isEmpty then closed
        else ⟨OpenCapture.scopesOf outside closed ++ scopes, g.2.stop⟩ :: closed) := by
  intro closed scopes
  obtain ⟨hmem, hsame, htop⟩ := OpenCapture.closeUpTo_opened g.2.start outside opened tokens
  have hclosed : ∀ i, g.2.start ≤ i →
      OpenCapture.scopesAt outside closed i = scopesOver line groups outside seen i :=
    fun i hi => (hsame i hi).trans (h.scopes i (Nat.le_trans hposition hi))
  have houter : OpenCapture.scopesOf outside closed = scopesOver line groups outside seen g.2.start :=
    htop.trans (h.scopes _ hposition)
  have hbehind : ∀ i, (g.2.Covers i → scopes = []) →
      scopesOver line groups outside (seen ++ [g]) i = scopesOver line groups outside seen i := by
    intro i hi
    refine scopesOver_append fun g' hg' => ?_
    rwa [List.mem_singleton.1 hg']
  split
  · rename_i hempty
    refine ⟨fun i hi => ?_, fun c hc => h.stops c (hmem c hc)⟩
    rw [hclosed i hi, hbehind i fun _ => List.isEmpty_iff.1 hempty]
  · refine ⟨fun i hi => ?_, List.forall_mem_cons.2 ⟨hstop, fun c hc => h.stops c (hmem c hc)⟩⟩
    rcases Nat.lt_or_ge i g.2.stop with hinside | hpast
    · rw [OpenCapture.scopesAt_cons_of_lt hinside, scopesOver_concat hlaminar ⟨hi, hinside⟩, houter]
    · rw [OpenCapture.scopesAt_cons_of_le hpast, hclosed i hi,
        hbehind i fun hcovers => absurd hcovers.2 (Nat.not_lt.2 hpast)]

/-- **Closing groups up to an offset gives the bytes in front of it the scopes of the groups around
them**, when the groups to come do not begin earlier. -/
theorem Tracks.extends_closeUpTo {opened : List OpenCapture} {tokens : TokenList} {offset : Nat}
    (h : Tracks line groups outside seen tokens.position stop opened)
    (hle : tokens.position ≤ offset) (hlater : ∀ g ∈ more, offset ≤ g.2.start) :
    tokens.Extends (fun i scopes => scopes = scopesOver line groups outside (seen ++ more) i) offset
      ((OpenCapture.closeUpTo offset opened tokens).2.produce offset
        (OpenCapture.scopesOf outside (OpenCapture.closeUpTo offset opened tokens).1)) := by
  refine (OpenCapture.closeUpTo_extends outside opened hle).mono ?_
  intro i hi hbefore scopes hscopes
  have hcome : ∀ g ∈ more, g.2.Covers i → g.1.nameScopes line groups = [] := by
    intro g hg hcovers
    exact absurd hcovers.1 (Nat.not_le.2 (Nat.lt_of_lt_of_le hbefore (hlater g hg)))
  rw [scopesOver_append hcome]
  exact hscopes.trans (h.scopes i hi)

/-- **One pass over the groups gives every byte the scopes of the groups around it.** -/
theorem produceGroups_extends (seen : List (Rule × Span)) {pairs : List (Option RuleId × Option Span)}
    {opened : List OpenCapture} {tokens : TokenList} (memory : σ)
    (hplain : ∀ g ∈ t.scopedGroups grammar pairs, g.1.kind.patterns = [])
    (hahead : ∀ g ∈ t.scopedGroups grammar pairs,
      tokens.position ≤ g.2.start ∧ g.2.start < g.2.stop ∧ g.2.stop ≤ stop)
    (hlaminar : Laminar (seen ++ t.scopedGroups grammar pairs)) (hle : tokens.position ≤ stop)
    (h : Tracks line groups stack.scopes seen tokens.position stop opened) :
    tokens.Extends (fun i scopes => scopes =
        scopesOver line groups stack.scopes (seen ++ t.scopedGroups grammar pairs) i) stop
      ((t.produceGroups retok stack line grammar groups firstLine pairs opened tokens memory).1.produce
        stop stack.scopes) := by
  induction pairs generalizing seen opened tokens memory with
  | nil =>
    have hclosed := h.extends_closeUpTo hle fun _ hg => absurd hg List.not_mem_nil
    rwa [OpenCapture.closeUpTo_eq_closeAll h.stops] at hclosed
  | cons pair rest ih =>
    cases hgroup : t.scopedGroup? grammar pair with
    | none =>
      have hskip : t.scopedGroups grammar (pair :: rest) = t.scopedGroups grammar rest :=
        List.filterMap_cons_none hgroup
      rw [hskip] at hplain hahead hlaminar ⊢
      rw [produceGroups_skip hgroup]
      exact ih _ memory hplain hahead hlaminar hle h
    | some g =>
      have htake : t.scopedGroups grammar (pair :: rest) = g :: t.scopedGroups grammar rest :=
        List.filterMap_cons_some hgroup
      rw [htake] at hplain hahead hlaminar ⊢
      obtain ⟨hpatterns, hplain⟩ := List.forall_mem_cons.1 hplain
      obtain ⟨⟨hposition, hlt, hstop⟩, hrest⟩ := List.forall_mem_cons.1 hahead
      -- the later groups begin no earlier than this one
      have horder : ∀ g' ∈ g :: t.scopedGroups grammar rest, g.2.start ≤ g'.2.start := by
        obtain ⟨hfirst, -⟩ := List.pairwise_cons.1 (List.pairwise_append.1 hlaminar).2.1
        exact List.forall_mem_cons.2 ⟨Nat.le_refl _, fun g' hg' => (hfirst g' hg').1⟩
      have hfirst := h.extends_closeUpTo hposition horder
      rw [List.append_cons] at hlaminar hfirst ⊢
      have htracks := h.step tokens hposition hstop (List.pairwise_append.1 hlaminar).1
      rw [produceGroups_open hgroup hpatterns]
      refine hfirst.trans (ih _ memory hplain ?_ hlaminar ?_ ?_)
      · rw [hfirst.position]
        exact fun g' hg' => ⟨horder g' (List.mem_cons_of_mem _ hg'), (hrest g' hg').2⟩
      · rw [hfirst.position]
        exact Nat.le_trans (Nat.le_of_lt hlt) hstop
      · rw [hfirst.position]
        exact htracks

/-- **The scopes of a match follow the nesting of its groups.** When the rules of the groups have no
patterns and the groups lie within the match, in the order in which they begin and inside of each other
or apart, then every byte of the match has the scopes of the stack and behind them those of all groups
around it, in the order of the groups. -/
theorem captures_scoped_by_nesting (t : Tokenizer) (retok : Retokenize σ) (stack : Stack)
    (line : IndexedText) (grammar : String) (rules : CaptureRules) (found : Found) (firstLine : Bool)
    (tokens : TokenList) (memory : σ) (hposition : tokens.position = found.start)
    (hmatch : found.start ≤ found.stop)
    (hplain : ∀ g ∈ t.scopedGroups grammar (rules.zip found.groups), g.1.kind.patterns = [])
    (hwithin : ∀ g ∈ t.scopedGroups grammar (rules.zip found.groups),
      found.start ≤ g.2.start ∧ g.2.start < g.2.stop ∧ g.2.stop ≤ found.stop)
    (hlaminar : Laminar (t.scopedGroups grammar (rules.zip found.groups))) :
    tokens.Extends (fun i scopes => scopes = scopesOver line.text found.groups stack.scopes
        (t.scopedGroups grammar (rules.zip found.groups)) i) found.stop
      (t.produceMatch retok stack line grammar rules found firstLine tokens memory).1 := by
  have htracks : Tracks line.text found.groups stack.scopes [] tokens.position found.stop [] := by
    refine ⟨fun i _ => ?_, nofun⟩
    exact (List.append_nil _).symm
  exact produceGroups_extends [] memory hplain (by rwa [hposition]) hlaminar
    (by rwa [hposition]) htracks

end Tokenizer

end

namespace Tokenizer

set_option maxRecDepth 100000 in
/-- A group inside of another one, both of them in a group without a name. One more group took no part
in the match, and one took no text. -/
theorem captures_scoped_by_nesting_two :
    let x : Part := .name { chars := ['x'] }
    let a : Part := .name { chars := ['a'] }
    let b : Part := .name { chars := ['b'] }
    let named (name : Option String) : RuleDefinition := { keys := { name := name } }
    let single : RuleDefinition :=
      { keys := { matchText := some "(c(a(b)))(d)?()" },
        captures := some [("1", named none), ("2", named (some "a.x")), ("3", named (some "b.x")), ("4", named (some "a.a")), ("5", named (some "b.b"))] }
    let d : GrammarDefinition := { scopeName := some "x.a", patterns := [single] }
    let scope : Scope := ⟨[x, a], by decide⟩
    let held := Function.update (fun _ => none) "x.a" (some (Grammar.ofScoped d scope))
    let line := IndexedText.ofText ['c', 'a', 'b', 'c']
    let rules : CaptureRules := [none, some 2, some 3, some 4, some 5, some 6]
    let found : Found :=
      ⟨0, 3, [some ⟨0, 3⟩, some ⟨0, 3⟩, some ⟨1, 3⟩, some ⟨2, 3⟩, none, some ⟨3, 3⟩]⟩
    let retok : Retokenize Unit := fun _ _ _ _ memory => ([], memory)
    ∃ r : Registry, r.Reached held ∧
      let t : Tokenizer := ⟨r, "x.a", scope, .standard⟩
      let spans := t.scopedGroups "x.a" (rules.zip found.groups)
      (spans.map Prod.snd = [⟨0, 3⟩, ⟨1, 3⟩, ⟨2, 3⟩] ∧
        scopesOver line.text found.groups [scope] spans 2 =
          [scope, ⟨[a, x], by decide⟩, ⟨[b, x], by decide⟩]) ∧
      (TokenList.startingAt 0).Extends
        (fun i scopes => scopes = scopesOver line.text found.groups [scope] spans i) 3
        (t.produceMatch retok t.initialStack line "x.a" rules found true (.startingAt 0) ()).1 := by
  intro x a b named single d scope held line rules found retok
  have hg : Grammar.ofDefinition d = .ok (Grammar.ofScoped d scope) := rfl
  have hpath : Registry.checkPath "x.a" = .ok () := rfl
  -- the groups are worked out before the registry is hidden behind its name
  obtain ⟨r, hreached, hspans, hplain, hwithin, hlaminar⟩ : ∃ r : Registry, r.Reached held ∧
      let t : Tokenizer := ⟨r, "x.a", scope, .standard⟩
      let spans := t.scopedGroups "x.a" (rules.zip found.groups)
      (spans.map Prod.snd = [⟨0, 3⟩, ⟨1, 3⟩, ⟨2, 3⟩] ∧
        scopesOver line.text found.groups [scope] spans 2 =
          [scope, ⟨[a, x], by decide⟩, ⟨[b, x], by decide⟩]) ∧
      (∀ g ∈ spans, g.1.kind.patterns = []) ∧
      (∀ g ∈ spans, 0 ≤ g.2.start ∧ g.2.start < g.2.stop ∧ g.2.stop ≤ 3) ∧ Laminar spans :=
    ⟨_, Registry.reached_single hg hpath, by
      decide +kernel, by decide +kernel, by decide +kernel, by decide +kernel⟩
  refine ⟨r, hreached, ?_⟩
  intro t spans
  exact ⟨hspans, captures_scoped_by_nesting t retok t.initialStack line "x.a" rules found true
    (.startingAt 0) () rfl (by decide) hplain hwithin hlaminar⟩

end Tokenizer

end Highlight
