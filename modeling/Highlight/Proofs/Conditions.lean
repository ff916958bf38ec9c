import Highlight.Pattern.Literal
import Highlight.Proofs.Coverage
import Highlight.Proofs.Leftmost
import Highlight.Proofs.Links
import Highlight.Proofs.Tables

/-!
# Conditions at the start of a line

At the start of a line the open regions are gone through from the outermost on. A region whose rule has
a condition stays open if the condition matches right at the place that the line has been taken up to,
and the place moves to the end of the match. Any other region stays open as it is. The first region
whose condition does not match there is closed, with all regions inside of it.

- `Pattern.findAt?_start_le_stop`: a match does not begin after its end.
- `Tokenizer.conditionOf`: the condition of a frame.
- `Tokenizer.Stays`, `Tokenizer.AllStay`, `Tokenizer.Stops`: frames that stay open one after the other,
  and a frame that does not.
- `Tokenizer.conditions_kept`, `Tokenizer.start_kept`: the frames that are kept, from any state on and in
  front of the first step of a text.
- `Tokenizer.conditions_keep_prefix`: the main statement.
-/

namespace Highlight

section

variable [Engine]

/-! ## Matches run forwards -/

namespace Pattern

/-- **A match does not begin after its end.** -/
theorem findAt?_start_le_stop {p : Pattern} {line : IndexedText} {offset : Nat} {firstLine : Bool}
    {found : Found} (h : p.findAt? line offset firstLine = some found) :
    found.start ≤ found.stop := by
  obtain ⟨place, -, h⟩ := Option.bind_eq_some_iff.1 h
  unfold findFrom? at h
  split at h
  · cases h
  · split at h
    · split at h
      · rename_i m _
        split at h
        · cases h
          exact line.offset_le_offset m.start_le_stop
        · cases h
      · cases h
    · obtain ⟨m, -, rfl⟩ := Option.map_eq_some_iff.1 h
      exact line.offset_le_offset m.start_le_stop

end Pattern

/-! ## Frames that stay open -/

namespace Tokenizer

/-- The condition of a frame whose rule has one: with the captured text filled in, if there was any to
fill in. -/
def conditionOf (w : WhileRule) (f : Frame) : Pattern :=
  match f.endPattern with
  | some text => .ofEndText text
  | none => w.condition

/-- A frame stays open, and takes the line from one place to another. A place is an offset, together with
whether the start of the document can still match there. -/
inductive Stays (t : Tokenizer) (line : IndexedText) (f : Frame) (place : Nat × Bool) :
    Nat × Bool → Prop
  /-- Its rule has no condition, or is not known. -/
  | free (unguarded : ∀ rule w, t.rule? f.rule = some rule → rule.kind ≠ .guarded w) :
      Stays t line f place place
  /-- Its condition matches at the place, which moves to the end of the match. -/
  | met {rule : Rule} {w : WhileRule} {found : Found} (known : t.rule? f.rule = some rule)
      (guarded : rule.kind = .guarded w)
      (matched : (conditionOf w f).findAt? line place.1 place.2 = some found)
      (here : found.start = place.1) :
      Stays t line f place (found.stop, place.2 && found.stop == place.1)

/-- Frames stay open one after the other. -/
inductive AllStay (t : Tokenizer) (line : IndexedText) :
    List Frame → Nat × Bool → Nat × Bool → Prop
  | nil (place : Nat × Bool) : AllStay t line [] place place
  | cons {f : Frame} {rest : List Frame} {place middle last : Nat × Bool} :
      t.Stays line f place middle → AllStay t line rest middle last →
      AllStay t line (f :: rest) place last

/-- A frame does not stay open: its rule has a condition, which does not match at the place. -/
def Stops (t : Tokenizer) (line : IndexedText) (f : Frame) (place : Nat × Bool) : Prop :=
  ∃ rule w, t.rule? f.rule = some rule ∧ rule.kind = .guarded w ∧
    ∀ found, (conditionOf w f).findAt? line place.1 place.2 = some found → found.start ≠ place.1

variable {σ : Type} {t : Tokenizer} {line : IndexedText} {f : Frame} {w : WhileRule}
  {place place' : Nat × Bool}

/-- The place does not go back. -/
theorem Stays.le (h : t.Stays line f place place') : place.1 ≤ place'.1 := by
  cases h with
  | free => exact Nat.le_refl _
  | met _ _ matched here => exact here ▸ Pattern.findAt?_start_le_stop matched

theorem guard?_eq_none_iff :
    t.guard? f = none ↔ ∀ rule w, t.rule? f.rule = some rule → rule.kind ≠ .guarded w := by
  unfold guard?
  constructor
  · intro h rule w hrule hkind
    rw [hrule, Option.map_some, hkind] at h
    cases h
  · intro h
    split
    · rename_i w hkind
      obtain ⟨rule, hrule, hw⟩ := Option.map_eq_some_iff.1 hkind
      exact absurd hw (h rule w hrule)
    · rfl

theorem guard?_eq_some_iff :
    t.guard? f = some w ↔ ∃ rule, t.rule? f.rule = some rule ∧ rule.kind = .guarded w := by
  unfold guard?
  constructor
  · intro h
    split at h
    · rename_i w' hkind
      cases h
      exact Option.map_eq_some_iff.1 hkind
    · cases h
  · rintro ⟨rule, hrule, hkind⟩
    rw [hrule, Option.map_some, hkind]

theorem meets?_eq_some_iff {condition : Pattern} {position : Nat} {firstLine : Bool} {found : Found} :
    meets? condition line position firstLine = some found ↔
      condition.findAt? line position firstLine = some found ∧ found.start = position := by
  unfold meets?
  cases condition.findAt? line position firstLine with
  | none => exact ⟨nofun, fun h => nomatch h.1⟩
  | some other =>
    simp only
    split
    · rename_i hstart
      constructor
      · rintro ⟨⟩
        exact ⟨rfl, hstart⟩
      · exact fun h => h.1
    · rename_i hstart
      constructor
      · exact nofun
      · rintro ⟨⟨⟩, hstart'⟩
        exact absurd hstart' hstart

theorem meets?_eq_none_iff {condition : Pattern} {position : Nat} {firstLine : Bool} :
    meets? condition line position firstLine = none ↔
      ∀ found, condition.findAt? line position firstLine = some found → found.start ≠ position := by
  rw [Option.eq_none_iff_forall_ne_some]
  constructor
  · intro h found hfound hstart
    exact h found (meets?_eq_some_iff.2 ⟨hfound, hstart⟩)
  · intro h found hmeets
    obtain ⟨hfound, hstart⟩ := meets?_eq_some_iff.1 hmeets
    exact h found hfound hstart

/-! ## Going through the frames -/

omit [Engine] in
/-- Behind a match that does not end in front of the place, the place is the end of the match. -/
theorem place_moveOn {s : LineState σ} {found : Found} (h : s.position ≤ found.stop) :
    ((moveOn line s found false).position, (moveOn line s found false).firstLine) =
      (found.stop, s.firstLine && found.stop == s.position) := by
  unfold moveOn
  split
  · rename_i hlt
    rw [beq_false_of_ne (Nat.ne_of_gt hlt), Bool.and_false]
  · rename_i hle
    have heq : found.stop = s.position := by omega
    rw [heq, beq_self_eq_true, Bool.and_true]
    rfl

omit [Engine] in
/-- The stack with frames put on top, one after the other. -/
theorem foldl_push (s : Stack) (frames : List Frame) :
    frames.foldl Stack.push s = { s with above := frames.reverse ++ s.above } := by
  induction frames generalizing s with
  | nil => rfl
  | cons f rest ih =>
    rw [List.foldl_cons, ih, List.reverse_cons, List.append_assoc]
    rfl

/-- **The frames are kept up to the first that does not stay open**, by induction on the frames that are
left. The text in front of the place has tokens all along. -/
theorem conditions_kept (t : Tokenizer) (retok : Retokenize SearchMemory) (line : IndexedText)
    (frames : List Frame) (s : LineState SearchMemory) (hposition : s.position ≤ s.tokens.position) :
    let s' := t.conditions Searching.remembering retok line frames s
    ∃ kept rest, frames = kept ++ rest ∧ s'.stack = kept.foldl Stack.push s.stack ∧
      t.AllStay line kept (s.position, s.firstLine) (s'.position, s'.firstLine) ∧
      (∀ f ∈ rest.head?, t.Stops line f (s'.position, s'.firstLine)) ∧
      s'.position ≤ s'.tokens.position := by
  induction frames generalizing s with
  | nil => exact ⟨[], [], rfl, rfl, .nil _, nofun, hposition⟩
  | cons f rest ih =>
    intro s'
    cases hguard : t.guard? f with
    | none =>
      have hgo : s' =
          t.conditions Searching.remembering retok line rest { s with stack := s.stack.push f } := by
        show t.conditions Searching.remembering retok line (f :: rest) s = _
        rw [conditions, hguard]
      obtain ⟨kept, behind, rfl, hstack, hstay, hstops, hlast⟩ :=
        ih { s with stack := s.stack.push f } hposition
      rw [hgo]
      exact ⟨f :: kept, behind, rfl, hstack, .cons (.free (guard?_eq_none_iff.1 hguard)) hstay, hstops,
        hlast⟩
    | some w =>
      obtain ⟨rule, hrule, hkind⟩ := guard?_eq_some_iff.1 hguard
      have hfilled : Searching.remembering.filledPattern w.condition f.endPattern s.memory =
          (conditionOf w f, s.memory) := by
        unfold Searching.filledPattern conditionOf
        cases f.endPattern <;> rfl
      cases hmeets : meets? (conditionOf w f) line s.position s.firstLine with
      | none =>
        have hgo : s' = s := by
          show t.conditions Searching.remembering retok line (f :: rest) s = _
          simp only [conditions, hguard, hfilled, hmeets]
        rw [hgo]
        refine ⟨[], f :: rest, rfl, rfl, .nil _, ?_, hposition⟩
        rintro _ ⟨⟩
        exact ⟨rule, w, hrule, hkind, meets?_eq_none_iff.1 hmeets⟩
      | some found =>
        obtain ⟨hfound, hstart⟩ := meets?_eq_some_iff.1 hmeets
        have hforward : s.position ≤ found.stop := hstart ▸ Pattern.findAt?_start_le_stop hfound
        let produced := t.produceMatch retok (s.stack.push f) line f.rule.grammar w.conditionCaptures
          found s.firstLine (s.tokens.produce s.position f.contentScopes) s.memory
        let next := moveOn line
          { s with stack := s.stack.push f, tokens := produced.1, memory := produced.2 } found false
        have hgo : s' = t.conditions Searching.remembering retok line rest next := by
          show t.conditions Searching.remembering retok line (f :: rest) s = _
          simp only [conditions, hguard, hfilled, hmeets]
          rfl
        have hplace : (next.position, next.firstLine) =
            (found.stop, s.firstLine && found.stop == s.position) := place_moveOn hforward
        have htokens : next.position ≤ next.tokens.position := by
          have hstop : next.position = found.stop := congrArg Prod.fst hplace
          rw [hstop]
          show found.stop ≤ (moveOn line _ found false).tokens.position
          rw [tokens_moveOn]
          show found.stop ≤ (TokenList.produce _ found.stop _).position
          rw [TokenList.position_produce]
          exact Nat.le_max_right _ _
        obtain ⟨kept, behind, rfl, hstack, hstay, hstops, hlast⟩ := ih next htokens
        rw [hgo]
        refine ⟨f :: kept, behind, rfl, ?_, ?_, hstops, hlast⟩
        · rw [hstack]
          show kept.foldl Stack.push (moveOn line _ found false).stack = _
          rw [stack_moveOn]
          rfl
        · rw [hplace] at hstay
          exact .cons (.met hrule hkind hfound hstart) hstay

/-- The frames that are there in front of the first step of a text. Tables do not show, so it is enough to
look at a run that keeps none. -/
theorem start_kept (t : Tokenizer) (text : List Char) (stack : Stack) {tables : Tables}
    (hserved : t.Served tables) :
    let s := t.start Searching.remembering.keeping
      (t.retokenize Searching.remembering.keeping t.options.maxStackDepth.toNat) (.ofText text) stack
      (.empty, tables)
    ∃ kept rest, stack.above.reverse = kept ++ rest ∧
      s.stack = { stack with above := kept.reverse } ∧
      t.AllStay (.ofText text) kept (0, stack.firstLine) (s.position, s.firstLine) ∧
      (∀ f ∈ rest.head?, t.Stops (.ofText text) f (s.position, s.firstLine)) ∧
      s.position ≤ s.tokens.position := by
  intro s
  have hhidden : Tables.Hidden t (.ofText []) true (.empty, tables) .empty := ⟨rfl, hserved.right⟩
  have halike := start_retokenize_alike (Searching.keeping_simulates t) t.options.maxStackDepth.toNat
    (.ofText text) stack hhidden
  obtain ⟨kept, rest, hframes, hstack, hstay, hstops, hposition⟩ := conditions_kept t
    (t.retokenize Searching.remembering t.options.maxStackDepth.toNat) (.ofText text)
    stack.above.reverse ⟨{ stack with above := [] }, .startingAt 0, 0, stack.firstLine,
      Searching.remembering.enter stack.firstLine .empty⟩ (Nat.le_refl 0)
  rw [foldl_push, List.append_nil] at hstack
  refine ⟨kept, rest, hframes, halike.stack.trans hstack, ?_, ?_, ?_⟩
  · rw [halike.position, halike.firstLine]
    exact hstay
  · rw [halike.position, halike.firstLine]
    exact hstops
  · rw [halike.position, halike.tokens]
    exact hposition

/-- **The conditions keep a prefix of the frames**, for every stack and every text and whatever has been
worked out before. The frames are gone through from the one above the bottom on, with a place that
starts at the start of the text. Those that are kept stay open one after the other, unchanged. The place
does not go back, and all text in front of it has tokens. If a frame is not kept, the first such frame
has a condition that does not match at the place. -/
theorem conditions_keep_prefix (t : Tokenizer) (text : List Char) (stack : Stack) (tables : Tables)
    (hserved : t.Served tables) :
    let s := t.start Searching.remembering.keeping
      (t.retokenize Searching.remembering.keeping t.options.maxStackDepth.toNat) (.ofText text) stack
      (.empty, tables)
    ∃ kept rest, stack.above.reverse = kept ++ rest ∧
      s.stack = { stack with above := kept.reverse } ∧
      t.AllStay (.ofText text) kept (0, stack.firstLine) (s.position, s.firstLine) ∧
      (∀ f ∈ kept, ∀ place place', t.Stays (.ofText text) f place place' → place.1 ≤ place'.1) ∧
      (∀ f ∈ rest.head?, t.Stops (.ofText text) f (s.position, s.firstLine)) ∧
      s.tokens.TilesFrom text 0 ∧ s.position ≤ s.tokens.position := by
  intro s
  obtain ⟨kept, rest, hframes, hstack, hstay, hstops, hposition⟩ := start_kept t text stack hserved
  have hcovers : StateCovers _ (.ofText text) 0 s :=
    conditions_covers t Searching.sound_remembering.keeping
      (retokenize_sound t Searching.sound_remembering.keeping t.options.maxStackDepth.toNat)
      ⟨TokenList.tilesFrom_startingAt text 0, Searching.sound_remembering.keeping.enter _ _ _⟩
      (Text.isBoundary_zero text)
  exact ⟨kept, rest, hframes, hstack, hstay, fun _ _ _ _ h => h.le, hstops, hcovers.1, hposition⟩

end Tokenizer

end

namespace Tokenizer

set_option maxRecDepth 100000 in
/-- A list inside of a quotation, each with a condition. The next line goes on with the quotation only:
its condition takes the first character, and that of the list does not match behind it. -/
theorem conditions_keep_prefix_quotation :
    let x : Part := .name { chars := ['x'] }
    let a : Part := .name { chars := ['a'] }
    let guarded (opening condition : String) (patterns : List RuleDefinition) : RuleDefinition :=
      { keys := { beginText := some opening, whileText := some condition },
        patterns := some patterns }
    let d : GrammarDefinition :=
      { scopeName := some "x.a", patterns := [guarded ">" ">" [guarded "-" " " []]] }
    let scope : Scope := ⟨[x, a], by decide⟩
    let held := Function.update (fun _ => none) "x.a" (some (Grammar.ofScoped d scope))
    let text := ['>', 'y', '\n']
    ∃ r : Registry, r.Reached held ∧
      let t : Tokenizer := ⟨r, "x.a", scope, .standard⟩
      let stack := (t.tokenizeLine ['>', '-'] t.initialStack).2
      let s := t.start Searching.remembering.keeping
        (t.retokenize Searching.remembering.keeping t.options.maxStackDepth.toNat) (.ofText text) stack
        (.empty, .empty)
      t.Served .empty ∧ (stack.depth = 3 ∧ s.stack.depth = 2 ∧ s.position = 1) ∧
      ∃ kept rest, stack.above.reverse = kept ++ rest ∧
        t.AllStay (.ofText text) kept (0, stack.firstLine) (s.position, s.firstLine) ∧
        ∀ f ∈ rest.head?, t.Stops (.ofText text) f (s.position, s.firstLine) := by
  intro x a guarded d scope held text
  have hg : Grammar.ofDefinition d = .ok (Grammar.ofScoped d scope) := rfl
  have hpath : Registry.checkPath "x.a" = .ok () := rfl
  -- the frames are counted before the registry is hidden behind its name
  obtain ⟨r, hreached, hframes⟩ : ∃ r : Registry, r.Reached held ∧
      let t : Tokenizer := ⟨r, "x.a", scope, .standard⟩
      let stack := (t.tokenizeLine ['>', '-'] t.initialStack).2
      let s := t.start Searching.remembering.keeping
        (t.retokenize Searching.remembering.keeping t.options.maxStackDepth.toNat) (.ofText text) stack
        (.empty, .empty)
      stack.depth = 3 ∧ s.stack.depth = 2 ∧ s.position = 1 :=
    ⟨_, Registry.reached_single hg hpath, by decide +kernel⟩
  refine ⟨r, hreached, ?_⟩
  intro t stack s
  obtain ⟨kept, rest, hall, -, hstay, -, hstops, -⟩ :=
    conditions_keep_prefix t text stack .empty (.fresh t)
  exact ⟨.fresh t, hframes, kept, rest, hall, hstay, hstops⟩

end Tokenizer

end Highlight
