import Highlight.Pattern.Literal
import Highlight.Proofs.OpenFrames

/-!
# What the budget of a line is enough for

A line may take only so many steps, four for each byte and four for each frame that there is room for,
if their number has 64 bits. A step that stays at its place uses none of the text, so this is enough
for some lines and not for others. What decides it is how many regions begin without taking text:
every other step takes text or closes a region, and both can be done only as often as there is text
and as regions have begun.

- `Tokenizer.restingOpenings`: how many steps open a region and stay at their place.
- `Tokenizer.Steps.spends`: the number of steps, by what is left to be done and by these.
- `Tokenizer.budget_spent_iff`: the main statement.
-/

namespace Highlight

section

variable [Engine]

namespace Tokenizer

variable {σ : Type} {t : Tokenizer} {searching : Searching σ} {retok : Retokenize σ}
  {line : IndexedText} {s s' : LineState σ} {found : Found} {floor : Stack}

/-! ## Steps that stay at their place -/

/-- How many of a number of steps open a region and stay at their place. -/
def restingOpenings (t : Tokenizer) (searching : Searching σ) (retok : Retokenize σ)
    (line : IndexedText) : Nat → LineState σ → Nat
  | 0, _ => 0
  | n + 1, s =>
    match t.step? searching retok line s with
    | none => 0
    | some s' =>
      (if s'.position = s.position ∧ s.stack.depth < s'.stack.depth then 1 else 0) +
        restingOpenings t searching retok line n s'

/-- What is left to be done: two steps for each byte, for a region to begin and to end there, and one
for each open region. -/
def leftToDo (line : IndexedText) (s : LineState σ) : Nat :=
  2 * (line.byteLength + 1 - s.position) + s.stack.depth

/-- **A step does something of what is left to be done**, unless it opens a region and stays at its
place. -/
theorem Move.spends (hfloor : t.closing? floor.top = none) (hs : floor.On s.stack) {place : Nat}
    (hplace : line.place? s.position = some place) (h : t.Move searching line s s' found) :
    leftToDo line s' + 1 ≤ leftToDo line s +
      2 * if s'.position = s.position ∧ s.stack.depth < s'.stack.depth then 1 else 0 := by
  have hinside := IndexedText.le_of_place? hplace
  have hle := h.position_le
  unfold leftToDo
  rw [IndexedText.byteLength_eq]
  cases h with
  | closed r closing hstack _ =>
    obtain ⟨habove, -⟩ := pop_of_closing? hfloor hs closing
    obtain ⟨f, rest, hcons⟩ := List.exists_cons_of_ne_nil habove
    have hdepth : s'.stack.depth + 1 = s.stack.depth := by
      rw [hstack, pop_withContent habove]
      simp [Stack.depth, Stack.pop, hcons]
    omega
  | passed hstack hposition =>
    have hlt := lt_placeBehind line s.position found
    rw [← hposition] at hlt
    rw [hstack]
    omega
  | opened _ _ _ _ _ _ _ hstack _ =>
    have hdepth : s'.stack.depth = s.stack.depth + 1 := by rw [hstack, Stack.depth_push]
    split
    · omega
    · rename_i hresting
      -- the region began with text that was taken
      have hlt : s.position < s'.position := by
        refine Nat.lt_of_le_of_ne hle fun heq => hresting ⟨heq.symm, ?_⟩
        omega
      omega

/-- The number of steps is bounded by what was left to be done and by the regions that began without
taking text. -/
theorem Steps.spends (hfloor : t.closing? floor.top = none) {n : Nat}
    (h : t.Steps searching retok line n s s') (hs : floor.On s.stack) :
    n + leftToDo line s' ≤ leftToDo line s + 2 * t.restingOpenings searching retok line n s := by
  induction h with
  | done s => simp [restingOpenings]
  | step hstep _ ih =>
    obtain ⟨_, _, hplace, hmove⟩ := step?_move hstep
    have hfirst := hmove.spends hfloor hs hplace
    have hrest := ih (hmove.on hfloor hs)
    rw [restingOpenings, hstep]
    simp only
    omega

/-! ## Runs that are cut short -/

/-- A run that is allowed fewer steps than there are stops where there is another one. -/
theorem step?_run_of_lt {n : Nat} (h : t.Steps searching retok line n s s') {steps : Nat}
    (hlt : steps < n) : (t.step? searching retok line (t.run searching retok line steps s)).isSome := by
  induction h generalizing steps with
  | done => exact absurd hlt (Nat.not_lt_zero _)
  | step hstep _ ih =>
    cases steps with
    | zero =>
      rw [run, hstep]
      rfl
    | succ steps =>
      rw [run, hstep]
      exact ih (Nat.lt_of_succ_lt_succ hlt)

/-- A run ends by itself exactly if it is allowed as many steps as there are. -/
theorem step?_run_eq_none_iff {n : Nat} (h : t.Steps searching retok line n s s')
    (hlast : t.step? searching retok line s' = none) (steps : Nat) :
    t.step? searching retok line (t.run searching retok line steps s) = none ↔ n ≤ steps := by
  constructor
  · intro hnone
    refine Nat.le_of_not_lt fun hlt => ?_
    have hsome := step?_run_of_lt h hlt
    rw [hnone] at hsome
    cases hsome
  · intro hle
    rw [run_eq_of_steps h hlast hle]
    exact hlast

/-- The steps of a line end, within the budget if it has 64 bits and few regions begin without taking
text. -/
theorem exists_steps_start {held : String → Option Grammar} (hreached : t.registry.Reached held)
    {stack : Stack} (hstack : t.Settled stack) (searching : Searching σ) (retok : Retokenize σ)
    (line : IndexedText) (memory : σ) :
    let s := t.start searching retok line stack memory
    ∃ n s', t.Steps searching retok line n s s' ∧ t.step? searching retok line s' = none ∧
      (4 * (line.byteLength + 1) + 4 * t.options.maxStackDepth.toNat < UInt64.size →
        t.restingOpenings searching retok line n s ≤
          line.byteLength + t.options.maxStackDepth.toNat → n ≤ t.budget line) := by
  intro s
  have hgrounded := hstack.grounded hreached
  have hfloor : t.closing? (Stack.top { stack with above := [] }) = none := hgrounded
  have hon : Stack.On { stack with above := [] } s.stack :=
    start_on t searching retok line stack memory
  obtain ⟨s', ⟨n, hsteps⟩, hlast⟩ := exists_ends hfloor searching retok line s hon
  refine ⟨n, s', hsteps, hlast, ?_⟩
  intro hfits hresting
  have hspends := hsteps.spends hfloor hon
  have hdepth : s.stack.depth ≤ max t.options.maxStackDepth.toNat 1 := by
    have hframes : s.stack.frames.length ≤ stack.frames.length :=
      (start_frames t searching retok line stack memory).length_le
    rw [Stack.length_frames, Stack.length_frames] at hframes
    exact Nat.le_trans hframes hstack.depth
  unfold leftToDo at hspends
  rw [budget, Nat.mod_eq_of_lt hfits]
  omega

/-- **What the budget of a line is enough for.** For each line behind others from the start of a
document, the steps of the line end after a number of them, and the budget is enough exactly if it is
no smaller than that; then the tokens and the stack are those that the steps without it lead to. If it
has 64 bits, it is enough for every line on which no more regions begin without taking text than the
line has bytes, with its newline, and than there is room for frames. -/
theorem budget_spent_iff (r : Registry) (held : String → Option Grammar) (hreached : r.Reached held)
    (path : String) (options : Options) (t : Tokenizer) (ht : r.tokenizer path options = .ok t)
    (before now : Tables) (hbefore : t.Served before) (front : List (List Char))
    (line : List Char) :
    let stack := stackBehind t.initialStack (t.tokenizeLinesWith front t.initialStack before).1
    let text := IndexedText.ofText (line ++ ['\n'])
    let searching := Searching.remembering.keeping
    let retok := t.retokenize searching options.maxStackDepth.toNat
    let s := t.start searching retok text stack (.empty, now)
    ∃ n s', t.Steps searching retok text n s s' ∧ t.step? searching retok text s' = none ∧
      (t.step? searching retok text (t.run searching retok text (t.budget text) s) = none ↔
        n ≤ t.budget text) ∧
      (n ≤ t.budget text → (t.tokenizeLineWith line stack now).1 =
        ((finish text s').tokens.clip (Text.byteLength line), s'.stack.endLine)) ∧
      (4 * (text.byteLength + 1) + 4 * options.maxStackDepth.toNat < UInt64.size →
        t.restingOpenings searching retok text n s ≤ text.byteLength + options.maxStackDepth.toNat →
        n ≤ t.budget text) := by
  intro stack text searching retok s
  obtain ⟨g, -, rfl⟩ := Registry.of_tokenizer ht
  have hstack : Settled ⟨r, path, g.grammar.scopeName, options⟩ stack :=
    stackBehind_settled hreached hbefore front
  obtain ⟨n, s', hsteps, hlast, henough⟩ :=
    exists_steps_start hreached hstack searching retok text (.empty, now)
  refine ⟨n, s', hsteps, hlast, step?_run_eq_none_iff hsteps hlast _, ?_, henough⟩
  intro hle
  have hrun := run_eq_of_steps hsteps hlast hle
  show (TokenList.clip (finish text _).tokens _, Stack.endLine (finish text _).stack) = _
  rw [hrun]
  rfl

end Tokenizer

end

namespace Tokenizer

/-- The second line of a document, on which the region ends that began on the first one. -/
theorem budget_spent_region :
    let x : Part := .name { chars := ['x'] }
    let a : Part := .name { chars := ['a'] }
    let region : RuleDefinition := { keys := { beginText := some "b", endText := some "c" } }
    let d : GrammarDefinition := { scopeName := some "x.a", patterns := [region] }
    let scope : Scope := ⟨[x, a], by decide⟩
    let g := Grammar.ofScoped d scope
    let held := Function.update (fun _ => none) "x.a" (some g)
    ∃ r : Registry, r.Reached held ∧
      let t : Tokenizer := ⟨r, "x.a", scope, .standard⟩
      let stack := stackBehind t.initialStack (t.tokenizeLinesWith [['b']] t.initialStack .empty).1
      let text := IndexedText.ofText (['a', 'c'] ++ ['\n'])
      let searching := Searching.remembering.keeping
      let retok := t.retokenize searching 256
      let s := t.start searching retok text stack (.empty, .empty)
      r.tokenizer "x.a" .standard = .ok t ∧ t.Served .empty ∧
        ∃ n s', t.Steps searching retok text n s s' ∧ t.step? searching retok text s' = none ∧
          (t.step? searching retok text (t.run searching retok text (t.budget text) s) = none ↔
            n ≤ t.budget text) := by
  intro x a region d scope g held
  have hg : Grammar.ofDefinition d = .ok g := rfl
  have hpath : Registry.checkPath "x.a" = .ok () := rfl
  obtain ⟨r, hreached⟩ : ∃ r : Registry, r.Reached held := ⟨_, Registry.reached_single hg hpath⟩
  refine ⟨r, hreached, ?_⟩
  intro t stack text searching retok s
  have ht : r.tokenizer "x.a" .standard = .ok t := hreached.tokenizer (Function.update_self ..) .standard
  obtain ⟨n, s', hsteps, hlast, hends, -⟩ := budget_spent_iff r held hreached "x.a" .standard t ht
    .empty .empty (.fresh t) [['b']] ['a', 'c']
  exact ⟨ht, .fresh t, n, s', hsteps, hlast, hends⟩

end Tokenizer

end Highlight
