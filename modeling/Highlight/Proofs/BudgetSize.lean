import Highlight.CommandLine
import Highlight.Pattern.Literal
import Highlight.Proofs.Conditions
import Highlight.Proofs.Links
import Highlight.Proofs.Restart
import Mathlib.Algebra.Ring.Nat

/-!
# When the budget of a line is whole

The number of steps that a line may take is a sum with four for each byte and four for each frame that
there is room for. How many frames that is, the caller says, and any number of 64 bits will do. The sum
is kept in 64 bits too: for lines and limits that are together too large for it, what is left can be
anything from nothing up, and a line that may take no step is not tokenized.

- `Options.Given`: the limits that a caller can ask for, in one of three ways.
- `Options.given`: these are all limits.
- `Tokenizer.fullBudget`: the sum, and `Tokenizer.budget_eq_mul` what 64 bits hold of it.
- `Tokenizer.tokenizeLine_of_budget_eq_zero`: a line that may take no step.
- `Tokenizer.budget_whole_iff`: the main statement.
-/

namespace Highlight

/-! ## Limits that can be asked for -/

namespace Options

/-- The limits that a tokenizer can be given: the standard ones, those with a limit set, those read
from their kept form, and those with a limit from the command line. -/
inductive Given : Options → Prop
  | standard : Given standard
  | withStackDepth {o : Options} (depth : UInt64) : Given o → Given (o.withStackDepth depth)
  | withIncludeDepth {o : Options} (depth : UInt64) : Given o → Given (o.withIncludeDepth depth)
  | kept {j : Json} {o : Options} : ofJson? j = some o → Given o
  | asked {arguments : List String} {c : TokenizeCommand} :
      Command.ofArguments? arguments = some (.tokenize c) →
      Given (Options.standard.withStackDepth c.maxStackDepth)

theorem limit?_ofNat (n : UInt64) : limit? (.ofNat n.toNat) = some n := by
  have hn : (Json.ofNat n.toNat).nat? = some n.toNat := rfl
  unfold limit?
  rw [hn]
  simp only [UInt64.toNat_lt_size, if_true, UInt64.ofNat_toNat]

/-- Limits are read back from their kept form. -/
theorem ofJson?_toJson (o : Options) : ofJson? o.toJson = some o := by
  unfold ofJson? toJson
  rw [Json.record?_ofFields (by simp) (by simp)]
  simp [Json.defaulting, List.lookup_cons, limit?_ofNat]

/-- All limits can be asked for. -/
theorem given (o : Options) : o.Given := .kept o.ofJson?_toJson

end Options

section

variable [Engine]

namespace Tokenizer

variable {σ : Type} {t : Tokenizer}

/-! ## The sum in 64 bits -/

/-- The number of steps that a line is meant to be allowed. -/
def fullBudget (t : Tokenizer) (line : IndexedText) : Nat :=
  4 * (line.byteLength + 1) + 4 * t.options.maxStackDepth.toNat

/-- All the summands are multiples of four, so what is left of the sum is one too. -/
theorem budget_eq_mul (t : Tokenizer) (line : IndexedText) :
    t.budget line = 4 * ((line.byteLength + 1 + t.options.maxStackDepth.toNat) % 2 ^ 62) := by
  have hsize : UInt64.size = 4 * 2 ^ 62 := by decide
  unfold budget
  rw [hsize, ← Nat.mul_add, Nat.mul_mod_mul_left]

omit [Engine] in
/-- The bytes of a line with its newline. -/
theorem byteLength_lineText (line : List Char) :
    (IndexedText.ofText (line ++ ['\n'])).byteLength = Text.byteLength line + 1 := by
  rw [IndexedText.byteLength_eq, IndexedText.text_ofText, Text.byteLength_append]
  rfl

/-! ## Lines that may take no step -/

/-- Frames without a condition are all kept, and nothing is taken for them. -/
theorem conditions_of_free (searching : Searching σ) (retok : Retokenize σ) (line : IndexedText)
    {frames : List Frame} (hfree : ∀ f ∈ frames, t.guard? f = none) (s : LineState σ) :
    t.conditions searching retok line frames s =
      { s with stack := frames.foldl Stack.push s.stack } := by
  induction frames generalizing s with
  | nil => rfl
  | cons f rest ih =>
    obtain ⟨hf, hrest⟩ := List.forall_mem_cons.1 hfree
    rw [conditions, hf]
    simp only
    rw [ih hrest, List.foldl_cons]

/-- A line starts with the stack as it is if no open region has a condition. -/
theorem start_of_free (searching : Searching σ) (retok : Retokenize σ) (line : IndexedText)
    {stack : Stack} (hfree : ∀ f ∈ stack.above, t.guard? f = none) (memory : σ) :
    t.start searching retok line stack memory =
      ⟨stack, .startingAt 0, 0, stack.firstLine, searching.enter stack.firstLine memory⟩ := by
  have hreverse : ∀ f ∈ stack.above.reverse, t.guard? f = none := fun f hf =>
    hfree f (List.mem_reverse.1 hf)
  unfold start
  rw [conditions_of_free searching retok line hreverse]
  simp only [foldl_push, List.reverse_reverse, List.append_nil]

/-- **A line that may take no step is not tokenized**: all of it has the scopes of the innermost open
region, and the regions stay open. -/
theorem tokenizeLine_of_budget_eq_zero {line : List Char}
    (hzero : t.budget (.ofText (line ++ ['\n'])) = 0) {stack : Stack}
    (hfree : ∀ f ∈ stack.above, t.guard? f = none) :
    t.tokenizeLine line stack =
      (if line = [] then [] else [⟨⟨0, Text.byteLength line⟩, stack.scopes⟩], stack.endLine) := by
  have hbytes := byteLength_lineText line
  unfold tokenizeLine tokenizeLineWith tokenizeText
  simp only [hzero, run, start_of_free _ _ _ hfree, finish]
  rw [hbytes]
  cases line with
  | nil => rfl
  | cons c cs =>
    have hpos : 0 < Text.byteLength (c :: cs) := Nat.add_pos_left c.utf8Size_pos _
    -- the newline is cut off
    simp [TokenList.produce, TokenList.startingAt, TokenList.clip, -Text.byteLength_cons, hpos]

/-! ## All of it -/

/-- **When the budget of a line is whole.** A caller can ask for any limits. The number of steps that a
line is meant to be allowed has 64 bits exactly if the bytes of the line and the limit on open frames are
together that small, and then and only then it is the budget. The budget has four steps for each byte
exactly if that is so for what 62 bits hold of the limit. If nothing is left of it, the line is not
tokenized, whatever its patterns. -/
theorem budget_whole_iff (t : Tokenizer) (line : List Char) :
    let text := IndexedText.ofText (line ++ ['\n'])
    let depth := t.options.maxStackDepth.toNat
    t.options.Given ∧
      (t.fullBudget text < UInt64.size ↔ Text.byteLength line + 2 + depth < 2 ^ 62) ∧
      (t.budget text = t.fullBudget text ↔ t.fullBudget text < UInt64.size) ∧
      (4 * (text.byteLength + 1) ≤ t.budget text ↔
        Text.byteLength line + 2 + depth % 2 ^ 62 < 2 ^ 62) ∧
      (t.budget text = 0 ↔ 2 ^ 62 ∣ Text.byteLength line + 2 + depth) ∧
      (t.budget text = 0 → ∀ stack : Stack, (∀ f ∈ stack.above, t.guard? f = none) →
        t.tokenizeLine line stack =
          (if line = [] then [] else [⟨⟨0, Text.byteLength line⟩, stack.scopes⟩],
            stack.endLine)) := by
  intro text depth
  have hbytes : text.byteLength = Text.byteLength line + 1 := byteLength_lineText line
  have hfull : t.fullBudget text = 4 * (Text.byteLength line + 2 + depth) := by
    rw [fullBudget, hbytes, ← Nat.mul_add]
  have hbudget : t.budget text = 4 * ((Text.byteLength line + 2 + depth) % 2 ^ 62) := by
    rw [budget_eq_mul, hbytes]
  have hsize : UInt64.size = 4 * 2 ^ 62 := by decide
  refine ⟨t.options.given, ?_, ?_, ?_, ?_, ?_⟩
  · rw [hfull, hsize]
    omega
  · rw [hbudget, hfull, hsize]
    omega
  · rw [hbudget, hbytes]
    omega
  · rw [hbudget, Nat.dvd_iff_mod_eq_zero]
    omega
  · intro hzero stack hfree
    exact tokenizeLine_of_budget_eq_zero hzero hfree

end Tokenizer

end

namespace Tokenizer

/-- **There are limits for which the budget is not whole.** The same limit, asked for in each of the
three ways, and a line of one byte for which the sum is one more than 64 bits hold. Nothing of it is left,
and the rule that matches the byte is never tried. -/
theorem budget_wraps :
    let x : Part := .name { chars := ['x'] }
    let a : Part := .name { chars := ['a'] }
    let named : RuleDefinition := { keys := { name := some "keyword.x", matchText := some "x" } }
    let d : GrammarDefinition := { scopeName := some "x.a", patterns := [named] }
    let scope : Scope := ⟨[x, a], by decide⟩
    let held := Function.update (fun _ => none) "x.a" (some (Grammar.ofScoped d scope))
    let options := Options.standard.withStackDepth 4611686018427387901
    let text := IndexedText.ofText ['x', '\n']
    ((Json.ofText? "[4611686018427387901]").bind Options.ofJson? = some options ∧
      Command.ofArguments? ["tokenize", "-g", "a.json", "--max-stack-depth", "4611686018427387901"] =
        some (.tokenize ⟨["a.json"], none, none, false, options.maxStackDepth⟩)) ∧
    ∃ r : Registry, r.Reached held ∧
      let t : Tokenizer := ⟨r, "x.a", scope, options⟩
      r.tokenizer "x.a" options = .ok t ∧ ¬ t.fullBudget text < UInt64.size ∧
        t.budget text = 0 ∧ ¬ 4 * (text.byteLength + 1) ≤ t.budget text ∧
        (t.next? Searching.anew t.initialStack text 0 true ()).1 =
          some (.rule ⟨"x.a", 1⟩, ⟨0, 1, [some ⟨0, 1⟩]⟩) ∧
        (t.tokenizeLine ['x'] t.initialStack).1 = [⟨⟨0, 1⟩, [scope]⟩] := by
  intro x a named d scope held options text
  have hg : Grammar.ofDefinition d = .ok (Grammar.ofScoped d scope) := rfl
  have hpath : Registry.checkPath "x.a" = .ok () := rfl
  have hreached := Registry.reached_single hg hpath
  have hheld : held "x.a" = some (Grammar.ofScoped d scope) := Function.update_self ..
  refine ⟨by decide +kernel, _, hreached, hreached.tokenizer hheld options, ?_⟩
  decide +kernel

end Tokenizer

end Highlight
