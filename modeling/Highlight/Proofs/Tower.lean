import Highlight.Pattern.Literal
import Highlight.Proofs.Budget
import Highlight.Proofs.SearchMemory

/-!
# Towers of regions

A grammar for expressions has one region for each level of precedence, each inside of the one before,
and all of them begin with a look at the next character without taking it. Such regions are opened one
after the other in front of each operand and closed one after the other behind it, so a line takes two
steps for each level and each operand. No budget that counts the bytes of the line only is enough for
all numbers of levels.

- `Tokenizer.step?_open`, `Tokenizer.step?_take`, `Tokenizer.step?_close`: what makes a step open a
  region, take a match or close a region.
- `Tokenizer.Tower`: rules each of which has the next one as its only candidate.
- `Tokenizer.Operand`: a place where all levels begin and the one behind it where all of them end.
- `Tokenizer.Tower.steps`, `Tokenizer.Tower.steps_operands`: the steps that operands take.
- `Tokenizer.Tower.isSome_step?_run_budget`: lines that are cut short.
- `Tokenizer.budget_cut_short`: a grammar and a line for which the budget is not enough.
-/

namespace Highlight

section

variable [Engine]

namespace Tokenizer

variable {t : Tokenizer} {line : IndexedText} {s : LineState Unit}
  {stack : Stack} {place : Nat} {firstLine : Bool} {found : Found} {ref : RuleRef} {rule : Rule}
  {pattern : Pattern}

/-! ## Steps of a kind -/

/-- The only candidate wins if it begins before the best match so far. -/
theorem bestOf_single (hpattern : (t.rule? ref).bind entryPattern? = some pattern)
    (hfound : pattern.findFrom? line place firstLine = some found)
    {best : Option (Choice × Found)} (hbest : ∀ b ∈ best, found.start < b.2.start) :
    t.bestOf Searching.anew line place firstLine [ref] best () =
      (some (.rule ref, found), ()) := by
  unfold bestOf
  rw [hpattern]
  simp only [Searching.anew, hfound]
  rw [if_neg]
  · split
    · rfl
    · rfl
  · intro hany
    obtain ⟨b, hb, hle⟩ := (Option.any_eq_true ..).1 hany
    exact Nat.not_le.2 (hbest b hb) (of_decide_eq_true hle)

/-- The only candidate wins over an end that comes later. -/
theorem next?_single (hcandidates : t.candidates stack.top.rule = [ref])
    (hpattern : (t.rule? ref).bind entryPattern? = some pattern)
    (hfound : pattern.findFrom? line place firstLine = some found)
    (hend : ∀ r, t.closing? stack.top = some r → r.closingLast = false ∧
      stack.top.endPattern = none ∧ ∀ c, r.closing.findFrom? line place firstLine = some c →
        line.offset place < c.start ∧ found.start < c.start) :
    t.next? Searching.anew stack line place firstLine () = (some (.rule ref, found), ()) := by
  have hanew : Searching.anew.candidates t stack.top.rule () = ([ref], ()) := by
    rw [← hcandidates]
    rfl
  unfold next?
  rw [hanew]
  simp only
  split
  · exact bestOf_single hpattern hfound nofun
  · rename_i r hclosing
    obtain ⟨hlast, hpatternless, hlater⟩ := hend r hclosing
    simp only [hpatternless, hlast, Searching.filledPattern, Bool.false_eq_true, if_false]
    split
    · exact bestOf_single hpattern hfound nofun
    · rename_i c hc
      obtain ⟨hbehind, hafter⟩ := hlater c hc
      rw [if_neg (Nat.ne_of_gt hbehind)]
      refine bestOf_single hpattern hfound ?_
      rintro b ⟨⟩
      exact hafter

/-- An end at the place of the search wins. -/
theorem next?_close {r : EndRule} (hclosing : t.closing? stack.top = some r)
    (hlast : r.closingLast = false) (hpatternless : stack.top.endPattern = none)
    (hfound : r.closing.findFrom? line place firstLine = some found)
    (hstart : found.start = line.offset place) :
    t.next? Searching.anew stack line place firstLine () = (some (.close, found), ()) := by
  unfold next?
  rw [hclosing]
  simp only [hpatternless, hlast, Searching.filledPattern, hfound, hstart, Bool.false_eq_true,
    if_false, if_true]

/-- A step does what the winner says. -/
theorem step?_of_next? (retok : Retokenize Unit) {choice : Choice}
    (hplace : line.place? s.position = some place)
    (hnext : t.next? Searching.anew s.stack line place s.firstLine () = (some (choice, found), ())) :
    t.step? Searching.anew retok line s = t.perform? retok line s found choice := by
  have hmemory : Searching.anew.noteFirstLine s.firstLine s.memory = () := rfl
  unfold step?
  rw [hplace]
  simp only
  rw [hmemory, hnext]

/-- A step opens a region if its rule wins, there is room for its frame, and no frame is there for it
already. -/
theorem step?_open (retok : Retokenize Unit) {r : EndRule}
    (hplace : line.place? s.position = some place)
    (hnext : t.next? Searching.anew s.stack line place s.firstLine () = (some (.rule ref, found), ()))
    (hrule : t.rule? ref = some rule) (hkind : rule.kind = .region r)
    (hroom : s.stack.depth < t.options.maxStackDepth.toNat)
    (hnew : ∀ f ∈ s.stack.frames, f.rule ≠ ref) :
    ∃ s', t.step? Searching.anew retok line s = some s' ∧
      s'.stack = s.stack.push (regionFrame s.stack s.position line ref rule r.closing found) ∧
      s'.position = placeBehind line s.position found false := by
  have hagain :
      (s.stack.frames.any fun f => f.rule == ref && f.entered == some s.position) = false := by
    rw [List.any_eq_false]
    intro f hf hboth
    exact hnew f hf (beq_iff_eq.1 ((Bool.and_eq_true_iff ..).1 hboth).1)
  have hstep : t.step? Searching.anew retok line s =
      some (t.enter retok line s ref rule r.openingCaptures r.closing found) := by
    rw [step?_of_next? retok hplace hnext]
    simp only [perform?, hrule, hkind]
  refine ⟨_, hstep, ?_, ?_⟩
  · unfold enter
    simp only [hagain, Bool.and_false, Bool.false_eq_true, if_false, if_neg (Nat.not_le.2 hroom)]
    rw [stack_moveOn, openRegion_eq_push]
  · unfold enter
    simp only [hagain, Bool.and_false, Bool.false_eq_true, if_false, if_neg (Nat.not_le.2 hroom)]
    rw [position_moveOn]

/-- A step takes a match of a rule without a region if that wins. -/
theorem step?_take (retok : Retokenize Unit) {m : MatchRule}
    (hplace : line.place? s.position = some place)
    (hnext : t.next? Searching.anew s.stack line place s.firstLine () = (some (.rule ref, found), ()))
    (hrule : t.rule? ref = some rule) (hkind : rule.kind = .single m) :
    ∃ s', t.step? Searching.anew retok line s = some s' ∧ s'.stack = s.stack ∧
      s'.position = placeBehind line s.position found true := by
  have hstep : t.step? Searching.anew retok line s =
      some (t.takeMatch retok line s ref rule m.captures found) := by
    rw [step?_of_next? retok hplace hnext]
    simp only [perform?, hrule, hkind]
  refine ⟨_, hstep, takeMatch_stack t retok line s ref rule m.captures found, ?_⟩
  unfold takeMatch
  rw [position_moveOn]

/-- A step closes a region if its end wins. -/
theorem step?_close (retok : Retokenize Unit) {f : Frame} {below : Stack}
    (hplace : line.place? s.position = some place)
    (hnext : t.next? Searching.anew s.stack line place s.firstLine () = (some (.close, found), ()))
    (hstack : s.stack = below.push f) (hentered : f.entered ≠ some s.position) :
    ∃ s', t.step? Searching.anew retok line s = some s' ∧ s'.stack = below ∧
      s'.position = placeBehind line s.position found false := by
  have hstep : t.step? Searching.anew retok line s = some (t.close retok line s found) :=
    step?_of_next? retok hplace hnext
  refine ⟨_, hstep, ?_, ?_⟩
  · unfold close
    rw [stack_moveOn, hstack]
    rfl
  · -- the region did not begin at this place, so nothing has to be skipped
    have hempty : ((s.stack.withContent s.stack.top.nameScopes).popped?.any
        fun f => f.entered == some s.position) = false := by
      rw [hstack]
      show (f.entered == some s.position) = false
      exact beq_eq_false_iff_ne.2 hentered
    unfold close
    rw [position_moveOn]
    simp only [hempty]

/-! ## Towers -/

/-- Rules of a grammar each of which has the next one as its only candidate: regions between the same
two patterns, and in the innermost of them a match. -/
structure Tower (t : Tokenizer) (path : String) (height : Nat) (opening closing leaf : Pattern) :
    Prop where
  ground : ∃ rule g, t.rule? ⟨path, 0⟩ = some rule ∧ rule.kind = .group g ∧ g.patterns = [1]
  level : ∀ i < height, ∃ rule r, t.rule? ⟨path, i + 1⟩ = some rule ∧ rule.disabled = false ∧
    rule.kind = .region r ∧ r.opening = opening ∧ r.closing = closing ∧ r.closingLast = false ∧
    r.patterns = [i + 2]
  leaf : ∃ rule m, t.rule? ⟨path, height + 1⟩ = some rule ∧ rule.disabled = false ∧
    rule.kind = .single m ∧ m.pattern = leaf
  plain : closing.hasBackReferences = false
  room : height < t.options.maxStackDepth.toNat
  includes : 0 < t.options.maxIncludeDepth.toNat

/-- A stack with the given number of levels of a tower on the bottom frame, all of them entered at
offsets up to a bound. -/
inductive Climbed (path : String) (bound : Nat) : Nat → Stack → Prop
  | ground {stack : Stack} : stack.above = [] → stack.bottom.rule = ⟨path, 0⟩ →
      Climbed path bound 0 stack
  | up {i : Nat} {stack : Stack} {f : Frame} {entered : Nat} : Climbed path bound i stack →
      f.rule = ⟨path, i + 1⟩ → f.endPattern = none → f.entered = some entered → entered ≤ bound →
      Climbed path bound (i + 1) (stack.push f)

section Climbed

omit [Engine]

variable {path : String} {bound i : Nat}

theorem Climbed.top_rule (h : Climbed path bound i stack) : stack.top.rule = ⟨path, i⟩ := by
  cases h with
  | ground habove hbottom => rwa [Stack.top, habove]
  | up _ hrule _ _ _ => exact hrule

theorem Climbed.depth_eq (h : Climbed path bound i stack) : stack.depth = i + 1 := by
  induction h with
  | ground habove _ => rw [Stack.depth, habove, List.length_nil]
  | up _ _ _ _ _ ih => rw [Stack.depth_push, ih]

/-- Offsets mean nothing for a stack without regions. -/
theorem Climbed.rebound (h : Climbed path bound 0 stack) (other : Nat) :
    Climbed path other 0 stack := by
  cases h with
  | ground habove hbottom => exact .ground habove hbottom

/-- The rules of all frames have numbers up to that of the top one. -/
theorem Climbed.rule_le (h : Climbed path bound i stack) : ∀ f ∈ stack.frames, f.rule.rule ≤ i := by
  induction h with
  | ground habove hbottom =>
    intro f hf
    rw [Stack.frames, habove] at hf
    rw [List.mem_singleton.1 hf]
    exact Nat.le_of_eq (congrArg RuleRef.rule hbottom)
  | @up i stack f _ _ hrule _ _ _ ih =>
    refine Stack.forall_frames_push (fun g hg => Nat.le_succ_of_le (ih g hg)) ?_
    exact Nat.le_of_eq (congrArg RuleRef.rule hrule)

end Climbed

variable {path : String} {height i bound : Nat} {opening closing leaf : Pattern}

/-- The only rule inside of another one is its only candidate. -/
theorem candidates_single {next : Rule} (hincludes : 0 < t.options.maxIncludeDepth.toNat)
    (hrule : t.rule? ⟨path, i⟩ = some rule) (hpatterns : rule.kind.patterns = [i + 1])
    (hnext : t.rule? ⟨path, i + 1⟩ = some next) (henabled : next.disabled = false)
    (hcandidate : Registry.isCandidate next = true) :
    t.candidates ⟨path, i⟩ = [⟨path, i + 1⟩] := by
  obtain ⟨steps, hsteps⟩ := Nat.exists_eq_succ_of_ne_zero (Nat.ne_of_gt hincludes)
  have hexpand : ∀ met, (⟨path, i + 1⟩ : RuleRef) ∉ met →
      t.registry.expand t.base (steps + 1) ⟨met, []⟩ ⟨path, i + 1⟩ =
        ⟨⟨path, i + 1⟩ :: met, [⟨path, i + 1⟩]⟩ := by
    intro met hmet
    have hfound : t.registry.rule? ⟨path, i + 1⟩ = some next := hnext
    unfold Registry.expand
    rw [if_neg hmet, hfound]
    simp only [henabled, hcandidate, Bool.false_eq_true, if_false, if_true]
  have hfound : t.registry.rule? ⟨path, i⟩ = some rule := hrule
  unfold candidates Registry.candidates
  rw [hfound, hsteps]
  simp only [hpatterns, List.map_cons, List.map_nil, List.foldl_cons, List.foldl_nil]
  rw [hexpand]
  · rfl
  · split
    · simp
    · exact List.not_mem_nil

namespace Tower

theorem candidates (h : t.Tower path height opening closing leaf) (hi : i ≤ height) :
    t.candidates ⟨path, i⟩ = [⟨path, i + 1⟩] := by
  obtain ⟨rule, hrule, hpatterns⟩ :
      ∃ rule, t.rule? ⟨path, i⟩ = some rule ∧ rule.kind.patterns = [i + 1] := by
    cases i with
    | zero =>
      obtain ⟨rule, g, hrule, hkind, hpatterns⟩ := h.ground
      exact ⟨rule, hrule, by rw [hkind]; exact hpatterns⟩
    | succ i =>
      obtain ⟨rule, r, hrule, -, hkind, -, -, -, hpatterns⟩ := h.level i hi
      exact ⟨rule, hrule, by rw [hkind]; exact hpatterns⟩
  rcases Nat.lt_or_eq_of_le hi with hlt | rfl
  · obtain ⟨next, r, hnext, henabled, hkind, -⟩ := h.level i hlt
    refine candidates_single h.includes hrule hpatterns hnext henabled ?_
    rw [Registry.isCandidate, hkind]
  · obtain ⟨next, m, hnext, henabled, hkind, -⟩ := h.leaf
    refine candidates_single h.includes hrule hpatterns hnext henabled ?_
    rw [Registry.isCandidate, hkind]

/-- The frame at the top of a climbed tower is closed by the pattern of all levels, unless it is that
of the grammar. -/
theorem closing?_eq (h : t.Tower path height opening closing leaf) (hi : i ≤ height)
    (hs : Climbed path bound i stack) {r : EndRule} (hclosing : t.closing? stack.top = some r) :
    0 < i ∧ r.closing = closing ∧ r.closingLast = false ∧ stack.top.endPattern = none := by
  unfold closing? at hclosing
  rw [hs.top_rule] at hclosing
  cases hs with
  | ground _ _ =>
    obtain ⟨rule, g, hrule, hkind, -⟩ := h.ground
    rw [hrule, Option.map_some, hkind] at hclosing
    cases hclosing
  | @up i stack f _ _ _ hpatternless _ _ =>
    obtain ⟨rule, r', hrule, -, hkind, -, hr, hlast, -⟩ := h.level i hi
    rw [hrule, Option.map_some, hkind] at hclosing
    cases hclosing
    exact ⟨Nat.succ_pos i, hr, hlast, hpatternless⟩

end Tower

/-! ## Operands -/

/-- Three offsets of a line, for a tower: in front of an operand, or where it begins, all levels find
that they begin there and the innermost rule finds the operand; none ends before the offset behind it,
where all of them end. -/
structure Operand (line : IndexedText) (opening closing leaf : Pattern)
    (before here behind : Nat) : Prop where
  before_le : before ≤ here
  here_lt : here < behind
  begins : ∀ offset, offset = before ∨ offset = here → ∃ place, line.place? offset = some place ∧
    ∀ firstLine, ∃ found, opening.findFrom? line place firstLine = some found ∧
      found.start = here ∧ found.stop = here
  taken : ∃ place, line.place? here = some place ∧ ∀ firstLine,
    (∃ found, leaf.findFrom? line place firstLine = some found ∧ found.start = here ∧
      found.stop = behind) ∧
    ∀ found, closing.findFrom? line place firstLine = some found → here < found.start
  ends : ∃ place, line.place? behind = some place ∧ ∀ firstLine,
    ∃ found, closing.findFrom? line place firstLine = some found ∧ found.start = behind ∧
      found.stop = behind

namespace Tower

variable {before here behind : Nat}

/-- The state of a line with the given number of levels open, in front of an operand or at it. -/
structure Climbing (path : String) (before here i : Nat) (s : LineState Unit) : Prop where
  stack : Climbed path here i s.stack
  position : s.position = before ∨ s.position = here
  inside : 0 < i → s.position = here

/-- The state of a line with the given number of levels open, behind an operand. -/
structure Descending (path : String) (here behind i : Nat) (s : LineState Unit) : Prop where
  stack : Climbed path here i s.stack
  position : s.position = behind

/-- In front of an operand and at it, the rule above the open levels wins if it finds the operand: no
level ends there. -/
theorem next?_climbing (h : t.Tower path height opening closing leaf)
    (ho : Operand line opening closing leaf before here behind) (hi : i ≤ height)
    (hs : Climbing path before here i s) (hplace : line.place? s.position = some place)
    (hpattern : (t.rule? ⟨path, i + 1⟩).bind entryPattern? = some pattern)
    (hfound : pattern.findFrom? line place s.firstLine = some found) (hstart : found.start = here) :
    t.next? Searching.anew s.stack line place s.firstLine () =
      (some (.rule ⟨path, i + 1⟩, found), ()) := by
  have hcandidates : t.candidates s.stack.top.rule = [⟨path, i + 1⟩] := by
    rw [hs.stack.top_rule]
    exact h.candidates hi
  refine next?_single hcandidates hpattern hfound ?_
  intro r hr
  obtain ⟨hpos, heq, hlast, hpatternless⟩ := h.closing?_eq hi hs.stack hr
  refine ⟨hlast, hpatternless, ?_⟩
  intro c hc
  -- inside of a level the line is at the operand
  have hhere := hs.inside hpos
  obtain ⟨place', hplace', htaken⟩ := ho.taken
  rw [hhere, hplace'] at hplace
  cases hplace
  rw [heq] at hc
  rw [IndexedText.offset_of_place? hplace', hstart]
  exact ⟨(htaken s.firstLine).2 c hc, (htaken s.firstLine).2 c hc⟩

/-- Until all levels are open, each step opens the next one. -/
theorem climb_step (h : t.Tower path height opening closing leaf) (retok : Retokenize Unit)
    (ho : Operand line opening closing leaf before here behind) (hi : i < height)
    (hs : Climbing path before here i s) :
    ∃ s', t.step? Searching.anew retok line s = some s' ∧ Climbing path before here (i + 1) s' := by
  obtain ⟨place, hplace, hbegins⟩ := ho.begins s.position hs.position
  obtain ⟨found, hfound, hstart, hstop⟩ := hbegins s.firstLine
  obtain ⟨rule, r, hrule, -, hkind, hopening, hclosing, -, -⟩ := h.level i hi
  have hle : s.position ≤ here := by
    rcases hs.position with heq | heq
    · exact heq ▸ ho.before_le
    · exact Nat.le_of_eq heq
  have hpattern : (t.rule? ⟨path, i + 1⟩).bind entryPattern? = some opening := by
    rw [hrule, Option.bind_some, entryPattern?, hkind, ← hopening]
  have hnext := h.next?_climbing ho (Nat.le_of_lt hi) hs hplace hpattern hfound hstart
  have hroom : s.stack.depth < t.options.maxStackDepth.toNat := by
    rw [hs.stack.depth_eq]
    exact Nat.lt_of_le_of_lt hi h.room
  have hnew : ∀ f ∈ s.stack.frames, f.rule ≠ ⟨path, i + 1⟩ := by
    intro f hf heq
    have hnumber := hs.stack.rule_le f hf
    rw [heq] at hnumber
    exact absurd hnumber (Nat.not_succ_le_self i)
  obtain ⟨s', hstep, hstack, hposition⟩ :=
    step?_open retok hplace hnext hrule hkind hroom hnew
  have hhere : s'.position = here := by
    rw [hposition, placeBehind, hstop]
    split
    · rfl
    · rename_i hnlt
      exact Nat.le_antisymm hle (Nat.not_lt.1 hnlt)
  refine ⟨s', hstep, ?_, .inr hhere, fun _ => hhere⟩
  rw [hstack]
  refine .up hs.stack rfl ?_ rfl hle
  have hplain := h.plain
  rw [← hclosing] at hplain
  simp only [regionFrame, hplain, Bool.false_eq_true, if_false]

/-- With all levels open, a step takes the operand. -/
theorem take_step (h : t.Tower path height opening closing leaf) (retok : Retokenize Unit)
    (hheight : 0 < height) (ho : Operand line opening closing leaf before here behind)
    (hs : Climbing path before here height s) :
    ∃ s', t.step? Searching.anew retok line s = some s' ∧
      Descending path here behind height s' := by
  have hhere := hs.inside hheight
  obtain ⟨place, hplace, htaken⟩ := ho.taken
  obtain ⟨⟨found, hfound, hstart, hstop⟩, -⟩ := htaken s.firstLine
  obtain ⟨rule, m, hrule, -, hkind, hm⟩ := h.leaf
  rw [← hhere] at hplace
  have hpattern : (t.rule? ⟨path, height + 1⟩).bind entryPattern? = some leaf := by
    rw [hrule, Option.bind_some, entryPattern?, hkind, ← hm]
  have hnext := h.next?_climbing ho (Nat.le_refl height) hs hplace hpattern hfound hstart
  obtain ⟨s', hstep, hstack, hposition⟩ := step?_take retok hplace hnext hrule hkind
  refine ⟨s', hstep, ?_, ?_⟩
  · rw [hstack]
    exact hs.stack
  · rw [hposition, placeBehind, hstop, hhere, if_pos ho.here_lt]

/-- Behind an operand, each step closes a level. -/
theorem descend_step (h : t.Tower path height opening closing leaf) (retok : Retokenize Unit)
    (ho : Operand line opening closing leaf before here behind) (hi : i < height)
    (hs : Descending path here behind (i + 1) s) :
    ∃ s', t.step? Searching.anew retok line s = some s' ∧ Descending path here behind i s' := by
  obtain ⟨place, hplace, hends⟩ := ho.ends
  obtain ⟨found, hfound, hstart, hstop⟩ := hends s.firstLine
  rw [← hs.position] at hplace
  obtain ⟨rule, r, hrule, -, hkind, -, hclosing, hlast, -⟩ := h.level i hi
  have hr : t.closing? s.stack.top = some r := by
    rw [closing?, hs.stack.top_rule, hrule, Option.map_some, hkind]
  obtain ⟨-, -, -, hpatternless⟩ := h.closing?_eq hi hs.stack hr
  have hnext : t.next? Searching.anew s.stack line place s.firstLine () =
      (some (.close, found), ()) := by
    refine next?_close hr hlast hpatternless (by rw [hclosing]; exact hfound) ?_
    rw [hstart, IndexedText.offset_of_place? hplace, hs.position]
  generalize hstack : s.stack = stack at *
  have hclimbed : Climbed path here (i + 1) stack := hstack ▸ hs.stack
  cases hclimbed with
  | @up _ below f entered hbelow _ _ hentered hle =>
    have hearlier : f.entered ≠ some s.position := by
      rw [hentered, hs.position]
      rintro ⟨⟩
      exact absurd ho.here_lt (Nat.not_lt.2 hle)
    obtain ⟨s', hstep, hstack', hposition⟩ :=
      step?_close retok hplace (by rw [hstack]; exact hnext) hstack hearlier
    refine ⟨s', hstep, ?_, ?_⟩
    · rw [hstack']
      exact hbelow
    · rw [hposition, placeBehind, hstop, hs.position, if_neg (Nat.lt_irrefl behind)]
      rfl

theorem climb (h : t.Tower path height opening closing leaf) (retok : Retokenize Unit)
    (ho : Operand line opening closing leaf before here behind)
    (hs : Climbing path before here 0 s) (hi : i ≤ height) :
    ∃ s', t.Steps Searching.anew retok line i s s' ∧ Climbing path before here i s' := by
  induction i with
  | zero => exact ⟨s, .done s, hs⟩
  | succ i ih =>
    obtain ⟨s', hsteps, hs'⟩ := ih (Nat.le_of_succ_le hi)
    obtain ⟨s'', hstep, hs''⟩ := h.climb_step retok ho hi hs'
    exact ⟨s'', hsteps.append (.step hstep (.done s'')), hs''⟩

theorem descend (h : t.Tower path height opening closing leaf) (retok : Retokenize Unit)
    (ho : Operand line opening closing leaf before here behind) (hi : i ≤ height)
    (hs : Descending path here behind i s) :
    ∃ s', t.Steps Searching.anew retok line i s s' ∧ Descending path here behind 0 s' := by
  induction i generalizing s with
  | zero => exact ⟨s, .done s, hs⟩
  | succ i ih =>
    obtain ⟨s', hstep, hs'⟩ := h.descend_step retok ho hi hs
    obtain ⟨s'', hsteps, hs''⟩ := ih (Nat.le_of_succ_le hi) hs'
    exact ⟨s'', .step hstep hsteps, hs''⟩

/-- **An operand takes two steps for each level**, to open and to close it, and one of its own. -/
theorem steps (h : t.Tower path height opening closing leaf) (retok : Retokenize Unit)
    (hheight : 0 < height) (ho : Operand line opening closing leaf before here behind)
    (hstack : Climbed path bound 0 s.stack) (hposition : s.position = before) :
    ∃ s', t.Steps Searching.anew retok line (2 * height + 1) s s' ∧
      Climbed path here 0 s'.stack ∧ s'.position = behind := by
  have hstart : Climbing path before here 0 s :=
    ⟨hstack.rebound here, .inl hposition, fun hlt => absurd hlt (Nat.lt_irrefl 0)⟩
  obtain ⟨s₁, hclimb, hs₁⟩ := h.climb retok ho hstart (Nat.le_refl height)
  obtain ⟨s₂, htake, hs₂⟩ := h.take_step retok hheight ho hs₁
  obtain ⟨s₃, hdescend, hs₃⟩ := h.descend retok ho (Nat.le_refl height) hs₂
  have hsteps := hclimb.append (.step htake hdescend)
  rw [show height + (height + 1) = 2 * height + 1 by omega] at hsteps
  exact ⟨s₃, hsteps, hs₃.stack, hs₃.position⟩

/-- The steps of operands one behind the other. -/
theorem steps_operands (h : t.Tower path height opening closing leaf) (retok : Retokenize Unit)
    (hheight : 0 < height)
    {before here : Nat → Nat} {count : Nat}
    (ho : ∀ j < count, Operand line opening closing leaf (before j) (here j) (before (j + 1)))
    (hstack : Climbed path bound 0 s.stack) (hposition : s.position = before 0) :
    ∃ s', t.Steps Searching.anew retok line (count * (2 * height + 1)) s s' ∧
      s'.position = before count := by
  -- the stack behind some of the operands has no level open
  have hoperands : ∀ j ≤ count, ∃ s', t.Steps Searching.anew retok line (j * (2 * height + 1)) s s' ∧
      Climbed path bound 0 s'.stack ∧ s'.position = before j := by
    intro j
    induction j with
    | zero =>
      intro _
      rw [Nat.zero_mul]
      exact ⟨s, .done s, hstack, hposition⟩
    | succ j ih =>
      intro hj
      obtain ⟨s', hsteps, hstack', hposition'⟩ := ih (Nat.le_of_succ_le hj)
      obtain ⟨s'', hoperand, hstack'', hposition''⟩ :=
        h.steps retok hheight (ho j hj) hstack' hposition'
      refine ⟨s'', ?_, hstack''.rebound bound, hposition''⟩
      rw [Nat.succ_mul]
      exact hsteps.append hoperand
  obtain ⟨s', hsteps, -, hposition'⟩ := hoperands count (Nat.le_refl count)
  exact ⟨s', hsteps, hposition'⟩

/-- **A line with enough operands is cut short**: each of them takes steps for all levels, the budget
grows with the bytes of the line only. -/
theorem isSome_step?_run_budget (h : t.Tower path height opening closing leaf)
    (retok : Retokenize Unit) (hheight : 0 < height) {before here : Nat → Nat} {count : Nat}
    (ho : ∀ j < count, Operand line opening closing leaf (before j) (here j) (before (j + 1)))
    (hstack : Climbed path bound 0 s.stack) (hposition : s.position = before 0)
    (hbudget : t.budget line < count * (2 * height + 1)) :
    (t.step? Searching.anew retok line
      (t.run Searching.anew retok line (t.budget line) s)).isSome := by
  obtain ⟨_, hsteps, -⟩ := h.steps_operands retok hheight ho hstack hposition
  exact step?_run_of_lt hsteps hbudget

end Tower

end Tokenizer

end

/-! ## A line that is cut short -/

instance : DecidableEq Engine.Program := inferInstanceAs (DecidableEq Pattern.Program)

instance : DecidableEq Pattern := fun p q =>
  decidable_of_iff (p.text = q.text ∧ p.source = q.source ∧ p.firstLine = q.firstLine ∧
    p.otherLines = q.otherLines) (by cases p; cases q; simp)

namespace Tokenizer

variable {t : Tokenizer} {path : String} {height : Nat}

/-- A region for each level around the rule that takes an operand. They all begin where an operand is
next and end where none is. -/
def levelRule : Nat → RuleDefinition
  | 0 => { keys := { matchText := some "a" } }
  | height + 1 =>
      { keys := { beginText := some "(?=a)", endText := some "(?!a)" },
        patterns := some [levelRule height] }

/-- A grammar for expressions with the given number of levels. -/
def levelGrammar (height : Nat) : GrammarDefinition :=
  { scopeName := some "x", patterns := [levelRule height] }

/-- Operands with a separator behind each. -/
def operandLine (count : Nat) : List Char := (List.replicate count ['a', ',']).flatten

/-- A pattern without groups that is matched by the same code on all lines. -/
def uniformPattern (text : List Char) (code : Pattern.Code) (lead : Option CharSet) : Pattern :=
  let program : Pattern.Program := ⟨code, #[.never], 0, false, lead, []⟩
  ⟨text, text, .ok program, .ok program⟩

def operandAhead : Pattern :=
  uniformPattern ['(', '?', '=', 'a', ')'] (.ahead false (.text ['a'])) none

def noOperandAhead : Pattern :=
  uniformPattern ['(', '?', '!', 'a', ')'] (.ahead true (.text ['a'])) none

def operandTaken : Pattern := uniformPattern ['a'] (.text ['a']) (some (.single 97))

/-- The rule of a level in front of the given next one. -/
def isLevel (next : RuleId) (rule : Rule) : Bool :=
  !rule.disabled && match rule.kind with
    | .region r => r.opening = operandAhead ∧ r.closing = noOperandAhead ∧ r.closingLast = false ∧
        r.patterns = [next]
    | _ => false

/-- The rule that takes an operand. -/
def isOperand (rule : Rule) : Bool :=
  !rule.disabled && match rule.kind with
    | .single m => m.pattern = operandTaken
    | _ => false

/-- The rule of the grammar. -/
def isGround (rule : Rule) : Bool :=
  match rule.kind with
  | .group g => g.patterns = [1]
  | _ => false

/-- An include. -/
def isInclude (rule : Rule) : Bool :=
  match rule.kind with
  | .link _ => true
  | _ => false

/-- Nothing is wrong with a grammar without includes once it has been loaded without diagnostics. -/
theorem diagnostics_link_eq_nil {g : Grammar} (hloaded : g.diagnostics = [])
    (hrules : g.rules.all fun rule => !isInclude rule) (path : String)
    (find : String → Option Grammar) : (g.link path find).diagnostics = [] := by
  have hunresolved : (g.link path find).unresolved = [] := by
    show g.ruleOrder.filterMap (g.unresolved? path find) = []
    rw [List.filterMap_eq_nil_iff]
    intro id _
    unfold Grammar.unresolved?
    split
    · rename_i rule hrule
      have hkind := Array.all_eq_true_iff_forall_mem.1 hrules rule (Array.mem_of_getElem? hrule)
      unfold isInclude at hkind
      split
      · rename_i reference hlink
        rw [hlink] at hkind
        cases hkind
      · rfl
    · rfl
  show g.diagnostics ++ _ = []
  rw [hloaded, hunresolved]
  rfl

/-- The grammar of a tower, checked rule by rule. -/
theorem tower_of_rules {g : Grammar} (hheight : height + 1 < UInt32.size)
    (hloaded : t.registry.loaded? path = some g) (hground : (g.rule? 0).any isGround)
    (hlevels : (List.range height).all fun i => (g.rule? (i + 1)).any (isLevel (i + 2)))
    (hoperand : (g.rule? (height + 1)).any isOperand)
    (hroom : height < t.options.maxStackDepth.toNat)
    (hincludes : 0 < t.options.maxIncludeDepth.toNat) :
    t.Tower path height operandAhead noOperandAhead operandTaken := by
  have hrule : ∀ i ≤ height + 1, t.rule? ⟨path, i⟩ = g.rule? i := by
    intro i hi
    obtain ⟨linked, hfind, rfl⟩ := Option.map_eq_some_iff.1 hloaded
    show t.registry.rule? ⟨path, i⟩ = _
    rw [Registry.rule?, if_pos (Nat.lt_of_le_of_lt hi hheight), hfind]
    rfl
  refine ⟨?_, ?_, ?_, by decide, hroom, hincludes⟩
  · obtain ⟨rule, hg, his⟩ := (Option.any_eq_true ..).1 hground
    unfold isGround at his
    split at his
    · rename_i group hkind
      exact ⟨rule, group, (hrule 0 (Nat.zero_le _)).trans hg, hkind, of_decide_eq_true his⟩
    · cases his
  · intro i hi
    obtain ⟨rule, hg, his⟩ :=
      (Option.any_eq_true ..).1 (List.all_eq_true.1 hlevels i (List.mem_range.2 hi))
    unfold isLevel at his
    rw [Bool.and_eq_true, Bool.not_eq_true'] at his
    obtain ⟨henabled, his⟩ := his
    split at his
    · rename_i r hkind
      obtain ⟨hopening, hclosing, hlast, hpatterns⟩ := of_decide_eq_true his
      exact ⟨rule, r, (hrule (i + 1) (by omega)).trans hg, henabled, hkind, hopening, hclosing,
        hlast, hpatterns⟩
    · cases his
  · obtain ⟨rule, hg, his⟩ := (Option.any_eq_true ..).1 hoperand
    unfold isOperand at his
    rw [Bool.and_eq_true, Bool.not_eq_true'] at his
    obtain ⟨henabled, his⟩ := his
    split at his
    · rename_i m hkind
      exact ⟨rule, m, (hrule (height + 1) (Nat.le_refl _)).trans hg, henabled, hkind,
        of_decide_eq_true his⟩
    · cases his

/-- The operands of a line of forty. -/
theorem operand_operandLine : ∀ j < 40, Operand (.ofText (operandLine 40 ++ ['\n'])) operandAhead
    noOperandAhead operandTaken (2 * j - 1) (2 * j) (2 * (j + 1) - 1) := by
  intro j hj
  have hplaces : ∀ p < 81,
      (IndexedText.ofText (operandLine 40 ++ ['\n'])).place? p = some p := by
    decide +kernel
  have hbegins : ∀ j < 40, ∀ p ∈ [2 * j - 1, 2 * j], ∀ firstLine,
      operandAhead.findFrom? (.ofText (operandLine 40 ++ ['\n'])) p firstLine =
        some ⟨2 * j, 2 * j, [some ⟨2 * j, 2 * j⟩]⟩ := by
    decide +kernel
  have htaken : ∀ j < 40, ∀ firstLine,
      operandTaken.findFrom? (.ofText (operandLine 40 ++ ['\n'])) (2 * j) firstLine =
        some ⟨2 * j, 2 * j + 1, [some ⟨2 * j, 2 * j + 1⟩]⟩ := by
    decide +kernel
  have hends : ∀ j < 40, ∀ p ∈ [2 * j, 2 * j + 1], ∀ firstLine,
      noOperandAhead.findFrom? (.ofText (operandLine 40 ++ ['\n'])) p firstLine =
        some ⟨2 * j + 1, 2 * j + 1, [some ⟨2 * j + 1, 2 * j + 1⟩]⟩ := by
    decide +kernel
  have hbehind : 2 * (j + 1) - 1 = 2 * j + 1 := by omega
  rw [hbehind]
  refine ⟨Nat.sub_le _ _, Nat.lt_succ_self _, ?_, ?_, ?_⟩
  · rintro offset hoffset
    exact ⟨offset, hplaces offset (by omega), fun firstLine =>
      ⟨_, hbegins j hj offset (by simpa using hoffset) firstLine, rfl, rfl⟩⟩
  · refine ⟨2 * j, hplaces (2 * j) (by omega), fun firstLine =>
      ⟨⟨_, htaken j hj firstLine, rfl, rfl⟩, ?_⟩⟩
    intro found hfound
    rw [hends j hj (2 * j) (by simp) firstLine] at hfound
    cases hfound
    exact Nat.lt_succ_self _
  · exact ⟨2 * j + 1, hplaces (2 * j + 1) (by omega), fun firstLine =>
      ⟨_, hends j hj (2 * j + 1) (by simp) firstLine, rfl, rfl⟩⟩

/-- **There are lines that the budget cuts short.** A grammar in which nothing is wrong, with twenty
levels around an operand, and a line of forty operands: when all the steps that the line may take have
been taken, there is another one. -/
theorem budget_cut_short :
    ∃ (g : Grammar) (r : Registry) (t : Tokenizer),
      Grammar.ofDefinition (levelGrammar 20) = .ok g ∧
      r.Reached (Function.update (fun _ => none) "x" (some g)) ∧
      (∀ path linked, r.find? path = some linked → linked.diagnostics = []) ∧
      r.tokenizer "x" .standard = .ok t ∧
      let text := IndexedText.ofText (operandLine 40 ++ ['\n'])
      let searching := Searching.remembering.keeping
      let retok := t.retokenize searching 256
      (t.step? searching retok text (t.run searching retok text (t.budget text)
        (t.start searching retok text t.initialStack (.empty, .empty)))).isSome := by
  let scope : Scope := ⟨[.name { chars := ['x'] }], by decide⟩
  let g := Grammar.ofScoped (levelGrammar 20) scope
  have hg : Grammar.ofDefinition (levelGrammar 20) = .ok g := rfl
  have hpath : Registry.checkPath "x" = .ok () := rfl
  obtain ⟨r, hreached⟩ : ∃ r : Registry, r.Reached _ := ⟨_, Registry.reached_single hg hpath⟩
  have hloaded : r.loaded? "x" = some g := by
    rw [hreached.linked.loaded?_eq]
    exact Function.update_self ..
  let t : Tokenizer := ⟨r, "x", scope, .standard⟩
  have ht : r.tokenizer "x" .standard = .ok t := hreached.tokenizer (Function.update_self ..) .standard
  have hnofault : g.diagnostics = [] := by
    rw [← List.isEmpty_iff]
    decide +kernel
  have hnolink : g.rules.all (fun rule => !isInclude rule) = true := by decide +kernel
  refine ⟨g, r, t, hg, hreached, ?_, ht, ?_⟩
  · intro path linked hfind
    rw [hreached.linked.find?] at hfind
    obtain ⟨g', hg', rfl⟩ := Option.map_eq_some_iff.1 hfind
    rw [Registry.eq_of_held_single hg']
    exact diagnostics_link_eq_nil hnofault hnolink path _
  intro text searching retok
  have htower : t.Tower "x" 20 operandAhead noOperandAhead operandTaken := by
    have hroom : 20 < Options.standard.maxStackDepth.toNat := by decide
    have hincludes : 0 < Options.standard.maxIncludeDepth.toNat := by decide
    refine tower_of_rules (by decide) hloaded ?_ ?_ ?_ hroom hincludes
    · decide +kernel
    · decide +kernel
    · decide +kernel
  have hplain : g.rules.all (fun rule => (entryPattern? rule).all Pattern.isPlain) = true := by
    decide +kernel
  have hleft : t.SearchesLeftmost := searchesLeftmost_of_single hreached hplain
  -- what is kept of the searches and from line to line does not show
  have hkept : Tables.Hidden t (.ofText []) true (.empty, .empty) .empty :=
    ⟨rfl, Tables.right_empty t⟩
  have hspared : SearchMemory.Spared t (.ofText []) true .empty () :=
    SearchMemory.faithful_nil t (.ofText []) true
  rw [isSome_step?_run_eq (Searching.keeping_simulates t) 256 _ text _ hkept,
    isSome_step?_run_eq (Searching.remembering_simulates hleft) 256 _ text _ hspared]
  have hbudget : t.budget text < 40 * (2 * 20 + 1) := by
    have hbytes : text.byteLength = 81 := by decide +kernel
    have hroom : Options.standard.maxStackDepth.toNat = 256 := rfl
    show (4 * (text.byteLength + 1) + 4 * Options.standard.maxStackDepth.toNat) % UInt64.size < _
    rw [hbytes, hroom]
    decide
  have hstack : Climbed "x" 0 0 t.initialStack := .ground rfl rfl
  exact htower.isSome_step?_run_budget _ (by decide) operand_operandLine hstack rfl hbudget

end Tokenizer

end Highlight
