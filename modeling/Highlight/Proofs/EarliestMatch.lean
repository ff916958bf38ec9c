import Highlight.Pattern.Literal
import Highlight.Proofs.OpenFrames

/-!
# The earliest match wins

Inside of a region the patterns of its rules are searched for, and the pattern that ends it. All of
them could be searched for first and the matches compared afterwards; the search goes through them once
instead, keeps the best match so far, and stops at a match that cannot be beaten. It comes to the same:
the match that begins first wins, and of those that begin at the same place the one that was declared
first. The end of a region counts as declared before the rules in it, or else behind all of them.

- `Contender`, `Tokenizer.contenders`: what is searched for, in the order of declaration.
- `Tokenizer.nested_choices`: every candidate inside of a rule is searched for.
- `Contender.Best`: the first of the earliest matches of a list of contenders.
- `Tokenizer.bestOf_best`: going through the rules keeps the best match so far.
- `Tokenizer.Wins`: what is asked of the match that wins.
- `Tokenizer.earliest_match_wins`: the main statement.
-/

namespace Highlight

section

variable [Engine]

/-- A pattern that is searched for, and where its matches come from. -/
structure Contender where
  choice : Choice
  pattern : Pattern

namespace Contender

/-- The first match of a contender from a place on. -/
def found? (c : Contender) (line : IndexedText) (place : Nat) (firstLine : Bool) : Option Found :=
  c.pattern.findFrom? line place firstLine

/-- The first of the earliest matches of some contenders: those in front begin later, and those behind
do not begin earlier. There is none if no contender matches. -/
def Best (line : IndexedText) (place : Nat) (firstLine : Bool) (contenders : List Contender) :
    Option (Choice × Found) → Prop
  | none => ∀ c ∈ contenders, c.found? line place firstLine = none
  | some (choice, found) => ∃ front c back, contenders = front ++ c :: back ∧ c.choice = choice ∧
      c.found? line place firstLine = some found ∧
      (∀ d ∈ front, ∀ other, d.found? line place firstLine = some other →
        found.start < other.start) ∧
      ∀ d ∈ back, ∀ other, d.found? line place firstLine = some other → found.start ≤ other.start

variable {line : IndexedText} {place : Nat} {firstLine : Bool} {seen more : List Contender}
  {best : Option (Choice × Found)} {c : Contender} {choice : Choice} {found : Found}

/-- What comes behind the best match does not change it, unless it begins earlier. -/
theorem Best.append (h : Best line place firstLine seen (some (choice, found)))
    (hmore : ∀ d ∈ more, ∀ other, d.found? line place firstLine = some other →
      found.start ≤ other.start) :
    Best line place firstLine (seen ++ more) (some (choice, found)) := by
  obtain ⟨front, c, back, rfl, hchoice, hfound, hfront, hback⟩ := h
  refine ⟨front, c, back ++ more, by simp, hchoice, hfound, hfront, ?_⟩
  intro d hd
  rcases List.mem_append.1 hd with hd | hd
  · exact hback d hd
  · exact hmore d hd

/-- A contender that does not match leaves the best match as it is. -/
theorem Best.pass (h : Best line place firstLine seen best)
    (hc : c.found? line place firstLine = none) : Best line place firstLine (seen ++ [c]) best := by
  match best with
  | none =>
    intro d hd
    rcases List.mem_append.1 hd with hd | hd
    · exact h d hd
    · rw [List.mem_singleton.1 hd]
      exact hc
  | some (choice, found) =>
    refine h.append fun d hd other hother => ?_
    rw [List.mem_singleton.1 hd, hc] at hother
    cases hother

/-- A contender whose match does not begin earlier leaves the best match as it is. -/
theorem Best.keep (h : Best line place firstLine seen best)
    (hc : c.found? line place firstLine = some found)
    (hlate : ∃ b, best = some b ∧ b.2.start ≤ found.start) :
    Best line place firstLine (seen ++ [c]) best := by
  obtain ⟨⟨choice, first⟩, rfl, hle⟩ := hlate
  refine h.append fun d hd other hother => ?_
  rw [List.mem_singleton.1 hd, hc] at hother
  cases hother
  exact hle

/-- A contender whose match begins earlier than the best so far has the best match. -/
theorem Best.take (h : Best line place firstLine seen best)
    (hc : c.found? line place firstLine = some found)
    (hearly : ∀ b, best = some b → found.start < b.2.start) :
    Best line place firstLine (seen ++ [c]) (some (c.choice, found)) := by
  refine ⟨seen, c, [], rfl, rfl, hc, ?_, fun d hd => absurd hd List.not_mem_nil⟩
  intro d hd other hother
  match best with
  | none =>
    rw [h d hd] at hother
    cases hother
  | some (choice, first) =>
    have hlt : found.start < first.start := hearly _ rfl
    obtain ⟨front, winner, back, rfl, -, hfirst, hfront, hback⟩ := h
    rcases List.mem_append.1 hd with hd | hd
    · exact Nat.lt_trans hlt (hfront d hd other hother)
    · rcases List.mem_cons.1 hd with rfl | hd
      · cases hfirst.symm.trans hother
        exact hlt
      · exact Nat.lt_of_lt_of_le hlt (hback d hd other hother)

end Contender

namespace Tokenizer

variable {t : Tokenizer} {stack : Stack} {line : IndexedText} {place : Nat} {firstLine : Bool}

/-- The pattern by which a rule is found. -/
def contender? (t : Tokenizer) (ref : RuleRef) : Option Contender :=
  ((t.rule? ref).bind entryPattern?).map fun p => ⟨.rule ref, p⟩

/-- The pattern that ends the region of a frame, with captured text filled in if there was any to fill
in. -/
def endContender (f : Frame) (r : EndRule) : Contender :=
  ⟨.close, (Searching.anew.filledPattern r.closing f.endPattern ()).1⟩

/-- The patterns of the rules inside of the innermost region. -/
def nested (t : Tokenizer) (stack : Stack) : List Contender :=
  (t.candidates stack.top.rule).filterMap t.contender?

/-- All that is searched for inside of the innermost region, in the order of declaration. -/
def contenders (t : Tokenizer) (stack : Stack) : List Contender :=
  match t.closing? stack.top with
  | none => t.nested stack
  | some r =>
    if r.closingLast then t.nested stack ++ [endContender stack.top r]
    else endContender stack.top r :: t.nested stack

/-- **Going through rules keeps the best match so far**, if no match begins before the place of the
search. -/
theorem bestOf_best (rules : List RuleRef) {seen : List Contender}
    {best : Option (Choice × Found)} (h : Contender.Best line place firstLine seen best)
    (hahead : ∀ c ∈ rules.filterMap t.contender?, ∀ found,
      c.found? line place firstLine = some found → line.offset place ≤ found.start) :
    Contender.Best line place firstLine (seen ++ rules.filterMap t.contender?)
      (t.bestOf .anew line place firstLine rules best ()).1 := by
  induction rules generalizing seen best with
  | nil =>
    rw [List.filterMap_nil, List.append_nil]
    exact h
  | cons ref rest ih =>
    unfold bestOf
    cases hpattern : (t.rule? ref).bind entryPattern? with
    | none =>
      have hcontender : t.contender? ref = none := by rw [contender?, hpattern, Option.map_none]
      rw [List.filterMap_cons_none hcontender] at hahead ⊢
      exact ih h hahead
    | some pattern =>
      have hcontender : t.contender? ref = some ⟨.rule ref, pattern⟩ := by
        rw [contender?, hpattern, Option.map_some]
      rw [List.filterMap_cons_some hcontender] at hahead ⊢
      obtain ⟨-, hrest⟩ := List.forall_mem_cons.1 hahead
      rw [← List.singleton_append, ← List.append_assoc]
      simp only [Searching.anew]
      cases hfound : pattern.findFrom? line place firstLine with
      | none => exact ih (h.pass hfound) hrest
      | some found =>
        simp only
        split
        · rename_i hlate
          refine ih (h.keep (c := ⟨.rule ref, pattern⟩) hfound ?_) hrest
          simpa [Option.any_eq_true] using hlate
        · rename_i hearly
          have htake := h.take (c := ⟨.rule ref, pattern⟩) hfound (by
            rintro b rfl
            simpa using hearly)
          split
          · rename_i hhere
            -- no later contender begins before the place of the search
            exact htake.append fun d hd other hother => hhere ▸ hrest d hd other hother
          · exact ih htake hrest

/-- The match that wins is the first of the earliest among all that is searched for. -/
theorem next?_best (hahead : ∀ c ∈ t.contenders stack, ∀ found,
      c.found? line place firstLine = some found → line.offset place ≤ found.start) :
    Contender.Best line place firstLine (t.contenders stack)
      (t.next? .anew stack line place firstLine ()).1 := by
  have hnone : Contender.Best line place firstLine [] none :=
    fun _ hc => absurd hc List.not_mem_nil
  unfold contenders at hahead ⊢
  unfold next?
  cases hclosing : t.closing? stack.top with
  | none =>
    rw [hclosing] at hahead
    exact bestOf_best _ hnone hahead
  | some r =>
    rw [hclosing] at hahead
    cases hlast : r.closingLast with
    | true =>
      simp only [hlast, if_true] at hahead ⊢
      have hbest := bestOf_best _ hnone fun c hc => hahead c (List.mem_append_left _ hc)
      rw [List.nil_append] at hbest
      cases hfound : (Searching.anew.filledPattern r.closing stack.top.endPattern ()).1.findFrom? line
          place firstLine with
      | none =>
        simp only
        exact hbest.pass hfound
      | some found =>
        simp only
        split
        · rename_i hall
          have hearly : (t.bestOf .anew line place firstLine (t.candidates stack.top.rule) none
              ()).1.all (fun b => found.start < b.2.start) := hall
          refine hbest.take hfound fun b hb => ?_
          simpa [hb] using hearly
        · rename_i hall
          have hlate : ¬ (t.bestOf .anew line place firstLine (t.candidates stack.top.rule) none
              ()).1.all (fun b => found.start < b.2.start) := hall
          refine hbest.keep hfound ?_
          simpa [Option.all_eq_true] using hlate
    | false =>
      simp only [hlast, Bool.false_eq_true, if_false] at hahead ⊢
      obtain ⟨-, hrest⟩ := List.forall_mem_cons.1 hahead
      rw [← List.singleton_append]
      cases hfound : (Searching.anew.filledPattern r.closing stack.top.endPattern ()).1.findFrom? line
          place firstLine with
      | none =>
        simp only
        exact bestOf_best _ (hnone.pass hfound) hrest
      | some found =>
        simp only
        have htake := hnone.take (c := endContender stack.top r) hfound nofun
        split
        · rename_i hhere
          exact htake.append fun d hd other hother => hhere ▸ hrest d hd other hother
        · exact bestOf_best _ htake hrest

/-! ## The winner -/

/-- A rule that can match has a pattern to be found by. -/
theorem entryPattern?_isSome {rule : Rule} (h : Registry.isCandidate rule) :
    (entryPattern? rule).isSome := by
  unfold Registry.isCandidate at h
  unfold entryPattern?
  split at h
  all_goals simp_all

/-- No candidate is left out of the search, and they are searched for in their order. -/
theorem nested_choices (t : Tokenizer) (stack : Stack) :
    (t.nested stack).map Contender.choice = (t.candidates stack.top.rule).map Choice.rule := by
  have hcandidates : ∀ ref ∈ t.candidates stack.top.rule, t.registry.Offers ref :=
    fun _ => Registry.offers_of_mem_candidates
  unfold nested
  generalize t.candidates stack.top.rule = refs at hcandidates ⊢
  induction refs with
  | nil => rfl
  | cons ref rest ih =>
    obtain ⟨⟨rule, hrule, -, hcandidate⟩, hrest⟩ := List.forall_mem_cons.1 hcandidates
    obtain ⟨pattern, hpattern⟩ := Option.isSome_iff_exists.1 (entryPattern?_isSome hcandidate)
    have hcontender : t.contender? ref = some ⟨.rule ref, pattern⟩ := by
      rw [contender?, rule?, hrule, Option.bind_some, hpattern, Option.map_some]
    rw [List.filterMap_cons_some hcontender, List.map_cons, List.map_cons, ih hrest]

theorem choice_ne_close {c : Contender} (h : c ∈ t.nested stack) : c.choice ≠ .close := by
  have hchoice := List.mem_map_of_mem (f := Contender.choice) h
  rw [nested_choices] at hchoice
  obtain ⟨ref, -, href⟩ := List.mem_map.1 hchoice
  rw [← href]
  nofun

/-- What is asked of the match that wins inside of the innermost region. -/
structure Wins (t : Tokenizer) (stack : Stack) (line : IndexedText) (place : Nat)
    (firstLine : Bool) (choice : Choice) (found : Found) : Prop where
  /-- No match begins earlier. -/
  earliest : ∀ c ∈ t.contenders stack, ∀ other, c.found? line place firstLine = some other →
    found.start ≤ other.start
  /-- A rule wins by its own first match, and the rules declared before it match later. -/
  declared : ∀ ref, choice = .rule ref → ∃ front c back, t.nested stack = front ++ c :: back ∧
    c.choice = .rule ref ∧ c.found? line place firstLine = some found ∧
    ∀ d ∈ front, ∀ other, d.found? line place firstLine = some other → found.start < other.start
  /-- The end wins by its own first match, and if it is declared last then all rules match later. -/
  closed : choice = .close → ∃ r, t.closing? stack.top = some r ∧
    (endContender stack.top r).found? line place firstLine = some found ∧
    (r.closingLast = true → ∀ c ∈ t.nested stack, ∀ other,
      c.found? line place firstLine = some other → found.start < other.start)
  /-- The end goes before the rules that match at the same place, unless it is declared last. -/
  closeFirst : ∀ r, t.closing? stack.top = some r → r.closingLast = false →
    ∀ other, (endContender stack.top r).found? line place firstLine = some other →
      other.start = found.start → choice = .close

/-- A contender is one of the rules, or else the end, and what is declared in front of it is known. -/
theorem contenders_split {front back : List Contender} {c : Contender}
    (h : t.contenders stack = front ++ c :: back) :
    (c ∈ t.nested stack ∧ ∃ before behind, t.nested stack = before ++ c :: behind ∧
      (∀ d ∈ before, d ∈ front) ∧ ∀ r, t.closing? stack.top = some r → r.closingLast = false →
        endContender stack.top r ∈ front) ∨
      ∃ r, t.closing? stack.top = some r ∧ c = endContender stack.top r ∧
        (r.closingLast = true → t.nested stack = front) := by
  have hmem : ∀ {before behind}, t.nested stack = before ++ c :: behind → c ∈ t.nested stack := by
    intro before behind hnested
    rw [hnested]
    exact List.mem_append_right _ List.mem_cons_self
  unfold contenders at h
  split at h
  · rename_i hclosing
    refine .inl ⟨hmem h, front, back, h, fun _ hd => hd, fun r hr => ?_⟩
    cases hclosing.symm.trans hr
  · rename_i r hclosing
    split at h
    · rename_i hlast
      rcases List.eq_nil_or_concat back with rfl | ⟨behind, last, rfl⟩
      · obtain ⟨hnested, hend⟩ := List.append_inj' h rfl
        exact .inr ⟨r, hclosing, (List.singleton_inj.1 hend).symm, fun _ => hnested⟩
      · rw [List.concat_eq_append, ← List.cons_append, ← List.append_assoc] at h
        have hnested := (List.append_inj' h rfl).1
        refine .inl ⟨hmem hnested, front, behind, hnested, fun _ hd => hd, fun r' hr' hfirst => ?_⟩
        cases hclosing.symm.trans hr'
        exact absurd hlast (Bool.eq_false_iff.1 hfirst)
    · rename_i hfirst
      cases front with
      | nil =>
        obtain ⟨hend, -⟩ := List.cons.inj h
        exact .inr ⟨r, hclosing, hend.symm, fun hlast => absurd hlast hfirst⟩
      | cons d before =>
        obtain ⟨rfl, hnested⟩ := List.cons.inj h
        refine .inl ⟨hmem hnested, before, back, hnested, fun _ => List.mem_cons_of_mem _, ?_⟩
        intro r' hr' _
        cases hclosing.symm.trans hr'
        exact List.mem_cons_self

/-- The first of the earliest matches is the one that is asked for. -/
theorem wins_of_best {choice : Choice} {found : Found}
    (h : Contender.Best line place firstLine (t.contenders stack) (some (choice, found))) :
    t.Wins stack line place firstLine choice found := by
  obtain ⟨front, c, back, hsplit, rfl, hfound, hfront, hback⟩ := h
  have hearliest : ∀ d ∈ t.contenders stack, ∀ other, d.found? line place firstLine = some other →
      found.start ≤ other.start := by
    rw [hsplit]
    intro d hd other hother
    rcases List.mem_append.1 hd with hd | hd
    · exact Nat.le_of_lt (hfront d hd other hother)
    · rcases List.mem_cons.1 hd with rfl | hd
      · cases hfound.symm.trans hother
        exact Nat.le_refl _
      · exact hback d hd other hother
  rcases contenders_split hsplit with
    ⟨hmem, before, behind, hnested, hbefore, hend⟩ | ⟨r, hclosing, rfl, hlast⟩
  · refine ⟨hearliest, fun ref href => ?_, fun hclose => ?_, ?_⟩
    · exact ⟨before, c, behind, hnested, href, hfound, fun d hd => hfront d (hbefore d hd)⟩
    · exact absurd hclose (choice_ne_close hmem)
    · intro r hclosing hfirst other hother heq
      exact absurd heq (Nat.ne_of_gt (hfront _ (hend r hclosing hfirst) other hother))
  · refine ⟨hearliest, fun ref href => ?_, fun _ => ?_, fun _ _ _ _ _ _ => rfl⟩
    · cases href
    · refine ⟨r, hclosing, hfound, fun htrue => ?_⟩
      rw [hlast htrue]
      exact hfront

/-- **The earliest match wins**, and of those that begin at the same place the one that is declared
first, where the end of a region is declared before all of its rules or else behind them. Every
candidate is searched for, and nothing is found only if none of them matches. -/
theorem earliest_match_wins (t : Tokenizer) (stack : Stack) (line : IndexedText) (place : Nat)
    (firstLine : Bool)
    (hahead : ∀ c ∈ t.contenders stack, ∀ found, c.found? line place firstLine = some found →
      line.offset place ≤ found.start) :
    (t.nested stack).map Contender.choice = (t.candidates stack.top.rule).map Choice.rule ∧
      ((t.next? .anew stack line place firstLine ()).1 = none ↔
        ∀ c ∈ t.contenders stack, c.found? line place firstLine = none) ∧
      ∀ choice found, (t.next? .anew stack line place firstLine ()).1 = some (choice, found) →
        t.Wins stack line place firstLine choice found := by
  have hbest := next?_best hahead
  refine ⟨nested_choices t stack, ⟨fun hnone => ?_, fun hall => ?_⟩, fun choice found hsome => ?_⟩
  · rw [hnone] at hbest
    exact hbest
  · cases hnext : (t.next? .anew stack line place firstLine ()).1 with
    | none => rfl
    | some winner =>
      obtain ⟨choice, found⟩ := winner
      rw [hnext] at hbest
      obtain ⟨front, c, back, hsplit, -, hfound, -⟩ := hbest
      have hmem : c ∈ t.contenders stack := by
        rw [hsplit]
        exact List.mem_append_right _ List.mem_cons_self
      rw [hall c hmem] at hfound
      cases hfound
  · rw [hsome] at hbest
    exact wins_of_best hbest

end Tokenizer

end

namespace Tokenizer

set_option maxRecDepth 100000 in
/-- A region that is ended by what a rule in it matches as well. The end is declared last, so the rule
wins where both match. -/
theorem earliest_match_wins_end_last :
    let x : Part := .name { chars := ['x'] }
    let a : Part := .name { chars := ['a'] }
    let single : RuleDefinition := { keys := { matchText := some "c" } }
    let region : RuleDefinition :=
      { keys := { beginText := some "b", endText := some "c", endLast := true },
        patterns := some [single] }
    let d : GrammarDefinition := { scopeName := some "x.a", patterns := [region] }
    let scope : Scope := ⟨[x, a], by decide⟩
    let held := Function.update (fun _ => none) "x.a" (some (Grammar.ofScoped d scope))
    let line := IndexedText.ofText ['b', 'd', 'c', '\n']
    let found : Found := ⟨2, 3, [some ⟨2, 3⟩]⟩
    ∃ r : Registry, r.Reached held ∧
      let t : Tokenizer := ⟨r, "x.a", scope, .standard⟩
      let stack := t.initialStack.pushRegion ⟨"x.a", 1⟩ 0 [scope]
      (∀ c ∈ t.contenders stack, ∀ found, c.found? line 1 true = some found →
        line.offset 1 ≤ found.start) ∧
      (∃ ending, t.closing? stack.top = some ending ∧
        (endContender stack.top ending).found? line 1 true = some found) ∧
      t.Wins stack line 1 true (.rule ⟨"x.a", 2⟩) found := by
  intro x a single region d scope held line found
  have hg : Grammar.ofDefinition d = .ok (Grammar.ofScoped d scope) := rfl
  have hpath : Registry.checkPath "x.a" = .ok () := rfl
  -- the searches are worked out before the registry is hidden behind its name
  obtain ⟨r, hreached, hahead, hclosing, hnext⟩ : ∃ r : Registry, r.Reached held ∧
      let t : Tokenizer := ⟨r, "x.a", scope, .standard⟩
      let stack := t.initialStack.pushRegion ⟨"x.a", 1⟩ 0 [scope]
      ((t.contenders stack).all fun c => (c.found? line 1 true).all fun found =>
        line.offset 1 ≤ found.start) = true ∧
      ((t.closing? stack.top).any fun ending =>
        (endContender stack.top ending).found? line 1 true = some found) = true ∧
      (t.next? .anew stack line 1 true ()).1 = some (.rule ⟨"x.a", 2⟩, found) :=
    ⟨_, Registry.reached_single hg hpath, by
      decide +kernel, by decide +kernel, by decide +kernel⟩
  refine ⟨r, hreached, ?_⟩
  intro t stack
  have hahead' : ∀ c ∈ t.contenders stack, ∀ found, c.found? line 1 true = some found →
      line.offset 1 ≤ found.start := by
    intro c hc found hfound
    have hall := List.all_eq_true.1 hahead c hc
    rw [hfound] at hall
    exact of_decide_eq_true hall
  obtain ⟨ending, hending, hfound⟩ := (Option.any_eq_true _ _).1 hclosing
  obtain ⟨-, -, hwins⟩ := earliest_match_wins t stack line 1 true hahead'
  exact ⟨hahead', ⟨ending, hending, of_decide_eq_true hfound⟩, hwins _ _ hnext⟩

end Tokenizer

end Highlight
