import Highlight.Pattern
import Highlight.Pattern.Literal

/-!
# Searches are leftmost

A search tries the places of a line in order, so what it finds from one place it also finds from every
later place up to the start of the match. One thing can spoil this: `\K` moves the start of a match
away from the place where it was tried. A code without it never does, and neither does the search for
the first match, as opposed to the longest one.

- `Pattern.Leftmost`: what a search from one place tells about searches from later ones.
- `Code.isSteady`: codes that leave the start of a match where it is.
- `State.Steady`: the machine while it carries out such codes.
- `Matcher.step_steady`, `Matcher.run_steady`: it keeps the start of the match.
- `Program.search?_later`: searches that begin later find the same.
- `Pattern.leftmost_of_isPlain`: patterns for which searches are leftmost.
-/

namespace Highlight

namespace Pattern

/-- What a search from a place finds tells what searches from later places of the line find: nothing
if it found nothing, and the same match up to where that begins. -/
def Leftmost [Engine] (p : Pattern) : Prop :=
  ∀ (line : IndexedText) (firstLine : Bool) (early late : Nat), early ≤ late → late ≤ line.size →
    (p.findFrom? line early firstLine = none → p.findFrom? line late firstLine = none) ∧
    ∀ found, p.findFrom? line early firstLine = some found → line.offset late ≤ found.start →
      p.findFrom? line late firstLine = some found

/-! ## Codes that leave the start of a match where it is -/

/-- Whether a code leaves the start of a match where it is. -/
def Code.isSteady : Code → Bool
  | .keep => false
  | .seq a b => a.isSteady && b.isSteady
  | .alt a b => a.isSteady && b.isSteady
  | .loop _ _ _ body => body.isSteady
  | .counted _ _ body => body.isSteady
  | .group _ _ body => body.isSteady
  | .atomic body => body.isSteady
  | .ahead _ body => body.isSteady
  | .behind _ _ body => body.isSteady
  | .conditional c yes no => c.isSteady && yes.isSteady && no.isSteady
  | _ => true

/-- The codes of a task leave the start of a match where it is. -/
def Task.Steady : Task → Prop
  | .code c => c.isSteady
  | .startRound _ _ body => body.isSteady
  | .endRound _ _ body _ _ => body.isSteady
  | .startCount _ _ body _ => body.isSteady
  | .endCount _ _ body _ _ _ => body.isSteady
  | _ => True

/-- The tasks to go back to leave the start of a match where it is, and it has not been moved before. -/
def Entry.Steady : Entry → Prop
  | .choice tasks _ => ∀ task ∈ tasks, task.Steady
  | .shorter tasks _ _ => ∀ task ∈ tasks, task.Steady
  | .longer tasks _ _ _ => ∀ task ∈ tasks, task.Steady
  | .farther tasks _ _ => ∀ task ∈ tasks, task.Steady
  | .kept _ => False
  | _ => True

/-- All that is to be done, and all that can be gone back to, leaves the start of the match where it
is. -/
structure State.Steady (start : Nat) (s : State) : Prop where
  keep : s.keep = start
  tasks : ∀ task ∈ s.tasks, task.Steady
  stack : ∀ e ∈ s.stack, e.Steady

namespace State

variable {start : Nat} {s : State} {tasks : List Task}

/-- A steady entry can be put on the stack. -/
theorem Steady.push (h : s.Steady start) {e : Entry} (he : e.Steady) : (s.push e).Steady start :=
  ⟨h.keep, h.tasks, List.forall_mem_cons.2 ⟨he, h.stack⟩⟩

/-- Undoing a steady entry does not move the start of the match. -/
theorem keep_undo (s : State) {e : Entry} (he : e.Steady) : (s.undo e).keep = s.keep := by
  cases e with
  | kept before => exact he.elim
  | _ => rfl

theorem stack_undo (s : State) (e : Entry) : (s.undo e).stack = s.stack := by
  cases e <;> rfl

theorem tasks_undo (s : State) (e : Entry) : (s.undo e).tasks = s.tasks := by
  cases e <;> rfl

/-- Going back through steady entries leads to a steady state. -/
theorem backThrough_steady {text : IndexedText} {stack : List Entry} {s s' : State}
    (hkeep : s.keep = start) (hstack : ∀ e ∈ stack, e.Steady)
    (h : backThrough text stack s = some s') : s'.Steady start := by
  induction stack generalizing s with
  | nil => cases h
  | cons e stack ih =>
    obtain ⟨he, hrest⟩ := List.forall_mem_cons.1 hstack
    unfold backThrough at h
    cases e with
    | choice tasks place =>
      cases h
      exact ⟨hkeep, he, hrest⟩
    | shorter tasks least most =>
      have hs : State.Steady start { s with
          height := s.height - 1, tasks := tasks, place := most, stack := stack } :=
        ⟨hkeep, he, hrest⟩
      cases h
      split
      · exact hs.push he
      · exact hs
    | longer tasks set place left =>
      simp only at h
      split at h
      · split at h
        · have hs : State.Steady start { s with
              height := s.height - 1, tasks := tasks, place := place + 1, stack := stack } :=
            ⟨hkeep, he, hrest⟩
          split at h
          · cases h
            exact hs
          · cases h
            exact hs.push he
        · refine ih ?_ hrest h
          exact hkeep
      · refine ih ?_ hrest h
        exact hkeep
    | farther tasks place left =>
      simp only at h
      split at h
      · refine ih ?_ hrest h
        exact hkeep
      · have hs : State.Steady start { s with
            height := s.height - 1, tasks := tasks, place := place - 1, stack := stack } :=
          ⟨hkeep, he, hrest⟩
        split at h
        · cases h
          exact hs
        · cases h
          exact hs.push he
    | kept before => exact he.elim
    | _ =>
      -- the other entries change neither the start of the match nor what is left on the stack
      refine ih ?_ hrest h
      exact hkeep

/-- Going back leads to a steady state. -/
theorem Steady.goBack (h : s.Steady start) {text : IndexedText} {s' : State}
    (hs : s.goBack text = some s') : s'.Steady start :=
  backThrough_steady h.keep h.stack hs

theorem Steady.cutTo (h : s.Steady start) (height : Nat) : (s.cutTo height).Steady start := by
  unfold State.cutTo
  split
  · exact h
  · refine ⟨h.keep, h.tasks, fun e he => h.stack e ?_⟩
    rcases List.mem_append.1 he with he | he
    · exact List.mem_of_mem_take (List.mem_filter.1 he).1
    · exact List.mem_of_mem_drop he

/-- Undoing several entries leaves the state steady. -/
theorem undoEntries_steady (n : Nat) {s : State} (h : s.Steady start) :
    (undoEntries n s).Steady start := by
  induction n generalizing s with
  | zero => exact h
  | succ n ih =>
    unfold undoEntries
    split
    · exact h
    · rename_i e stack hcons
      obtain ⟨he, hrest⟩ := List.forall_mem_cons.1 (hcons ▸ h.stack)
      refine ih ⟨(keep_undo _ he).trans h.keep, ?_, ?_⟩
      · rw [tasks_undo]
        exact h.tasks
      · rw [stack_undo]
        exact hrest

theorem Steady.undoTo (h : s.Steady start) (height : Nat) : (s.undoTo height).Steady start :=
  undoEntries_steady _ h

end State

/-! ## The steps of the machine -/

namespace Matcher

variable {m : Matcher} {start : Nat} {s s' : State} {tasks : List Task} {check : EmptyCheck}
  {body : Code}

/-- Taking several characters goes back to fewer of them at most. -/
theorem takeMany_steady {times : Repetition} {set : CharSet} (h : s.Steady start)
    (ht : ∀ task ∈ tasks, task.Steady) (hs : m.takeMany times set tasks s = some s') :
    s'.Steady start := by
  have hmoved : ∀ place, State.Steady start { s with tasks := tasks, place := place } :=
    fun _ => ⟨h.keep, ht, h.stack⟩
  unfold takeMany at hs
  simp only at hs
  split at hs
  · split at hs
    · cases hs
      split
      · exact hmoved _
      · exact (hmoved _).push ht
    · exact h.goBack hs
  · split at hs
    · exact h.goBack hs
    · cases hs
      split
      · exact (hmoved _).push ht
      · exact hmoved _

theorem startRound_steady (isLazy : Bool) (check : EmptyCheck) (h : s.Steady start)
    (hbody : body.isSteady) (ht : ∀ task ∈ tasks, task.Steady) :
    (startRound isLazy check body tasks s).Steady start :=
  ⟨h.keep, List.forall_mem_cons.2 ⟨hbody, List.forall_mem_cons.2 ⟨hbody, ht⟩⟩, h.stack⟩

/-- A loop either begins another round or goes on behind it. -/
theorem goRound_steady (isLazy : Bool) (check : EmptyCheck) (h : s.Steady start)
    (hbody : body.isSteady) (ht : ∀ task ∈ tasks, task.Steady) :
    (goRound isLazy check body tasks s).Steady start := by
  unfold goRound
  split
  · have hmoved : State.Steady start { s with tasks := tasks } := ⟨h.keep, ht, h.stack⟩
    exact hmoved.push (List.forall_mem_cons.2 ⟨hbody, ht⟩)
  · exact startRound_steady isLazy check (h.push ht) hbody ht

theorem startCount_steady (times : Repetition) (check : EmptyCheck) (done : Nat)
    (h : s.Steady start) (hbody : body.isSteady) (ht : ∀ task ∈ tasks, task.Steady) :
    (startCount times check body done tasks s).Steady start :=
  ⟨h.keep, List.forall_mem_cons.2 ⟨hbody, List.forall_mem_cons.2 ⟨hbody, ht⟩⟩, h.stack⟩

/-- So does a counted loop. -/
theorem goCount_steady (times : Repetition) (check : EmptyCheck) (done : Nat)
    (h : s.Steady start) (hbody : body.isSteady) (ht : ∀ task ∈ tasks, task.Steady) :
    (goCount times check body done tasks s).Steady start := by
  have hmoved : State.Steady start { s with tasks := tasks } := ⟨h.keep, ht, h.stack⟩
  unfold goCount
  split
  · exact hmoved
  · split
    · exact startCount_steady times check done h hbody ht
    · split
      · exact hmoved.push (List.forall_mem_cons.2 ⟨hbody, ht⟩)
      · exact startCount_steady times check done (h.push ht) hbody ht

/-- Looking behind tries the body in front of the place, from where its text can begin. -/
theorem goBehind_steady {negated : Bool} {reach : Reach} (h : s.Steady start)
    (hbody : body.isSteady) (ht : ∀ task ∈ tasks, task.Steady)
    (hs : m.goBehind negated reach body tasks s = some s') : s'.Steady start := by
  have hlimit : ∀ place, ∀ task ∈ Task.limit place :: tasks, task.Steady :=
    fun _ => List.forall_mem_cons.2 ⟨trivial, ht⟩
  cases hfixed : reach.most == some reach.least with
  | true =>
    have hthen : ∀ last : Task, last.Steady → ∀ task ∈ .code body :: last :: tasks, task.Steady :=
      fun _ hlast => List.forall_mem_cons.2 ⟨hbody, List.forall_mem_cons.2 ⟨hlast, ht⟩⟩
    cases negated with
    | true =>
      have hstack := (h.push (e := .choice tasks s.place) ht).stack
      simp only [goBehind, hfixed, if_true] at hs
      split at hs
      · refine State.Steady.goBack ?_ hs
        exact ⟨h.keep, hthen (.refuse _) trivial, hstack⟩
      · cases hs
        exact ⟨h.keep, hthen (.refuse _) trivial, hstack⟩
    | false =>
      simp only [goBehind, hfixed, if_true, Bool.false_eq_true, if_false] at hs
      split at hs
      · refine State.Steady.goBack ?_ hs
        exact ⟨h.keep, hthen (.resume _ _) trivial, h.stack⟩
      · cases hs
        exact ⟨h.keep, hthen (.resume _ _) trivial, h.stack⟩
  | false =>
    -- the place of the body is one of several, and the others are left to go back to
    have hthen : ∀ last : List Task, (∀ task ∈ last, task.Steady) →
        ∀ task ∈ .code body :: .atLimit :: last, task.Steady :=
      fun _ hlast => List.forall_mem_cons.2 ⟨hbody, List.forall_mem_cons.2 ⟨trivial, hlast⟩⟩
    cases negated with
    | true =>
      have hstack := (h.push (e := .choice (.limit s.limit :: tasks) s.place) (hlimit _)).stack
      have hlast : ∀ place, ∀ task ∈ [Task.limit place, .refuse s.height], task.Steady :=
        fun _ => List.forall_mem_cons.2 ⟨trivial, List.forall_mem_singleton.2 trivial⟩
      simp only [goBehind, hfixed, if_true, Bool.false_eq_true, if_false] at hs
      split at hs
      · refine State.Steady.goBack ?_ hs
        exact ⟨h.keep, hthen _ (hlast _), hstack⟩
      · cases hs
        refine State.Steady.push ?_ (hthen _ (hlast _))
        exact ⟨h.keep, hthen _ (hlast _), hstack⟩
    | false =>
      have hstack := (h.push (e := .unlimit s.limit) trivial).stack
      have hlast : ∀ place, ∀ task ∈ Task.cut s.height :: .limit place :: tasks, task.Steady :=
        fun _ => List.forall_mem_cons.2 ⟨trivial, hlimit _⟩
      simp only [goBehind, hfixed, Bool.false_eq_true, if_false] at hs
      split at hs
      · refine State.Steady.goBack ?_ hs
        exact ⟨h.keep, hthen _ (hlast _), hstack⟩
      · cases hs
        refine State.Steady.push ?_ (hthen _ (hlast _))
        exact ⟨h.keep, hthen _ (hlast _), hstack⟩

theorem mark_steady (b : Bookmark) (h : s.Steady start) : (mark b m s).Steady start := by
  cases b with
  | saveLimit slot => exact h.push trivial
  | savePlace slot => exact h.push trivial
  | restoreLimit slot => exact ⟨h.keep, h.tasks, h.stack⟩
  | limitToPlace slot => exact ⟨h.keep, h.tasks, h.stack⟩
  | restorePlace slot => exact ⟨h.keep, h.tasks, h.stack⟩
  | clearLimit => exact ⟨h.keep, h.tasks, h.stack⟩

/-- Carrying out a steady code keeps the start of the match. -/
theorem carryOut_steady (hcalled : ∀ c ∈ m.called, c.isSteady) {c : Code} (hc : c.isSteady)
    (h : s.Steady start) (ht : ∀ task ∈ tasks, task.Steady)
    (hs : m.carryOut tasks s c = some s') : s'.Steady start := by
  have hmoved : ∀ place, State.Steady start { s with tasks := tasks, place := place } :=
    fun _ => ⟨h.keep, ht, h.stack⟩
  cases c with
  | nothing =>
    cases hs
    exact hmoved _
  | never => exact h.goBack hs
  | text chars =>
    simp only [carryOut] at hs
    split at hs
    · cases hs
      exact hmoved _
    · exact h.goBack hs
  | one set =>
    simp only [carryOut] at hs
    split at hs
    · split at hs
      · cases hs
        exact hmoved _
      · exact h.goBack hs
    · exact h.goBack hs
  | many times set => exact takeMany_steady h ht hs
  | seq a b =>
    obtain ⟨ha, hb⟩ := (Bool.and_eq_true_iff ..).1 hc
    cases hs
    exact ⟨h.keep, List.forall_mem_cons.2 ⟨ha, List.forall_mem_cons.2 ⟨hb, ht⟩⟩, h.stack⟩
  | alt a b =>
    obtain ⟨ha, hb⟩ := (Bool.and_eq_true_iff ..).1 hc
    cases hs
    have hfirst : State.Steady start { s with tasks := .code a :: tasks } :=
      ⟨h.keep, List.forall_mem_cons.2 ⟨ha, ht⟩, h.stack⟩
    exact hfirst.push (List.forall_mem_cons.2 ⟨hb, ht⟩)
  | loop isLazy entered check body =>
    simp only [carryOut] at hs
    cases hs
    split
    · exact startRound_steady isLazy check h hc ht
    · exact goRound_steady isLazy check h hc ht
  | counted times check body =>
    cases hs
    exact goCount_steady times check 0 h hc ht
  | group number journal body =>
    simp only [carryOut] at hs
    cases hs
    have hbody : State.Steady start
        { s with tasks := .code body :: .close number journal s.place :: tasks } :=
      ⟨h.keep, List.forall_mem_cons.2 ⟨hc, List.forall_mem_cons.2 ⟨trivial, ht⟩⟩, h.stack⟩
    split
    · have hpushed := hbody.push (e := .opened number s.place (s.takenBy number)) trivial
      exact ⟨hpushed.keep, hpushed.tasks, hpushed.stack⟩
    · exact ⟨hbody.keep, hbody.tasks, hbody.stack⟩
  | atomic body =>
    cases hs
    exact ⟨h.keep, List.forall_mem_cons.2 ⟨hc, List.forall_mem_cons.2 ⟨trivial, ht⟩⟩, h.stack⟩
  | ahead negated body =>
    cases negated with
    | false =>
      cases hs
      exact ⟨h.keep, List.forall_mem_cons.2 ⟨hc, List.forall_mem_cons.2 ⟨trivial, ht⟩⟩, h.stack⟩
    | true =>
      cases hs
      have hbody : State.Steady start { s with tasks := [.code body, .refuse s.height] } :=
        ⟨h.keep, List.forall_mem_cons.2 ⟨hc, List.forall_mem_singleton.2 trivial⟩, h.stack⟩
      exact hbody.push ht
  | behind negated reach body =>
    have hbody : body.isSteady := hc
    exact goBehind_steady h hbody ht hs
  | conditional condition yes no =>
    obtain ⟨hboth, hno⟩ := (Bool.and_eq_true_iff ..).1 hc
    obtain ⟨hcondition, hyes⟩ := (Bool.and_eq_true_iff ..).1 hboth
    cases hs
    have hfirst : State.Steady start
        { s with tasks := .code condition :: .cut s.height :: .code yes :: tasks } :=
      ⟨h.keep, List.forall_mem_cons.2 ⟨hcondition,
        List.forall_mem_cons.2 ⟨trivial, List.forall_mem_cons.2 ⟨hyes, ht⟩⟩⟩, h.stack⟩
    exact hfirst.push (List.forall_mem_cons.2 ⟨hno, ht⟩)
  | reference r =>
    simp only [carryOut] at hs
    split at hs
    · cases hs
      exact hmoved _
    · exact h.goBack hs
  | taken r =>
    simp only [carryOut] at hs
    split at hs
    · cases hs
      exact hmoved _
    · exact h.goBack hs
  | call group =>
    simp only [carryOut] at hs
    split at hs
    · exact h.goBack hs
    · cases hs
      -- the codes of all groups that can be called are steady
      have hcode : (m.called.getD group .never).isSteady := by
        rw [Array.getD_eq_getD_getElem?]
        cases hget : m.called[group]? with
        | none => rfl
        | some c => exact hcalled c (Array.mem_of_getElem? hget)
      have hbody : State.Steady start { s with
          tasks := .code (m.called.getD group .never) :: .comeBack :: tasks
          level := s.level + 1 } :=
        ⟨h.keep, List.forall_mem_cons.2 ⟨hcode, List.forall_mem_cons.2 ⟨trivial, ht⟩⟩, h.stack⟩
      exact hbody.push trivial
  | anchor a =>
    simp only [carryOut] at hs
    split at hs
    · cases hs
      exact hmoved _
    · exact h.goBack hs
  | keep => cases hc
  | bookmark b =>
    cases hs
    exact mark_steady b (hmoved _)

/-- **A step keeps the start of the match**, if all codes leave it where it is. -/
theorem step_steady (hcalled : ∀ c ∈ m.called, c.isSteady) {task : Task} (htask : task.Steady)
    (h : s.Steady start) (ht : ∀ task ∈ tasks, task.Steady)
    (hs : m.step tasks s task = some s') : s'.Steady start := by
  cases task with
  | code c => exact carryOut_steady hcalled htask h ht hs
  | startRound isLazy check body =>
    cases hs
    exact startRound_steady isLazy check h htask ht
  | endRound isLazy check body place height =>
    simp only [step] at hs
    split at hs
    · cases hs
      exact goRound_steady isLazy check h htask ht
    · cases hs
      exact ⟨h.keep, ht, h.stack⟩
    · exact h.goBack hs
  | startCount times check body done =>
    cases hs
    exact startCount_steady times check done h htask ht
  | endCount times check body done place height =>
    simp only [step] at hs
    split at hs
    · cases hs
      exact goCount_steady times check (done + 1) h htask ht
    · cases hs
      exact ⟨h.keep, ht, h.stack⟩
    · exact h.goBack hs
  | close number journal opened =>
    have hmoved : State.Steady start { s with tasks := tasks } := ⟨h.keep, ht, h.stack⟩
    simp only [step] at hs
    cases hs
    split
    · have hpushed := hmoved.push (e := .closed number s.place (s.takenBy number)) trivial
      exact ⟨hpushed.keep, hpushed.tasks, hpushed.stack⟩
    · exact ⟨hmoved.keep, hmoved.tasks, hmoved.stack⟩
  | cut height =>
    cases hs
    exact ⟨(h.cutTo height).keep, ht, (h.cutTo height).stack⟩
  | resume height place =>
    cases hs
    exact ⟨(h.cutTo height).keep, ht, (h.cutTo height).stack⟩
  | refuse height => exact (h.undoTo height).goBack hs
  | atLimit =>
    simp only [step] at hs
    split at hs
    · cases hs
      exact ⟨h.keep, ht, h.stack⟩
    · exact h.goBack hs
  | limit place =>
    cases hs
    exact ⟨h.keep, ht, h.stack⟩
  | comeBack =>
    cases hs
    have hmoved : State.Steady start { s with tasks := tasks, level := s.level - 1 } :=
      ⟨h.keep, ht, h.stack⟩
    exact hmoved.push trivial

/-- However many steps are done, the match begins where it was tried. -/
theorem run_steady (hcalled : ∀ c ∈ m.called, c.isSteady) (steps : Nat) (h : s.Steady start)
    (hs : m.run steps s = some s') : s'.Steady start := by
  induction steps generalizing s with
  | zero => cases hs
  | succ steps ih =>
    unfold run at hs
    split at hs
    · cases hs
      exact h
    · rename_i task tasks htasks
      obtain ⟨htask, ht⟩ := List.forall_mem_cons.1 (htasks ▸ h.tasks)
      split at hs
      · rename_i next hnext
        exact ih (step_steady hcalled htask h ht hnext) hs
      · cases hs

end Matcher

/-! ## Searches -/

namespace Program

/-- Whether the program searches for the first match and leaves the start of a match where it was
tried. -/
def isPlain (p : Program) : Bool := !p.longest && p.code.isSteady && p.called.all Code.isSteady

variable {p : Program} {m : Matcher} {place steps : Nat} {found : Match}

/-- A plain program's match begins no later than where it was tried. -/
theorem start_le_of_tryAt? (hp : p.isPlain) (hm : m.called = p.called)
    (h : p.tryAt? m place = some found) : found.start ≤ place := by
  simp only [isPlain, Bool.and_eq_true, Array.all_eq_true_iff_forall_mem] at hp
  obtain ⟨⟨-, hcode⟩, hcalled⟩ := hp
  have hinitial : (p.initial m place).Steady place :=
    ⟨rfl, List.forall_mem_singleton.2 hcode, fun _ he => nomatch he⟩
  unfold tryAt? at h
  split at h
  · obtain ⟨s, hrun, rfl⟩ := Option.map_eq_some_iff.1 h
    have hsteady := Matcher.run_steady (hm ▸ hcalled) _ hinitial hrun
    calc min s.keep s.place ≤ s.keep := Nat.min_le_left ..
      _ = place := hsteady.keep
  · cases h

/-- The match of a search begins no later than the last place that was tried. -/
theorem start_le_of_searchFrom? (hp : p.isPlain) (hm : m.called = p.called)
    (h : p.searchFrom? m steps place = some found) : found.start ≤ place + steps := by
  induction steps generalizing place with
  | zero =>
    rw [searchFrom?_zero] at h
    exact start_le_of_tryAt? hp hm h
  | succ steps ih =>
    rw [searchFrom?_succ, Option.or_eq_some_iff] at h
    rcases h with htried | ⟨-, hlater⟩
    · have := start_le_of_tryAt? hp hm htried
      omega
    · have := ih hlater
      omega

/-- A search that is begun later, but not after the start of the match, finds the same. -/
theorem searchFrom?_later (hp : p.isPlain) (hm : m.called = p.called) (skipped : Nat)
    (h : ∀ found ∈ p.searchFrom? m (skipped + steps) place, place + skipped ≤ found.start) :
    p.searchFrom? m steps (place + skipped) = p.searchFrom? m (skipped + steps) place := by
  induction skipped generalizing place with
  | zero => simp
  | succ skipped ih =>
    rw [show skipped + 1 + steps = skipped + steps + 1 by omega, searchFrom?_succ] at h ⊢
    cases htried : p.tryAt? m place with
    | some found =>
      -- the match that is found at once begins before the later place
      have hle := start_le_of_tryAt? hp hm htried
      have hge := h found (by simp [htried])
      omega
    | none =>
      rw [htried, Option.none_or] at h
      have hrest : ∀ found ∈ p.searchFrom? m (skipped + steps) (place + 1),
          place + 1 + skipped ≤ found.start := by
        intro found hfound
        have := h found hfound
        omega
      rw [Option.none_or, ← ih hrest]
      congr 1
      omega

/-- **Searches of plain programs are leftmost.** -/
theorem search?_later (hp : p.isPlain) {line : IndexedText} {early late : Nat} (hle : early ≤ late)
    (h : ∀ found ∈ p.search? line 0 early, late ≤ found.start) :
    p.search? line 0 late = p.search? line 0 early := by
  have hfirst : p.longest = false := by
    simp only [isPlain, Bool.and_eq_true, Bool.not_eq_true'] at hp
    exact hp.1.1
  unfold search? at h ⊢
  cases hlast : p.lastStart? line with
  | none => rfl
  | some last =>
    simp only [hlast, hfirst, Bool.false_eq_true, if_false] at h ⊢
    rcases Nat.lt_or_ge last early with hearly | hearly
    · rw [if_pos hearly, if_pos (Nat.lt_of_lt_of_le hearly hle)]
    · rw [if_neg (Nat.not_lt.2 hearly)] at h ⊢
      rcases Nat.lt_or_ge last late with hlate | hlate
      · -- no match begins after the last place at which one can begin
        rw [if_pos hlate]
        cases hfound : p.searchFrom? ⟨line, 0, p.called⟩ (last - early) early with
        | none => rfl
        | some found =>
          have hstart := start_le_of_searchFrom? hp rfl hfound
          have hlater := h found hfound
          omega
      · rw [if_neg (Nat.not_lt.2 hlate)]
        obtain ⟨skipped, rfl⟩ := Nat.exists_eq_add_of_le hle
        rw [show last - early = skipped + (last - (early + skipped)) by omega] at h ⊢
        exact searchFrom?_later hp rfl skipped h

end Program

/-- Whether the programs of a pattern look for the first match and leave its start alone. -/
def isPlain (p : Pattern) : Bool :=
  [true, false].all fun firstLine => (p.program? firstLine).all Program.isPlain

/-- **Searches for a plain pattern are leftmost**, if it does not ask where the search began. -/
theorem leftmost_of_isPlain {p : Pattern} (hplain : p.isPlain)
    (hstart : p.asksSearchStart = false) : p.Leftmost := by
  intro line firstLine early late hle hsize
  unfold findFrom?
  cases hprogram : p.program? firstLine with
  | none => exact ⟨fun _ => rfl, fun _ h => nomatch h⟩
  | some program =>
    have hp : Program.isPlain program := by
      have hall := List.all_eq_true.1 hplain firstLine (by cases firstLine <;> simp)
      rwa [hprogram] at hall
    have hsame : (∀ m ∈ Engine.search? program line 0 early, late ≤ m.start) →
        Engine.search? program line 0 late = Engine.search? program line 0 early :=
      Program.search?_later hp hle
    simp only [hstart, Bool.false_eq_true, if_false]
    constructor
    · intro hnone
      rw [Option.map_eq_none_iff] at hnone ⊢
      rw [hsame, hnone]
      simp [hnone]
    · intro found hfound hlater
      obtain ⟨m, hm, rfl⟩ := Option.map_eq_some_iff.1 hfound
      have hstart : late ≤ m.start := IndexedText.le_of_offset_le hsize hlater
      rw [hsame, hm]
      · rfl
      · simpa [hm] using hstart

end Pattern

end Highlight
