import Highlight.Proofs.Steps

/-!
# Rules that a run does not leave

A run goes from rule to rule in two ways: inside of a region the candidates are tried, and a match has
its capture groups tokenized with their rules. A set of rules that is left neither way holds the rules
of all frames, if it holds those of the frames in front of a line.

- `Registry.Encloses`: a set of rules that patterns, capture groups, bound includes and `$base` do not
  lead out of.
- `Registry.Encloses.of_mem_candidates`: the candidates inside of a rule of the set are in the set.
- `Tokenizer.Encloses`: what a run needs of a set so as not to leave it.
- `CaptureRules.Inside`, `Stack.Inside`: capture maps and stacks all of whose rules are in the set.
- `Tokenizer.Move.inside`, `Tokenizer.tokenizeText_inside`: a step stays inside, and so does a text.
-/

namespace Highlight

variable [Engine]

/-! ## Candidates -/

/-- A set of rules that patterns, capture groups and bound includes do not lead out of, and that holds
what `$base` stands for. -/
structure Registry.Encloses (r : Registry) (base : String) (R : RuleRef → Prop) : Prop where
  patterns : ∀ {ref rule id}, R ref → r.rule? ref = some rule → id ∈ rule.kind.patterns →
    R ⟨ref.grammar, id⟩
  captures : ∀ {ref rule id}, R ref → r.rule? ref = some rule → id ∈ rule.kind.captureRules →
    R ⟨ref.grammar, id⟩
  targets : ∀ {ref target g}, R ref → r.find? ref.grammar = some g →
    g.target? ref.rule = some (.rule target) → R target
  base : R ⟨base, rootRule⟩

namespace Registry

variable {r : Registry} {base : String} {R : RuleRef → Prop}

/-- What a rule leads to on the way to candidates. -/
theorem Encloses.of_mem_successors (h : r.Encloses base R) {ref other : RuleRef} {rule : Rule}
    (href : R ref) (hrule : r.rule? ref = some rule) (hother : other ∈ r.successors base ref rule) :
    R other := by
  unfold successors at hother
  split at hother
  · rename_i g hkind
    obtain ⟨id, hid, rfl⟩ := List.mem_map.1 hother
    refine h.patterns href hrule ?_
    rw [hkind]
    exact hid
  · split at hother
    · rename_i target htarget
      rw [List.mem_singleton.1 hother]
      obtain ⟨g, hg, hbound⟩ := Option.bind_eq_some_iff.1 htarget
      exact h.targets href hg hbound
    · rw [List.mem_singleton.1 hother]
      exact h.base
    · cases hother
  · cases hother

/-- What is found on the way from a rule of the set is in the set. -/
theorem Encloses.of_mem_expand (h : r.Encloses base R) (steps : Nat) {c : Candidates}
    (hc : ∀ f ∈ c.found, R f) {ref : RuleRef} (href : R ref) :
    ∀ f ∈ (r.expand base steps c ref).found, R f := by
  induction steps generalizing c ref with
  | zero => exact hc
  | succ steps ih =>
    unfold expand
    split
    · exact hc
    · simp only
      split
      · exact hc
      · rename_i rule hrule
        split
        · exact hc
        · split
          · exact List.forall_mem_cons.2 ⟨href, hc⟩
          · refine List.foldlRecOn (motive := fun c : Candidates => ∀ f ∈ c.found, R f) _ _ hc ?_
            intro c' hc' other hother
            exact ih hc' (h.of_mem_successors href hrule hother)

/-- **Candidates stay inside.** -/
theorem Encloses.of_mem_candidates (h : r.Encloses base R) {steps : Nat} {ref f : RuleRef}
    (href : R ref) (hf : f ∈ r.candidates base steps ref) : R f := by
  unfold candidates at hf
  split at hf
  · cases hf
  · rename_i rule hrule
    refine List.foldlRecOn (motive := fun c : Candidates => ∀ f ∈ c.found, R f) _ _ ?_ ?_ f
      (List.mem_reverse.1 hf)
    · exact fun _ hfound => absurd hfound List.not_mem_nil
    · intro c hc other hother
      obtain ⟨id, hid, rfl⟩ := List.mem_map.1 hother
      exact h.of_mem_expand steps hc (h.patterns href hrule hid)

end Registry

/-! ## Capture maps and stacks -/

/-- The rules of a capture map of a grammar are in the set. -/
def CaptureRules.Inside (R : RuleRef → Prop) (grammar : String) (rules : CaptureRules) : Prop :=
  ∀ id, some id ∈ rules → R ⟨grammar, id⟩

omit [Engine] in
theorem CaptureRules.Inside.zip {R : RuleRef → Prop} {grammar : String} {rules : CaptureRules}
    (h : rules.Inside R grammar) (groups : Groups) :
    CaptureRules.Inside R grammar ((rules.zip groups).map Prod.fst) := by
  intro id hid
  obtain ⟨⟨_, _⟩, hpair, rfl⟩ := List.mem_map.1 hid
  exact h id (List.of_mem_zip hpair).1

namespace Stack

omit [Engine]

/-- The rules of all frames are in the set. -/
def Inside (R : RuleRef → Prop) (s : Stack) : Prop := ∀ f ∈ s.frames, R f.rule

variable {R : RuleRef → Prop} {s s' : Stack}

theorem inside_all (s : Stack) : s.Inside fun _ => True := fun _ _ => trivial

theorem Inside.top (h : s.Inside R) : R s.top.rule := h s.top s.top_mem_frames

theorem Inside.of_frames (h : s'.Inside R) (hframes : s.frames <+: s'.frames) : s.Inside R :=
  fun f hf => h f (hframes.subset hf)

theorem Inside.push (h : s.Inside R) {f : Frame} (hf : R f.rule) : (s.push f).Inside R :=
  forall_frames_push h hf

theorem Inside.pop (h : s.Inside R) : s.pop.Inside R := forall_frames_pop h

theorem Inside.withContent (h : s.Inside R) (scopes : List Scope) :
    (s.withContent scopes).Inside R :=
  forall_frames_withContent h h.top

theorem Inside.endLine (h : s.Inside R) : s.endLine.Inside R := forall_frames_endLine h

theorem inside_initial {grammar : String} (h : R ⟨grammar, rootRule⟩) (scope : Scope) :
    (initial grammar scope).Inside R := by
  intro f hf
  rw [List.mem_singleton.1 hf]
  exact h

end Stack

namespace Tokenizer

variable {σ : Type} {t : Tokenizer} {searching : Searching σ} {retok : Retokenize σ}
  {line : IndexedText} {s s' : LineState σ} {found : Found} {stack : Stack} {R : RuleRef → Prop}

/-- The stack to tokenize the text of a group with has one frame more, for the group's rule. -/
theorem inside_captureStack (hstack : stack.Inside R) {ref : RuleRef} (href : R ref) (rule : Rule)
    (text : List Char) (groups : Groups) (start : Nat) :
    (captureStack stack ref rule text groups start).Inside R :=
  (hstack.push href).withContent _

/-! ## A run -/

/-- A set of rules that a run does not leave: it holds the candidates inside of its rules and the rules
of their capture groups. -/
structure Encloses (t : Tokenizer) (searching : Searching σ) (R : RuleRef → Prop) : Prop where
  candidates : ∀ {ref f} memory, R ref → f ∈ (searching.candidates t ref memory).1 → R f
  captures : ∀ {ref rule id}, R ref → t.rule? ref = some rule → id ∈ rule.kind.captureRules →
    R ⟨ref.grammar, id⟩

/-- The set of all rules. -/
theorem encloses_all (t : Tokenizer) (searching : Searching σ) :
    t.Encloses searching fun _ => True where
  candidates _ _ _ := trivial
  captures _ _ _ := trivial

/-- A set that a registry does not lead out of is one that no run leaves. -/
theorem encloses_of_registry (h : t.registry.Encloses t.base R) :
    t.Encloses Searching.remembering R where
  candidates _ href hf := h.of_mem_candidates href hf
  captures := h.captures

variable (henc : t.Encloses searching R)
include henc

/-- The captures of one pattern of a rule. -/
theorem Encloses.inside_of_rule {ref : RuleRef} {rule : Rule} (href : R ref)
    (hrule : t.rule? ref = some rule) {rules : CaptureRules}
    (hrules : rules.filterMap id ⊆ rule.kind.captureRules) : rules.Inside R ref.grammar :=
  fun id hid => henc.captures href hrule (hrules (List.mem_filterMap.2 ⟨some id, hid, rfl⟩))

/-- The captures of the pattern that ends the innermost region. -/
theorem Encloses.inside_closing (hstack : stack.Inside R) :
    CaptureRules.Inside R stack.top.rule.grammar (match t.closing? stack.top with
      | some r => r.closingCaptures
      | none => []) := by
  split
  · rename_i r hclosing
    unfold closing? at hclosing
    split at hclosing
    · rename_i r' hkind
      cases hclosing
      obtain ⟨rule, hrule, hr⟩ := Option.map_eq_some_iff.1 hkind
      refine henc.inside_of_rule hstack.top hrule fun id hid => ?_
      rw [hr]
      exact List.mem_append_right _ hid
    · cases hclosing
  · exact fun _ hid => absurd hid List.not_mem_nil

/-- The captures of a condition. -/
theorem Encloses.inside_condition {f : Frame} (hf : R f.rule) {w : WhileRule}
    (hguard : t.guard? f = some w) : w.conditionCaptures.Inside R f.rule.grammar := by
  unfold guard? at hguard
  split at hguard
  · rename_i w' hkind
    cases hguard
    obtain ⟨rule, hrule, hw⟩ := Option.map_eq_some_iff.1 hkind
    refine henc.inside_of_rule hf hrule fun id hid => ?_
    rw [hw]
    exact List.mem_append_right _ hid
  · cases hguard

/-- **A step stays inside.** -/
theorem Move.inside (h : t.Move searching line s s' found) (hs : s.stack.Inside R) :
    s'.stack.Inside R := by
  cases h with
  | closed _ _ hstack _ =>
    rw [hstack]
    exact (hs.withContent _).pop
  | passed hstack _ =>
    rw [hstack]
    exact hs
  | opened ref rule ending hcandidate _ _ _ hstack _ =>
    obtain ⟨memory, hmem⟩ := hcandidate
    rw [hstack]
    exact hs.push (henc.candidates memory hs.top hmem)

/-- A step opens regions of candidates only. -/
theorem step?_inside (hs : s.stack.Inside R) (h : t.step? searching retok line s = some s') :
    s'.stack.Inside R := by
  obtain ⟨_, _, -, hmove⟩ := step?_move h
  exact hmove.inside henc hs

/-- A whole text stays inside. -/
theorem tokenizeText_inside (hstack : stack.Inside R) (text : List Char) (memory : σ) :
    (t.tokenizeText searching text stack memory).stack.Inside R := by
  refine run_invariant (I := fun s : LineState σ => s.stack.Inside R) (step?_inside henc) _ ?_
  exact hstack.of_frames (start_frames t searching _ _ stack memory)

end Tokenizer

end Highlight
