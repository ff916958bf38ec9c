import Highlight.Pattern.Literal
import Highlight.Proofs.PathMap
import Highlight.Proofs.SameRules

/-!
# Unrelated grammars do not interfere

Changing the grammar at one path links again the grammars that name this path, and no others. A
tokenizer comes from the grammar of its documents to others by external includes only. So a change at a
path that no grammar on these ways names leaves all that the tokenizer can see as it was, and documents
are tokenized as before.

- `Registry.LeadsTo`: the paths that external includes lead to.
- `Registry.apply_eq_relinkList`, `Registry.Linked.find?_apply`: a change touches one path, and grammars
  that do not name it stay as they are.
- `Registry.Linked.encloses_leadsTo`: a tokenizer does not come to other grammars.
- `Registry.Encloses.candidates_eq`: the candidates inside of rules depend on these grammars only.
- `Registry.unrelated_change_unseen`: the main statement.
-/

namespace Highlight

section

variable [Engine]

/-- What a reference is bound to is in its own grammar or in the one that it names. -/
theorem Grammar.grammar_of_bind? {g : Grammar} {path : String} {find : String → Option Grammar}
    {site : RuleId} {reference : Reference} {target : RuleRef}
    (h : g.bind? path find site reference = some (.rule target)) :
    target.grammar = path ∨ reference.externalScope? = some target.grammar := by
  cases reference with
  | base => cases h
  | self =>
    cases h
    exact .inl rfl
  | entry key =>
    obtain ⟨id, -, heq⟩ := Option.map_eq_some_iff.1 h
    cases heq
    exact .inl rfl
  | external scope key =>
    rw [bind?] at h
    split at h
    · cases h
    · split at h
      · cases h
        exact .inr rfl
      · obtain ⟨id, -, heq⟩ := Option.map_eq_some_iff.1 h
        cases heq
        exact .inr rfl

namespace Registry

variable {r r' : Registry} {held : String → Option Grammar} {base : String}

/-- The paths that the external includes of grammars lead to, from a path on. -/
inductive LeadsTo (r : Registry) (base : String) : String → Prop
  | base : LeadsTo r base base
  | step {path scope : String} {g : LinkedGrammar} : LeadsTo r base path →
      r.find? path = some g → scope ∈ g.grammar.externalScopes → LeadsTo r base scope

/-! ## What a change leaves as it is -/

/-- Linking again makes nothing of a grammar that does not name the changed path. -/
theorem Linked.find?_relinkList_of_unnamed (h : r.Linked held) {changed : Registry}
    {path other : String} (hother : changed.find? other = r.find? other)
    (hloaded : ∀ scope, scope ≠ path → changed.find? scope = r.find? scope)
    (hunnamed : ∀ g, r.find? other = some g → path ∉ g.grammar.externalScopes)
    (paths : List String) : (changed.relinkList paths).find? other = r.find? other := by
  rw [find?_relinkList, hother]
  split
  · cases hfind : r.find? other with
    | none => rfl
    | some g =>
      refine congrArg some (.trans (Grammar.link_congr ?_) (h.current hfind).linked.symm)
      intro scope hscope _
      have hne : scope ≠ path := fun heq => hunnamed g hfind (heq ▸ hscope)
      rw [loaded?, hloaded scope hne, ← h.loaded?_eq]
      rfl
  · rfl

/-- A change touches one path and links some grammars again; one that fails does neither. -/
theorem apply_eq_relinkList (h : r.tree.Proper) (change : Change) :
    ∃ (changed : Registry) (paths : List String), r.apply change = changed.relinkList paths ∧
      ∀ other, other ≠ change.path → changed.find? other = r.find? other := by
  have hnothing : ∃ (changed : Registry) (paths : List String), r = changed.relinkList paths ∧
      ∀ other, other ≠ change.path → changed.find? other = r.find? other :=
    ⟨r, [], rfl, fun _ _ => rfl⟩
  cases change with
  | register g path =>
    rw [apply]
    split
    · rename_i changed hregister
      obtain ⟨-, rfl⟩ := register_eq_ok.1 hregister
      refine ⟨_, _, rfl, fun other hne => ?_⟩
      exact Tree.get?_insert_other (fun heq => hne (segments_injective heq)) _
    · exact hnothing
  | unregister path =>
    rw [apply]
    split
    · rename_i removed changed hunregister
      unfold Registry.unregister? at hunregister
      split at hunregister
      · rename_i tree _ hremove
        cases hunregister
        obtain ⟨-, hsame⟩ := h.remove hremove
        refine ⟨_, _, rfl, fun other hne => ?_⟩
        exact (hsame _).trans (if_neg fun heq => hne (segments_injective heq))
      · cases hunregister
    · exact hnothing

/-- **A change leaves the grammars that do not name its path as they are.** -/
theorem Linked.find?_apply (h : r.Linked held) {change : Change} {other : String}
    (hne : other ≠ change.path)
    (hunnamed : ∀ g, r.find? other = some g → change.path ∉ g.grammar.externalScopes) :
    (r.apply change).find? other = r.find? other := by
  obtain ⟨changed, paths, happly, hothers⟩ := apply_eq_relinkList h.proper change
  rw [happly]
  exact h.find?_relinkList_of_unnamed (hothers other hne) hothers hunnamed paths

/-! ## What a tokenizer can see -/

/-- **A tokenizer comes to other grammars by external includes only.** -/
theorem Linked.encloses_leadsTo (h : r.Linked held) (base : String) :
    r.Encloses base fun ref => r.LeadsTo base ref.grammar where
  patterns href _ _ := href
  captures href _ _ := href
  targets {ref target linked} href hfind htarget := by
    have hlinked := hfind
    rw [h.find?] at hlinked
    obtain ⟨g, hg, rfl⟩ := Option.map_eq_some_iff.1 hlinked
    obtain ⟨reference, hincludes⟩ := Grammar.includes_of_target? (h.forest hg) htarget
    rw [Grammar.target?_link (h.forest hg) hincludes] at htarget
    rcases Grammar.grammar_of_bind? htarget with heq | hscope
    · rw [heq]
      exact href
    · obtain ⟨-, rule, hrule, hkind⟩ := hincludes
      exact .step href hfind (Grammar.mem_externalScopes hrule hkind hscope)
  base := .base

section Candidates

variable {R : RuleRef → Prop} (henc : r.Encloses base R)
  (hsame : ∀ ref, R ref → r'.find? ref.grammar = r.find? ref.grammar)
include hsame

theorem rule?_eq {ref : RuleRef} (href : R ref) : r'.rule? ref = r.rule? ref := by
  unfold rule?
  rw [hsame ref href]

include henc

theorem Encloses.expand_eq (steps : Nat) {ref : RuleRef} (href : R ref) (c : Candidates) :
    r'.expand base steps c ref = r.expand base steps c ref := by
  induction steps generalizing c ref with
  | zero => rfl
  | succ steps ih =>
    unfold expand
    split
    · rfl
    · simp only [rule?_eq hsame href]
      cases hrule : r.rule? ref with
      | none => rfl
      | some rule =>
        have hsuccessors : r'.successors base ref rule = r.successors base ref rule := by
          unfold successors
          rw [hsame ref href]
        simp only [hsuccessors]
        split
        · rfl
        · split
          · rfl
          · refine List.foldl_ext _ _ _ fun c other hother => ?_
            exact ih (henc.of_mem_successors href hrule hother) c

/-- **Candidates depend on the grammars that a tokenizer can see.** -/
theorem Encloses.candidates_eq (steps : Nat) {ref : RuleRef} (href : R ref) :
    r'.candidates base steps ref = r.candidates base steps ref := by
  unfold candidates
  rw [rule?_eq hsame href]
  cases hrule : r.rule? ref with
  | none => rfl
  | some rule =>
    have hpatterns : ∀ (c : Candidates), ∀ other ∈ rule.kind.patterns.map
        fun id => (⟨ref.grammar, id⟩ : RuleRef),
        r'.expand base steps c other = r.expand base steps c other := by
      intro c other hother
      obtain ⟨id, hid, rfl⟩ := List.mem_map.1 hother
      exact henc.expand_eq hsame steps (henc.patterns href hrule hid) c
    simp only
    rw [List.foldl_ext _ _ _ hpatterns]

end Candidates

/-- **Unrelated grammars do not interfere.** Take a change at a path other than the one of a base
grammar, which no grammar names that external includes lead to from the base grammar. Tokenizers for the
base grammar from before and after the change, whatever they have been used for, give the same tokens
and stacks for all lines, and if there was no such tokenizer before there is none after. -/
theorem unrelated_change_unseen (r : Registry) (held : String → Option Grammar)
    (hreached : r.Reached held) (base : String) (change : Change) (hne : change.path ≠ base)
    (hunnamed : ∀ path g, r.LeadsTo base path → r.find? path = some g →
      change.path ∉ g.grammar.externalScopes) (options : Options) :
    (∀ fault, r.tokenizer base options = .error fault →
        (r.apply change).tokenizer base options = .error fault) ∧
      ∀ t, r.tokenizer base options = .ok t →
        ∃ t', (r.apply change).tokenizer base options = .ok t' ∧ t'.initialStack = t.initialStack ∧
          ∀ tables tables', t.Served tables → t'.Served tables' → ∀ lines,
            (t'.tokenizeLinesWith lines t'.initialStack tables').1 =
              (t.tokenizeLinesWith lines t.initialStack tables).1 := by
  have hlinked := hreached.linked
  have hseen : ∀ path, r.LeadsTo base path → path ≠ change.path := by
    rintro path hpath rfl
    cases hpath with
    | base => exact hne rfl
    | step hbefore hfind hscope => exact hunnamed _ _ hbefore hfind hscope
  have hsame : ∀ path, r.LeadsTo base path → (r.apply change).find? path = r.find? path :=
    fun path hpath => hlinked.find?_apply (hseen path hpath) fun g hg => hunnamed path g hpath hg
  have hbase := hsame base .base
  refine ⟨fun fault hfault => ?_, fun t ht => ?_⟩
  · rw [tokenizer] at hfault
    rw [tokenizer, hbase]
    cases hfind : r.find? base with
    | none =>
      rw [hfind] at hfault
      exact hfault
    | some g =>
      rw [hfind] at hfault
      cases hfault
  · obtain ⟨g, hg, rfl⟩ := of_tokenizer ht
    refine ⟨⟨r.apply change, base, g.grammar.scopeName, options⟩, ?_, rfl, ?_⟩
    · rw [tokenizer, hbase, hg]
    intro tables tables' hserved hserved' lines
    rw [Tokenizer.tokenizeLinesWith_eq hserved.right, Tokenizer.tokenizeLinesWith_eq hserved'.right]
    have henc := hlinked.encloses_leadsTo base
    have hwithin : Tokenizer.SameWithin ⟨r, base, g.grammar.scopeName, options⟩
        ⟨r.apply change, base, g.grammar.scopeName, options⟩ .remembering
        fun ref => r.LeadsTo base ref.grammar :=
      { options := rfl
        rule? := rule?_eq fun ref => hsame ref.grammar
        candidates := fun memory href =>
          congrArg (·, memory) (henc.candidates_eq (fun ref => hsame ref.grammar) _ href) }
    exact hwithin.tokenizeLines_eq (Tokenizer.encloses_of_registry henc) lines
      (Stack.inside_initial LeadsTo.base _)

end Registry

end

namespace Registry

/-- A grammar that includes another one, while a third one is placed that includes the first. -/
theorem unrelated_change_unseen_including :
    let x : Part := .name { chars := ['x'] }
    let a : Part := .name { chars := ['a'] }
    let b : Part := .name { chars := ['b'] }
    let c : Part := .name { chars := ['c'] }
    let including (scope : String) : RuleDefinition := { keys := { includeText := some scope } }
    let single : RuleDefinition := { keys := { name := some "y", matchText := some "y+" } }
    let ga := Grammar.ofScoped { scopeName := some "x.a", patterns := [including "x.b"] }
      ⟨[x, a], by decide⟩
    let gb := Grammar.ofScoped { scopeName := some "x.b", patterns := [single] }
      ⟨[x, b], by decide⟩
    let gc := Grammar.ofScoped { scopeName := some "x.c", patterns := [including "x.a"] }
      ⟨[x, c], by decide⟩
    let held := Function.update (Function.update (fun _ => none) "x.a" (some ga)) "x.b" (some gb)
    ∃ r : Registry, r.Reached held ∧
      ∃ t t', r.tokenizer "x.a" .standard = .ok t ∧
        (r.apply (.register gc "x.c")).tokenizer "x.a" .standard = .ok t' ∧
        (r.apply (.register gc "x.c")).loaded? "x.c" = some gc ∧
        (t'.tokenizeLinesWith [['a', 'y', 'y']] t'.initialStack .empty).1 =
          (t.tokenizeLinesWith [['a', 'y', 'y']] t.initialStack .empty).1 := by
  intro x a b c including single ga gb gc held
  have hga : Grammar.ofDefinition
      { scopeName := some "x.a", patterns := [including "x.b"] } = .ok ga := rfl
  have hgb : Grammar.ofDefinition
      { scopeName := some "x.b", patterns := [single] } = .ok gb := rfl
  have hpath : checkPath "x.a" = .ok () := rfl
  have hpath' : checkPath "x.b" = .ok () := rfl
  obtain ⟨r, hreached⟩ : ∃ r : Registry, r.Reached held :=
    ⟨_, (reached_single hga hpath).register hgb (register_eq_ok.2 ⟨hpath', rfl⟩)⟩
  have hunnamed : ∀ path g, r.LeadsTo "x.a" path → r.find? path = some g →
      "x.c" ∉ g.grammar.externalScopes := by
    intro path g _ hg
    have hheld := hreached.linked.held_of_find? hg
    by_cases hb : path = "x.b"
    · have hhere : held path = some gb := by
        rw [hb]
        rfl
      rw [Option.some.inj (hheld.symm.trans hhere)]
      decide +kernel
    · have hhere : held path = Function.update (fun _ => none) "x.a" (some ga) path :=
        Function.update_of_ne hb _ _
      rw [eq_of_held_single (hhere.symm.trans hheld)]
      decide +kernel
  have hheld : held "x.a" = some ga := rfl
  have ht := hreached.tokenizer hheld .standard
  obtain ⟨-, hok⟩ := unrelated_change_unseen r held hreached "x.a" (.register gc "x.c") (by decide)
    hunnamed .standard
  obtain ⟨t', ht', -, hruns⟩ := hok _ ht
  have hplace : checkPath "x.c" = .ok () := rfl
  obtain ⟨changed, hregister, hplaced, -⟩ := register_spec (r := r) hplace gc
  refine ⟨r, hreached, _, t', ht, ht', ?_, hruns .empty .empty (.fresh _) (.fresh t') _⟩
  rw [apply, hregister]
  show changed.loaded? "x.c" = some gc
  rw [hplaced, Function.update_self]

end Registry

end Highlight
