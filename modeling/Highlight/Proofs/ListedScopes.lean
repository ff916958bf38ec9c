import Highlight.Pattern.Literal
import Highlight.Proofs.Links
import Highlight.Proofs.Restart
import Highlight.Proofs.ScopeLists

/-!
# Listed scopes cover the scopes of tokens

A grammar lists the scopes of the rules on the walk through it. A run meets rules on other ways, along
patterns, includes and capture groups, and across grammars, but none of these ways leaves the walks: a
rule owns its patterns and the rules of its capture groups, and what an include is bound to was found
on a walk. So every scope of a token is one that some grammar lists, filled in with captured text.

- `Grammar.mem_scopeNames`: what a grammar lists.
- `OnWalk`, `Registry.Linked.encloses_onWalk`: the rules on the walks of all grammars are not left.
- `Registry.Lists`, `Registry.Fills`: a scope that a grammar lists, and one that fills in such a scope.
- `Tokenizer.fillsAll_keptWithin`: the rules on the walks add such scopes only.
- `Tokenizer.tokenizeLine_listed`: a line keeps this, whatever its text.
- `Tokenizer.tokens_scopes_listed`: the main statement.
-/

namespace Highlight

section

variable [Engine]

namespace Grammar

variable {g : Grammar}

/-- A grammar lists the scopes of the rules on its walk, and no others. -/
theorem mem_scopeNames {scope : Scope} : scope ∈ g.scopeNames ↔
    ∃ id rule, id ∈ g.ruleOrder ∧ g.rule? id = some rule ∧ scope ∈ rule.listedScopes := by
  have honce : ∀ (listed seen : List Scope),
      scope ∈ listed.foldl (fun seen s => if s ∈ seen then seen else s :: seen) seen ↔
        scope ∈ listed ∨ scope ∈ seen := by
    intro listed
    induction listed with
    | nil => simp
    | cons first rest ih =>
      intro seen
      rw [List.foldl_cons, ih]
      by_cases hseen : first ∈ seen
      · rw [if_pos hseen, List.mem_cons]
        constructor
        · rintro (h | h)
          · exact .inl (.inr h)
          · exact .inr h
        · rintro ((rfl | h) | h)
          · exact .inr hseen
          · exact .inl h
          · exact .inr h
      · rw [if_neg hseen, List.mem_cons, List.mem_cons]
        tauto
  unfold scopeNames
  rw [List.mem_reverse, honce]
  constructor
  · rintro (h | h)
    · obtain ⟨visit, hvisit, hscope⟩ := List.mem_flatMap.1 h
      cases hrule : g.rule? visit.rule with
      | none =>
        rw [hrule] at hscope
        cases hscope
      | some rule =>
        rw [hrule] at hscope
        exact ⟨visit.rule, rule, List.mem_map_of_mem hvisit, hrule, hscope⟩
    · cases h
  · rintro ⟨id, rule, hid, hrule, hscope⟩
    obtain ⟨visit, hvisit, rfl⟩ := List.mem_map.1 hid
    refine .inl (List.mem_flatMap.2 ⟨visit, hvisit, ?_⟩)
    rw [hrule]
    exact hscope

end Grammar

/-- The rules on the walks of the grammars that are held at paths. -/
def OnWalk (held : String → Option Grammar) (ref : RuleRef) : Prop :=
  ∃ g, held ref.grammar = some g ∧ ref.rule ∈ g.ruleOrder

namespace Registry

variable {r : Registry} {held : String → Option Grammar}

theorem Linked.onWalk_root (h : r.Linked held) {path : String} {g : Grammar}
    (hg : held path = some g) : OnWalk held ⟨path, rootRule⟩ :=
  ⟨g, hg, Grammar.root_mem_ruleOrder (h.forest hg)⟩

theorem Linked.rule?_of_onWalk (h : r.Linked held) {ref : RuleRef} {rule : Rule}
    (href : OnWalk held ref) (hrule : r.rule? ref = some rule) :
    ∃ g, held ref.grammar = some g ∧ g.rule? ref.rule = some rule ∧ ref.rule ∈ g.ruleOrder := by
  obtain ⟨g, hg, hmem⟩ := href
  obtain ⟨g', hg', hrule'⟩ := h.of_rule? hrule
  obtain rfl : g = g' := Option.some.inj (hg.symm.trans hg')
  exact ⟨g, hg, hrule', hmem⟩

/-- A rule on a walk leads to the rules that it owns. -/
theorem Linked.onWalk_owned (h : r.Linked held) {ref : RuleRef} {rule : Rule} {id : RuleId}
    (href : OnWalk held ref) (hrule : r.rule? ref = some rule) (hid : id ∈ rule.owned) :
    OnWalk held ⟨ref.grammar, id⟩ := by
  obtain ⟨g, hg, hrule', hmem⟩ := h.rule?_of_onWalk href hrule
  exact ⟨g, hg, Grammar.owned_mem_ruleOrder (h.forest hg) hmem hrule' hid⟩

/-- **The walks of all grammars are not left**, neither by patterns nor by includes nor by capture
groups. -/
theorem Linked.encloses_onWalk (h : r.Linked held) {base : String} {g : Grammar}
    (hbase : held base = some g) : r.Encloses base (OnWalk held) where
  patterns href hrule hid :=
    h.onWalk_owned href hrule (List.mem_append_left _ (List.mem_append_left _ hid))
  captures href hrule hid := h.onWalk_owned href hrule (List.mem_append_right _ hid)
  targets {ref target linked} href hfind htarget := by
    rw [h.find?] at hfind
    obtain ⟨other, hother, rfl⟩ := Option.map_eq_some_iff.1 hfind
    exact Grammar.mem_ruleOrder_of_target? hother (fun _ _ => h.forest) htarget
  base := h.onWalk_root hbase

/-! ## Listed scopes -/

/-- A scope that a grammar lists. -/
def Lists (r : Registry) (scope : Scope) : Prop :=
  ∃ path g, r.find? path = some g ∧ scope ∈ g.grammar.scopeNames

/-- A scope that some grammar lists, filled in with captured text. -/
def Fills (r : Registry) (scope : Scope) : Prop :=
  ∃ listed, r.Lists listed ∧ ∃ text groups, scope = listed.resolve text groups

/-- The scopes that a rule on a walk names are listed. -/
theorem Linked.lists_of_onWalk (h : r.Linked held) {ref : RuleRef} {rule : Rule}
    (href : OnWalk held ref) (hrule : r.rule? ref = some rule) {scope : Scope}
    (hscope : scope ∈ rule.listedScopes) : r.Lists scope := by
  obtain ⟨g, hg, hrule', hmem⟩ := h.rule?_of_onWalk href hrule
  have hfind : r.find? ref.grammar = some (g.link ref.grammar held) := by
    rw [h.find?, hg]
    rfl
  exact ⟨ref.grammar, _, hfind, Grammar.mem_scopeNames.2 ⟨ref.rule, rule, hmem, hrule', hscope⟩⟩

end Registry

/-! ## Rules -/

namespace Rule

variable {rule : Rule} {text : List Char} {groups : Groups} {scope : Scope}

omit [Engine] in
theorem exists_of_mem_scopesOf {name : Option ScopeName}
    (h : scope ∈ scopesOf name text groups) :
    ∃ n listed, name = some n ∧ listed ∈ n.scopes ∧ scope = listed.resolve text groups := by
  unfold scopesOf at h
  split at h
  · rename_i n
    obtain ⟨listed, hlisted, rfl⟩ := List.mem_map.1 h
    exact ⟨n, listed, rfl, hlisted, rfl⟩
  · cases h

/-- The scopes of a rule's name are some that the rule lists, filled in. -/
theorem exists_of_mem_nameScopes (h : scope ∈ rule.nameScopes text groups) :
    ∃ listed ∈ rule.listedScopes, scope = listed.resolve text groups := by
  obtain ⟨n, listed, hname, hlisted, rfl⟩ := exists_of_mem_scopesOf h
  refine ⟨listed, List.mem_append_left _ ?_, rfl⟩
  rw [hname]
  exact hlisted

/-- The scopes of a rule's content are some that the rule lists, filled in. -/
theorem exists_of_mem_contentScopes (h : scope ∈ rule.contentScopes text groups) :
    ∃ listed ∈ rule.listedScopes, scope = listed.resolve text groups := by
  obtain ⟨n, listed, hname, hlisted, rfl⟩ := exists_of_mem_scopesOf h
  refine ⟨listed, List.mem_append_right _ ?_, rfl⟩
  rw [hname]
  exact hlisted

end Rule

/-- All scopes of a list fill in listed ones. -/
def Registry.FillsAll (r : Registry) (scopes : List Scope) : Prop := ∀ scope ∈ scopes, r.Fills scope

namespace Tokenizer

variable {r : Registry} {held : String → Option Grammar} {t : Tokenizer}

/-- **The rules on the walks add listed scopes only.** -/
theorem fillsAll_keptWithin (h : t.registry.Linked held) :
    t.KeptWithin (OnWalk held) t.registry.FillsAll where
  name text groups href hrule hscopes := by
    intro scope hscope
    rcases List.mem_append.1 hscope with hscope | hscope
    · exact hscopes scope hscope
    · obtain ⟨listed, hlisted, rfl⟩ := Rule.exists_of_mem_nameScopes hscope
      exact ⟨listed, h.lists_of_onWalk href hrule hlisted, text, groups, rfl⟩
  content text groups href hrule hscopes := by
    intro scope hscope
    rcases List.mem_append.1 hscope with hscope | hscope
    · exact hscopes scope hscope
    · obtain ⟨listed, hlisted, rfl⟩ := Rule.exists_of_mem_contentScopes hscope
      exact ⟨listed, h.lists_of_onWalk href hrule hlisted, text, groups, rfl⟩

/-- A stack whose rules are on the walks and whose scopes fill in listed ones. -/
structure Listed (r : Registry) (held : String → Option Grammar) (stack : Stack) : Prop where
  inside : stack.Inside (OnWalk held)
  scopes : stack.ScopesHold r.FillsAll

/-- The stack in front of a document has the scope that the grammar's first rule lists. -/
theorem initialStack_listed (h : r.Linked held) {path : String} {options : Options}
    (ht : r.tokenizer path options = .ok t) : Listed r held t.initialStack := by
  obtain ⟨linked, hfind, rfl⟩ := Registry.of_tokenizer ht
  obtain ⟨d, hd⟩ := h.of_find? hfind
  have hheld := h.held_of_find? hfind
  have hroot := h.onWalk_root hheld
  refine ⟨Stack.inside_initial hroot _, ?_⟩
  have hplain := Grammar.hasCaptures_of_ofDefinition hd
  have hlists : r.Lists linked.grammar.scopeName := by
    obtain ⟨root, hrule⟩ := Option.isSome_iff_exists.1 (Grammar.rule_root (h.forest hheld))
    have hname := Grammar.name_root_of_ofDefinition hd hrule
    have hmem : linked.grammar.scopeName ∈ root.listedScopes := by
      refine List.mem_append_left _ ?_
      rw [hname]
      exact List.mem_singleton.2 rfl
    exact ⟨path, linked, hfind, Grammar.mem_scopeNames.2
      ⟨rootRule, root, Grammar.root_mem_ruleOrder (h.forest hheld), hrule, hmem⟩⟩
  have hfills : r.FillsAll [linked.grammar.scopeName] := by
    intro scope hscope
    rw [List.mem_singleton.1 hscope]
    exact ⟨_, hlists, [], [], (Scope.resolve_eq_self hplain _ _).symm⟩
  intro f hf
  rw [List.mem_singleton.1 hf]
  exact ⟨hfills, hfills⟩

/-- **A line keeps to listed scopes**, in its tokens and in the stack behind it. -/
theorem tokenizeLine_listed (h : t.registry.Linked held) {g : Grammar} (hbase : held t.base = some g)
    (line : List Char) {stack : Stack} (hstack : Listed t.registry held stack) :
    (∀ token ∈ (t.tokenizeLine line stack).1, t.registry.FillsAll token.scopes) ∧
      Listed t.registry held (t.tokenizeLine line stack).2 := by
  have henc := encloses_of_registry (h.encloses_onWalk hbase)
  obtain ⟨hline, -⟩ := tokenizeLineWith_spec (Tables.right_empty t) line stack
  have hscopes := tokenizeText_scopesHold_within henc (fillsAll_keptWithin h) (line ++ ['\n'])
    hstack.inside hstack.scopes .empty
  have hinside := tokenizeText_inside henc hstack.inside (line ++ ['\n']) .empty
  show (∀ token ∈ (t.tokenizeLineWith line stack .empty).1.1, _) ∧
    Listed t.registry held (t.tokenizeLineWith line stack .empty).1.2
  rw [hline]
  exact ⟨hscopes.tokens.clip _, hinside.endLine, hscopes.stack.endLine⟩

/-- **Listed scopes cover the scopes of tokens.** Every scope of a token is one that a grammar lists,
filled in with captured text. If no grammar lists it as it is, then the one that it fills in has
placeholders. -/
theorem tokens_scopes_listed (r : Registry) (held : String → Option Grammar)
    (hreached : r.Reached held) (path : String) (options : Options) (t : Tokenizer)
    (ht : r.tokenizer path options = .ok t) (tables : Tables) (hserved : t.Served tables)
    (lines : List (List Char)) :
    ∀ here ∈ (t.tokenizeLinesWith lines t.initialStack tables).1, ∀ token ∈ here.1,
      ∀ scope ∈ token.scopes, ∃ listed, r.Lists listed ∧
        (∃ text groups, scope = listed.resolve text groups) ∧
        (¬ r.Lists scope → listed.hasCaptures = true) := by
  have hlinked := hreached.linked
  have hinitial := initialStack_listed hlinked ht
  obtain ⟨g, hg, rfl⟩ := Registry.of_tokenizer ht
  have hheld := hlinked.held_of_find? hg
  rw [tokenizeLinesWith_eq hserved.right]
  intro here hhere token htoken scope hscope
  have hlines := tokenizeLines_invariant (t := ⟨r, path, g.grammar.scopeName, options⟩)
    (Q := fun tokens => ∀ token ∈ tokens, r.FillsAll token.scopes)
    (fun line _ hs => tokenizeLine_listed hlinked hheld line hs) lines hinitial
  obtain ⟨listed, hlists, text, groups, rfl⟩ := (hlines here hhere).1 token htoken scope hscope
  refine ⟨listed, hlists, ⟨text, groups, rfl⟩, ?_⟩
  intro hunlisted
  by_contra hplain
  -- a scope without placeholders fills in itself
  rw [Scope.resolve_eq_self (Bool.not_eq_true _ ▸ hplain)] at hunlisted
  exact hunlisted hlists

end Tokenizer

end

namespace Tokenizer

set_option maxRecDepth 100000 in
/-- A token whose second scope is filled in from what the beginning of its region captured. -/
theorem tokens_scopes_listed_captured :
    let x : Part := .name { chars := ['x'] }
    let a : Part := .name { chars := ['a'] }
    let tag : Part := .name { chars := ['t', 'a', 'g'] }
    let b : Part := .name { chars := ['b'] }
    let region : RuleDefinition :=
      { keys :=
          { name := some "tag.$1", contentName := some "inside.$0", beginText := some "<(b|c)",
            endText := some ">" } }
    let d : GrammarDefinition := { scopeName := some "x.a", patterns := [region] }
    let scope : Scope := ⟨[x, a], by decide⟩
    let captured : Scope := ⟨[tag, b], by decide⟩
    let held := Function.update (fun _ => none) "x.a" (some (Grammar.ofScoped d scope))
    ∃ r : Registry, r.Reached held ∧
      let t : Tokenizer := ⟨r, "x.a", scope, .standard⟩
      r.tokenizer "x.a" .standard = .ok t ∧ t.Served .empty ∧
        ∃ here ∈ (t.tokenizeLinesWith [['<', 'b', '.']] t.initialStack .empty).1,
          ∃ token ∈ here.1, captured ∈ token.scopes ∧ ∃ listed, r.Lists listed ∧
            (∃ text groups, captured = listed.resolve text groups) ∧
            (¬ r.Lists captured → listed.hasCaptures = true) := by
  intro x a tag b region d scope captured held
  have hg : Grammar.ofDefinition d = .ok (Grammar.ofScoped d scope) := rfl
  have hpath : Registry.checkPath "x.a" = .ok () := rfl
  -- the run is worked out before the registry is hidden behind its name
  obtain ⟨r, hreached, here, hhere, token, htoken, hcaptured⟩ : ∃ r : Registry, r.Reached held ∧
      let t : Tokenizer := ⟨r, "x.a", scope, .standard⟩
      ∃ here ∈ (t.tokenizeLinesWith [['<', 'b', '.']] t.initialStack .empty).1,
        ∃ token ∈ here.1, captured ∈ token.scopes :=
    ⟨_, Registry.reached_single hg hpath, by decide +kernel⟩
  have hheld : held "x.a" = some (Grammar.ofScoped d scope) := Function.update_self ..
  have ht := hreached.tokenizer hheld .standard
  have hlisted := tokens_scopes_listed r held hreached "x.a" .standard _ ht .empty (.fresh _)
    [['<', 'b', '.']] here hhere token htoken captured hcaptured
  exact ⟨r, hreached, ht, .fresh _, here, hhere, token, htoken, hcaptured, hlisted⟩

end Tokenizer

end Highlight
