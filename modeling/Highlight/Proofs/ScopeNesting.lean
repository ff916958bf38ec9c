import Highlight.Pattern.Literal
import Highlight.Proofs.Restart
import Highlight.Proofs.ScopeLists
import Highlight.Proofs.Termination
import Mathlib.Data.List.Chain

/-!
# Scopes are nested like the regions

The scopes of a region's content are those of its two ends with more of them, and what begins inside
has those of the content with more of them. So the scope lists of a stack begin with each other from
the bottom to the top, all of them and those of the tokens begin with the scope of the grammar, and
the captured text that was filled in has left no placeholder and no empty scope.

- `Stack.Nested`: the lists of the frames begin with each other.
- `Tokenizer.Move.nested`: a step keeps this, whatever text was captured.
- `Scope.Filled`, `StartsWith`: what holds of all scopes and of all lists of scopes.
- `Tokenizer.scopes_nested`: the main statement.
-/

namespace Highlight

/-! ## Frames -/

namespace Stack

/-- The scopes of a frame's name begin those of its content, and these begin the scopes of the name of
the frame above it. -/
structure Nested (s : Stack) : Prop where
  content : ∀ f ∈ s.frames, f.nameScopes <+: f.contentScopes
  chain : s.frames.IsChain fun outer inner => outer.contentScopes <+: inner.nameScopes

variable {s s' : Stack}

/-- The first frames of nested ones are nested. -/
theorem Nested.of_frames (h : s'.Nested) (hframes : s.frames <+: s'.frames) : s.Nested := by
  obtain ⟨more, hmore⟩ := hframes
  obtain ⟨hcontent, hchain⟩ := h
  rw [← hmore] at hcontent hchain
  exact ⟨fun f hf => hcontent f (List.mem_append_left more hf), (List.isChain_append.1 hchain).1⟩

theorem frames_pop (s : Stack) : s.pop.frames <+: s.frames := by
  obtain ⟨bottom, above, firstLine⟩ := s
  refine List.cons_prefix_cons.2 ⟨rfl, List.reverse_prefix.2 ?_⟩
  exact List.tail_suffix above

/-- A frame whose lists go on where those of the innermost frame end. -/
theorem Nested.push (h : s.Nested) {f : Frame} (hname : s.scopes <+: f.nameScopes)
    (hcontent : f.nameScopes <+: f.contentScopes) : (s.push f).Nested := by
  refine ⟨forall_frames_push h.content hcontent, ?_⟩
  rw [frames_push, List.isChain_append]
  refine ⟨h.chain, List.isChain_singleton f, ?_⟩
  intro outer houter inner hinner
  rw [getLast?_frames] at houter
  cases houter
  cases hinner
  exact hname

/-- A region is closed after its content has been given the scopes of its two ends. -/
theorem Nested.close (h : s.Nested) : (s.withContent s.top.nameScopes).pop.Nested := by
  obtain ⟨bottom, above, firstLine⟩ := s
  cases above with
  | nil =>
    refine ⟨?_, List.isChain_singleton _⟩
    intro f hf
    rw [List.mem_singleton.1 hf]
    exact List.prefix_rfl
  | cons f rest => exact h.of_frames (frames_pop ⟨bottom, f :: rest, firstLine⟩)

/-- The end of a line leaves all scopes as they are. -/
theorem Nested.endLine (h : s.Nested) : s.endLine.Nested := by
  have hframes : s.endLine.frames = s.frames.map fun f => { f with entered := none } := by
    simp [frames, Stack.endLine]
  refine ⟨?_, ?_⟩
  · intro f hf
    rw [hframes] at hf
    obtain ⟨g, hg, rfl⟩ := List.mem_map.1 hf
    exact h.content g hg
  · rw [hframes, List.isChain_map]
    exact h.chain

theorem initial_nested (grammar : String) (scope : Scope) : (initial grammar scope).Nested := by
  refine ⟨?_, List.isChain_singleton _⟩
  intro f hf
  rw [List.mem_singleton.1 hf]
  exact List.prefix_rfl

end Stack

/-! ## Scopes -/

/-- A scope in which nothing is left to fill in, and which is not empty. -/
def Scope.Filled (s : Scope) : Prop := s.chars ≠ [] ∧ s.hasCaptures = false

/-- A list of scopes, nothing to fill in, of which the first is the given one. -/
def StartsWith (first : Scope) (scopes : List Scope) : Prop :=
  scopes.head? = some first ∧ ∀ scope ∈ scopes, scope.Filled

theorem Rule.filled_of_mem_scopesOf {name : Option ScopeName} {text : List Char} {groups : Groups}
    {scope : Scope} (h : scope ∈ Rule.scopesOf name text groups) : scope.Filled := by
  unfold Rule.scopesOf at h
  split at h
  · obtain ⟨declared, -, rfl⟩ := List.mem_map.1 h
    exact ⟨Scope.chars_ne_nil _, Scope.resolve_hasCaptures text groups declared⟩
  · cases h

theorem StartsWith.append {first : Scope} {scopes more : List Scope} (h : StartsWith first scopes)
    (hmore : ∀ scope ∈ more, scope.Filled) : StartsWith first (scopes ++ more) := by
  refine ⟨?_, ?_⟩
  · rw [List.head?_append, h.1, Option.some_or]
  · intro scope hscope
    rcases List.mem_append.1 hscope with hscope | hscope
    · exact h.2 scope hscope
    · exact hmore scope hscope

section

variable [Engine]

namespace Tokenizer

variable {σ : Type} {t : Tokenizer} {searching : Searching σ} {retok : Retokenize σ}
  {line : IndexedText} {s s' : LineState σ} {found : Found} {first : Scope}

/-- Whatever scopes rules add, the list begins as before. -/
theorem startsWith_keptByRules (t : Tokenizer) (first : Scope) :
    t.KeptByRules (StartsWith first) where
  name _ _ _ h := h.append fun _ => Rule.filled_of_mem_scopesOf
  content _ _ _ h := h.append fun _ => Rule.filled_of_mem_scopesOf

/-- **A step keeps the nesting.** -/
theorem Move.nested (h : t.Move searching line s s' found) (hs : s.stack.Nested) :
    s'.stack.Nested := by
  cases h with
  | closed _ _ hstack _ =>
    rw [hstack]
    exact hs.close
  | passed hstack _ =>
    rw [hstack]
    exact hs
  | opened ref rule ending _ _ _ _ hstack _ =>
    rw [hstack]
    exact hs.push (List.prefix_append _ _) (List.prefix_append _ _)

theorem step?_nested (hs : s.stack.Nested) (h : t.step? searching retok line s = some s') :
    s'.stack.Nested := by
  obtain ⟨_, _, -, hmove⟩ := step?_move h
  exact hmove.nested hs

/-- A whole text keeps the nesting. -/
theorem tokenizeText_nested {stack : Stack} (hs : stack.Nested) (text : List Char) (memory : σ) :
    (t.tokenizeText searching text stack memory).stack.Nested := by
  refine run_invariant (I := fun s : LineState σ => s.stack.Nested) step?_nested _ ?_
  exact hs.of_frames (start_frames t searching _ _ stack memory)

/-! ## Lines -/

/-- A stack whose lists of scopes begin with each other and with the given scope. -/
structure WellScoped (first : Scope) (stack : Stack) : Prop where
  nested : stack.Nested
  scopes : stack.ScopesHold (StartsWith first)

theorem initialStack_wellScoped (hbase : t.baseScope.Filled) :
    WellScoped t.baseScope t.initialStack := by
  refine ⟨Stack.initial_nested t.base t.baseScope, ?_⟩
  intro f hf
  rw [List.mem_singleton.1 hf]
  have hstarts : StartsWith t.baseScope [t.baseScope] :=
    ⟨rfl, List.forall_mem_singleton.2 hbase⟩
  exact ⟨hstarts, hstarts⟩

/-- A line leads from a well-scoped stack to well-scoped tokens and a well-scoped stack. -/
theorem tokenizeLine_wellScoped (line : List Char) {stack : Stack} (hs : WellScoped first stack) :
    (∀ token ∈ (t.tokenizeLine line stack).1, StartsWith first token.scopes) ∧
      WellScoped first (t.tokenizeLine line stack).2 := by
  obtain ⟨hline, -⟩ := tokenizeLineWith_spec (Tables.right_empty t) line stack
  have hscopes := tokenizeText_scopesHold (t.startsWith_keptByRules first) Searching.remembering
    (line ++ ['\n']) hs.scopes .empty
  have hnested : (t.tokenizeText Searching.remembering (line ++ ['\n']) stack .empty).stack.Nested :=
    tokenizeText_nested hs.nested (line ++ ['\n']) _
  show (∀ token ∈ (t.tokenizeLineWith line stack .empty).1.1, _) ∧
    WellScoped first (t.tokenizeLineWith line stack .empty).1.2
  rw [hline]
  exact ⟨hscopes.tokens.clip _, hnested.endLine, hscopes.stack.endLine⟩

/-- **Scopes are nested like the regions.** In any run over lines from the start of a document, on the
stack in front of it and on those behind its lines, the scopes of a frame's name begin those of its
content and these begin the scopes of the name of the frame above; the scopes of each token begin with
the scope of the grammar; and no scope in a frame or token is empty or has a placeholder. All of this
is kept by every step on a line. -/
theorem scopes_nested (r : Registry) (held : String → Option Grammar) (hreached : r.Reached held)
    (path : String) (options : Options) (t : Tokenizer) (ht : r.tokenizer path options = .ok t)
    (tables : Tables) (hserved : t.Served tables) (lines : List (List Char)) :
    ∃ g, r.find? path = some g ∧
      let produced := (t.tokenizeLinesWith lines t.initialStack tables).1
      (∀ stack, stack = t.initialStack ∨ stack ∈ produced.map Prod.snd →
        stack.Nested ∧ ∀ f ∈ stack.frames, ∀ scope ∈ f.nameScopes ++ f.contentScopes,
          scope.Filled) ∧
      (∀ here ∈ produced, ∀ token ∈ here.1,
        token.scopes.head? = some g.grammar.scopeName ∧ ∀ scope ∈ token.scopes, scope.Filled) ∧
      ∀ (σ : Type) (searching : Searching σ) (levels : Nat) (text : IndexedText)
        (s s' : LineState σ),
        t.step? searching (t.retokenize searching levels) text s = some s' → s.stack.Nested →
          s.ScopesHold (StartsWith g.grammar.scopeName) →
          s'.stack.Nested ∧ s'.ScopesHold (StartsWith g.grammar.scopeName) := by
  obtain ⟨g, hg, rfl⟩ := Registry.of_tokenizer ht
  refine ⟨g, hg, ?_⟩
  intro produced
  -- the scope of a grammar has been refused if it had placeholders
  have hbase : g.grammar.scopeName.Filled := by
    obtain ⟨d, hd⟩ := hreached.linked.of_find? hg
    exact ⟨Scope.chars_ne_nil _, Grammar.hasCaptures_of_ofDefinition hd⟩
  have hinitial := initialStack_wellScoped (t := ⟨r, path, g.grammar.scopeName, options⟩) hbase
  have hproduced : ∀ here ∈ produced,
      (∀ token ∈ here.1, StartsWith g.grammar.scopeName token.scopes) ∧
        WellScoped g.grammar.scopeName here.2 := by
    show ∀ here ∈ (tokenizeLinesWith _ lines _ tables).1, _
    rw [tokenizeLinesWith_eq hserved.right]
    exact tokenizeLines_invariant
      (Q := fun tokens => ∀ token ∈ tokens, StartsWith g.grammar.scopeName token.scopes)
      (fun line _ hs => tokenizeLine_wellScoped line hs) lines hinitial
  refine ⟨?_, fun here hhere => (hproduced here hhere).1, ?_⟩
  · intro stack hstack
    have hwell : WellScoped g.grammar.scopeName stack := by
      rcases hstack with rfl | hmem
      · exact hinitial
      · obtain ⟨here, hhere, rfl⟩ := List.mem_map.1 hmem
        exact (hproduced here hhere).2
    refine ⟨hwell.nested, ?_⟩
    intro f hf scope hscope
    rcases List.mem_append.1 hscope with hscope | hscope
    · exact (hwell.scopes f hf).name.2 scope hscope
    · exact (hwell.scopes f hf).content.2 scope hscope
  · intro σ searching levels text s s' hstep hnested hscopes
    have hkept := startsWith_keptByRules ⟨r, path, g.grammar.scopeName, options⟩
      g.grammar.scopeName
    exact ⟨step?_nested hnested hstep,
      step?_scopesHold hkept (retokenize_scopesHold hkept searching levels) hscopes hstep⟩

end Tokenizer

end

namespace Tokenizer

/-- A region whose name is filled in with the text that opened it. -/
theorem scopes_nested_captured :
    let x : Part := .name { chars := ['x'] }
    let a : Part := .name { chars := ['a'] }
    let region : RuleDefinition :=
      { keys :=
          { name := some "tag.$1", contentName := some "inside.$0", beginText := some "<(b|c)",
            endText := some ">" } }
    let d : GrammarDefinition := { scopeName := some "x.a", patterns := [region] }
    let scope : Scope := ⟨[x, a], by decide⟩
    let g := Grammar.ofScoped d scope
    let held := Function.update (fun _ => none) "x.a" (some g)
    ∃ r : Registry, r.Reached held ∧
      let t : Tokenizer := ⟨r, "x.a", scope, .standard⟩
      r.tokenizer "x.a" .standard = .ok t ∧ t.Served .empty ∧
        ∀ here ∈ (t.tokenizeLinesWith [['<', 'b'], ['.', '>']] t.initialStack .empty).1,
          here.2.Nested := by
  intro x a region d scope g held
  have hg : Grammar.ofDefinition d = .ok g := rfl
  have hpath : Registry.checkPath "x.a" = .ok () := rfl
  obtain ⟨r, hreached⟩ : ∃ r : Registry, r.Reached held := ⟨_, Registry.reached_single hg hpath⟩
  refine ⟨r, hreached, ?_⟩
  intro t
  have ht : r.tokenizer "x.a" .standard = .ok t := hreached.tokenizer (Function.update_self ..) .standard
  obtain ⟨_, -, hstacks, -⟩ := scopes_nested r held hreached "x.a" .standard t ht .empty (.fresh t)
    [['<', 'b'], ['.', '>']]
  refine ⟨ht, .fresh t, ?_⟩
  intro here hhere
  exact (hstacks here.2 (.inr (List.mem_map.2 ⟨here, hhere, rfl⟩))).1

end Tokenizer

end Highlight
