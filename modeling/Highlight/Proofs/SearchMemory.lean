import Highlight.Pattern.Literal
import Highlight.Proofs.Leftmost
import Highlight.Proofs.Links
import Highlight.Proofs.Tables

/-!
# The results of earlier searches do not show

On a line the result of a search is used again at later places, after regions have begun and ended,
for as long as the match lies ahead. If searches are leftmost, what is used again is what searching
anew would find, so the tokens and the stack are those of a tokenizer that does every search anew.

What has to be known of the memory is where its entries come from: each is the result of a search on
the line at hand, for the pattern of its rule, with the line counting as the first one as it does now.

- `SearchMemory.Faithful`: the entries are results of searches on the line.
- `Searching.remembering_simulates`: such a memory gives the answers that searching anew gives.
- `Tokenizer.tokenizeFrom`: tokenizing from any place of a text, as a line or as the text of a group.
- `Tokenizer.search_memory_hidden`: the tokens and the stack of texts and of lines.
-/

namespace Highlight

section

variable [Engine]

namespace Tokenizer

/-- The patterns by which rules are found are leftmost, except for those that ask where the search
began. -/
def SearchesLeftmost (t : Tokenizer) : Prop :=
  ∀ ref rule pattern, t.rule? ref = some rule → entryPattern? rule = some pattern →
    pattern.asksSearchStart = false → pattern.Leftmost

end Tokenizer

namespace SearchMemory

/-- An entry is the result of a search on a line, for the pattern of a rule. -/
def FoundOn (t : Tokenizer) (line : IndexedText) (firstLine : Bool) (ref : RuleRef) (start : Nat)
    (result : Option Found) : Prop :=
  ∃ rule pattern place, t.rule? ref = some rule ∧ Tokenizer.entryPattern? rule = some pattern ∧
    pattern.asksSearchStart = false ∧ place ≤ line.size ∧ line.offset place = start ∧
    pattern.findFrom? line place firstLine = result

/-- Every entry is the result of a search on the line, which counted as the first one or not as it
does now. -/
structure Faithful (t : Tokenizer) (line : IndexedText) (firstLine : Bool) (memory : SearchMemory) :
    Prop where
  first : memory.firstLine = firstLine
  entries : ∀ ref start result, (ref, start, result) ∈ memory.results →
    FoundOn t line firstLine ref start result

variable {t : Tokenizer} {line : IndexedText} {firstLine : Bool} {memory : SearchMemory}
  {ref : RuleRef} {rule : Rule} {pattern : Pattern} {place : Nat}

/-- Nothing is known at the start of a line. -/
theorem faithful_nil (t : Tokenizer) (line : IndexedText) (firstLine : Bool) :
    Faithful t line firstLine ⟨firstLine, []⟩ :=
  ⟨rfl, fun _ _ _ h => absurd h List.not_mem_nil⟩

/-- What is known for a place is what a search from there finds. -/
theorem Faithful.eq_of_known? (h : memory.Faithful t line firstLine) (hleft : t.SearchesLeftmost)
    (hrule : t.rule? ref = some rule) (hpattern : Tokenizer.entryPattern? rule = some pattern)
    (hplace : place ≤ line.size) {result : Option Found}
    (hknown : memory.known? ref (line.offset place) = some result) :
    result = pattern.findFrom? line place firstLine := by
  unfold known? at hknown
  split at hknown
  · cases hknown
  · rename_i start found hlookup
    obtain ⟨rule', pattern', early, hrule', hpattern', hstart, hearly, rfl, hfound⟩ :=
      h.entries ref start found (mem_of_lookup hlookup)
    obtain rfl : rule = rule' := Option.some.inj (hrule.symm.trans hrule')
    obtain rfl : pattern = pattern' := Option.some.inj (hpattern.symm.trans hpattern')
    split at hknown
    · cases hknown
    · rename_i hbefore
      -- the search of the entry began here or earlier on the line
      have hle : early ≤ place := IndexedText.le_of_offset_le hearly (Nat.not_lt.1 hbefore)
      obtain ⟨hnone, hsome⟩ :=
        hleft ref rule pattern hrule hpattern hstart line firstLine early place hle hplace
      cases found with
      | none =>
        cases hknown
        exact (hnone hfound).symm
      | some f =>
        simp only at hknown
        split at hknown
        · cases hknown
        · rename_i hahead
          cases hknown
          exact (hsome f hfound (Nat.not_lt.1 hahead)).symm

theorem Faithful.note (h : memory.Faithful t line firstLine) (hrule : t.rule? ref = some rule)
    (hpattern : Tokenizer.entryPattern? rule = some pattern)
    (hstart : pattern.asksSearchStart = false) (hplace : place ≤ line.size) :
    (memory.note ref (line.offset place) (pattern.findFrom? line place firstLine)).Faithful t line
      firstLine := by
  refine ⟨h.first, ?_⟩
  intro ref' start result hmem
  rcases List.mem_cons.1 hmem with heq | hmem
  · cases heq
    exact ⟨rule, pattern, place, hrule, hpattern, hstart, hplace, rfl, rfl⟩
  · exact h.entries ref' start result (List.mem_filter.1 hmem).1

/-- A faithful memory beside none. -/
def Spared (t : Tokenizer) : MemoryRelation SearchMemory Unit :=
  fun line firstLine memory _ => memory.Faithful t line firstLine

end SearchMemory

/-- **A faithful memory gives the answers that searching anew gives**, and stays faithful. -/
theorem Searching.remembering_simulates {t : Tokenizer} (hleft : t.SearchesLeftmost) :
    remembering.Simulates t anew (SearchMemory.Spared t) where
  enter line' firstLine' _ := SearchMemory.faithful_nil t line' firstLine'
  leave h _ := h
  noteFirstLine firstLine' h := by
    show SearchMemory.Faithful t _ firstLine' (ite _ _ _)
    -- the entries stay only if the line counts as the first one as it did
    split
    · rename_i heq
      obtain rfl := h.first.symm.trans heq
      exact h
    · exact SearchMemory.faithful_nil t _ firstLine'
  find {line firstLine memory _ ref pattern place} hplace h hpattern := by
    obtain ⟨rule, hrule, hpattern⟩ := Option.bind_eq_some_iff.1 hpattern
    cases hstart : pattern.asksSearchStart with
    | true =>
      simp only [remembering, anew, hstart, if_true]
      exact ⟨rfl, h⟩
    | false =>
      simp only [remembering, anew, hstart, Bool.false_eq_true, if_false]
      split
      · rename_i result hknown
        exact ⟨h.eq_of_known? hleft hrule hpattern hplace hknown, h⟩
      · exact ⟨rfl, h.note hrule hpattern hstart hplace⟩
  candidates _ h := ⟨rfl, h⟩
  endPattern _ h := ⟨rfl, h⟩

/-! ## Texts and lines -/

namespace Tokenizer

variable {σ : Type}

/-- Tokenizes a text from an offset on. As a line it is held against the conditions of the regions
that are open; as the text of a capture group it is not. -/
def tokenizeFrom (t : Tokenizer) (searching : Searching σ) (levels : Nat) (isLine : Bool)
    (stack : Stack) (text : List Char) (position : Nat) (firstLine : Bool) (memory : σ) :
    LineState σ :=
  let line := IndexedText.ofText text
  let retokenize := t.retokenize searching levels
  let entered := searching.enter firstLine memory
  let s : LineState σ :=
    if isLine then
      t.conditions searching retokenize line stack.above.reverse
        ⟨{ stack with above := [] }, .startingAt position, position, firstLine, entered⟩
    else ⟨stack, .startingAt position, position, firstLine, entered⟩
  finish line (t.run searching retokenize line (t.budget line) s)

theorem tokenizeText_eq (t : Tokenizer) (searching : Searching σ) (text : List Char) (stack : Stack)
    (memory : σ) :
    t.tokenizeText searching text stack memory =
      t.tokenizeFrom searching t.options.maxStackDepth.toNat true stack text 0 stack.firstLine
        memory :=
  rfl

/-- Ways to search whose memories are in a relation at the start of a text, and stay in it, tokenize
the text in the same way. -/
theorem tokenizeFrom_alike {σ₁ σ₂ : Type} {t : Tokenizer} {s₁ : Searching σ₁} {s₂ : Searching σ₂}
    {R : MemoryRelation σ₁ σ₂} (hs : s₁.Simulates t s₂ R) (levels : Nat) (isLine : Bool)
    (stack : Stack) (text : List Char) (position : Nat) (firstLine : Bool) {m₁ : σ₁} {m₂ : σ₂}
    (hentered : R (.ofText text) firstLine (s₁.enter firstLine m₁) (s₂.enter firstLine m₂)) :
    (t.tokenizeFrom s₁ levels isLine stack text position firstLine m₁).Alike R (.ofText text)
      (t.tokenizeFrom s₂ levels isLine stack text position firstLine m₂) := by
  apply finish_alike
  apply run_retokenize_alike hs levels
  cases isLine with
  | true =>
    apply conditions_alike hs ((retokenize_agree hs levels).mono fun _ _ => trivial)
    exact ⟨rfl, rfl, rfl, rfl, firstLine, hentered⟩
  | false => exact ⟨rfl, rfl, rfl, rfl, firstLine, hentered⟩

/-- The tokens of a line and the stack behind it, every search done anew. -/
def tokenizeLineAnew (t : Tokenizer) (line : List Char) (stack : Stack) : List Token × Stack :=
  let s := t.tokenizeText Searching.anew (line ++ ['\n']) stack ()
  (s.tokens.clip (Text.byteLength line), s.stack.endLine)

/-- **The results of earlier searches do not show**, if searches are leftmost. From any place of any
text, with any stack and whether or not the line counts as the first one, the tokens and the stack
are those for which every search is done anew; so are those of a line, whatever the tokenizer has
been used for before. -/
theorem search_memory_hidden (t : Tokenizer) (hleft : t.SearchesLeftmost) :
    (∀ levels isLine stack text position firstLine memory,
      let remembered :=
        t.tokenizeFrom Searching.remembering levels isLine stack text position firstLine memory
      let afresh := t.tokenizeFrom Searching.anew levels isLine stack text position firstLine ()
      remembered.tokens = afresh.tokens ∧ remembered.stack = afresh.stack) ∧
    ∀ tables, t.Served tables → ∀ line stack,
      (t.tokenizeLineWith line stack tables).1 = t.tokenizeLineAnew line stack := by
  have hsimulates := Searching.remembering_simulates hleft
  have hfrom : ∀ levels isLine stack text position firstLine memory,
      (t.tokenizeFrom Searching.remembering levels isLine stack text position firstLine
        memory).Alike (SearchMemory.Spared t) (.ofText text)
        (t.tokenizeFrom Searching.anew levels isLine stack text position firstLine ()) := by
    intro levels isLine stack text position firstLine memory
    exact tokenizeFrom_alike hsimulates levels isLine stack text position firstLine
      (SearchMemory.faithful_nil t _ firstLine)
  constructor
  · intro levels isLine stack text position firstLine memory
    have halike := hfrom levels isLine stack text position firstLine memory
    exact ⟨halike.tokens, halike.stack⟩
  · intro tables hserved line stack
    have halike := hfrom t.options.maxStackDepth.toNat true stack (line ++ ['\n']) 0
      stack.firstLine .empty
    rw [← tokenizeText_eq, ← tokenizeText_eq] at halike
    rw [(tokenizeLineWith_spec hserved.right line stack).1, halike.tokens, halike.stack]
    rfl

end Tokenizer

end

/-! ## Plain patterns -/

namespace Tokenizer

/-- Searches are leftmost if the grammars of the registry have plain patterns only. -/
theorem searchesLeftmost_of_isPlain {t : Tokenizer} {held : String → Option Grammar}
    (hreached : t.registry.Reached held)
    (hplain : ∀ path g, held path = some g → ∀ rule ∈ g.rules, ∀ pattern,
      entryPattern? rule = some pattern → pattern.isPlain) : t.SearchesLeftmost := by
  intro ref rule pattern hrule hpattern hstart
  obtain ⟨g, hg, hrule⟩ := hreached.linked.of_rule? hrule
  exact Pattern.leftmost_of_isPlain
    (hplain ref.grammar g hg rule (Array.mem_of_getElem? hrule) pattern hpattern) hstart

/-- Searches are leftmost if the only grammar has plain patterns only, which can be checked. -/
theorem searchesLeftmost_of_single {t : Tokenizer} {path : String} {g : Grammar}
    (hreached : t.registry.Reached (Function.update (fun _ => none) path (some g)))
    (hplain : g.rules.all fun rule => (entryPattern? rule).all Pattern.isPlain) :
    t.SearchesLeftmost := by
  refine searchesLeftmost_of_isPlain hreached ?_
  intro path' g' hg' rule hrule pattern hpattern
  rw [Registry.eq_of_held_single hg'] at hrule
  have hall := Array.all_eq_true_iff_forall_mem.1 hplain rule hrule
  rwa [hpattern] at hall

/-- A line with a region in which a pattern is searched for that matches outside of it too. -/
theorem search_memory_hidden_region :
    let x : Part := .name { chars := ['x'] }
    let a : Part := .name { chars := ['a'] }
    let single : RuleDefinition := { keys := { name := some "word.a", matchText := some "a" } }
    let region : RuleDefinition :=
      { keys := { beginText := some "b", endText := some "c" }, patterns := some [single] }
    let d : GrammarDefinition := { scopeName := some "x.a", patterns := [single, region] }
    let scope : Scope := ⟨[x, a], by decide⟩
    let g := Grammar.ofScoped d scope
    let held := Function.update (fun _ => none) "x.a" (some g)
    ∃ r : Registry, r.Reached held ∧
      let t : Tokenizer := ⟨r, "x.a", scope, .standard⟩
      t.SearchesLeftmost ∧
        (t.tokenizeLineWith ['b', 'a', 'c', 'a'] t.initialStack .empty).1 =
          t.tokenizeLineAnew ['b', 'a', 'c', 'a'] t.initialStack := by
  intro x a single region d scope g held
  have hg : Grammar.ofDefinition d = .ok g := rfl
  have hpath : Registry.checkPath "x.a" = .ok () := rfl
  obtain ⟨r, hreached⟩ : ∃ r : Registry, r.Reached held := ⟨_, Registry.reached_single hg hpath⟩
  have hplain : g.rules.all (fun rule => (entryPattern? rule).all Pattern.isPlain) = true := by
    decide +kernel
  refine ⟨r, hreached, ?_⟩
  intro t
  have hleft : t.SearchesLeftmost := searchesLeftmost_of_single hreached hplain
  exact ⟨hleft, (search_memory_hidden t hleft).2 .empty (.fresh t) _ _⟩

end Tokenizer

end Highlight
