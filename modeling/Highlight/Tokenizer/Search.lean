import Highlight.Options
import Highlight.Registry.Candidates
import Highlight.Stack

/-!
# The next match on a line

At each place of a line the candidates are the patterns of the innermost region and the pattern that
ends it. The one that matches first wins; of those that match at the same place, the one declared
first.

A search is leftmost, so what it found holds for every later start up to the match. The loop over a
line therefore keeps the results of its searches. A tokenizer also keeps, from line to line, the
candidates inside of rules and the patterns with captured text filled in. How all this is kept is a
parameter, so that working it out anew each time is the same loop with another parameter.

- `Tokenizer`: the grammars, the one that documents are in, and the limits.
- `Searching`: a way to search with a memory.
- `Searching.anew`, `Searching.remembering`: without a memory, and with the results of the line.
- `Tables`, `Searching.keeping`: what is kept from line to line, and searching with it.
- `Choice`, `Tokenizer.next?`: the match that wins.
-/

namespace Highlight

variable [Engine]

/-- Tokenizes documents in one of several grammars. -/
structure Tokenizer where
  registry : Registry
  /-- The path of the grammar that documents are in. -/
  base : String
  /-- The scope of that grammar. -/
  baseScope : Scope
  options : Options

namespace Tokenizer

/-- The rule that a reference names. -/
def rule? (t : Tokenizer) (r : RuleRef) : Option Rule := t.registry.rule? r

/-- The rules that can match inside of a rule. -/
def candidates (t : Tokenizer) (r : RuleRef) : List RuleRef :=
  t.registry.candidates t.base t.options.maxIncludeDepth.toNat r

end Tokenizer

/-- A way to search for the patterns of rules with a memory of type `σ`. -/
structure Searching (σ : Type) where
  /-- The memory at the start of a text, given the one in front of it. -/
  enter : Bool → σ → σ
  /-- The memory behind a text inside of another one, given the one in front of it and the one at its
  end. -/
  leave : σ → σ → σ
  /-- The memory when it has become known whether the line is the first one. -/
  noteFirstLine : Bool → σ → σ
  /-- The first match from a place on of the pattern of a rule, and the memory after the search. -/
  find : RuleRef → Pattern → IndexedText → Nat → Bool → σ → Option Found × σ
  /-- The rules that can match inside of a rule. -/
  candidates : Tokenizer → RuleRef → σ → List RuleRef × σ
  /-- The pattern that a text stands for as the end of a region. -/
  endPattern : List Char → σ → Pattern × σ

/-- What earlier searches on a line found: for each rule the offset that the last search for it began
at and its result. -/
structure SearchMemory where
  firstLine : Bool
  results : List (RuleRef × Nat × Option Found)

namespace SearchMemory

/-- Nothing is known yet. -/
def empty : SearchMemory := ⟨true, []⟩

/-- The result for a search from an offset, if an earlier search from there or from before found
nothing or found a match that begins there or later. -/
def known? (m : SearchMemory) (rule : RuleRef) (offset : Nat) : Option (Option Found) :=
  match m.results.lookup rule with
  | none => none
  | some (start, found) =>
    if offset < start then none
    else
      match found with
      | none => some none
      | some f => if f.start < offset then none else some (some f)

/-- The memory with a result in place of the one for its rule. -/
def note (m : SearchMemory) (rule : RuleRef) (offset : Nat) (found : Option Found) : SearchMemory :=
  { m with results := (rule, offset, found) :: m.results.filter fun entry => entry.1 != rule }

end SearchMemory

namespace Searching

/-- Every search is done anew. -/
def anew : Searching Unit where
  enter _ _ := ()
  leave _ _ := ()
  noteFirstLine _ _ := ()
  find _ pattern line place firstLine _ := (pattern.findFrom? line place firstLine, ())
  candidates t rule _ := (t.candidates rule, ())
  endPattern text _ := (.ofEndText text, ())

/-- The results of earlier searches are used again, except for patterns that ask where the search
began. They are forgotten when the line turns out not to be the first one any more. -/
def remembering : Searching SearchMemory where
  enter firstLine _ := ⟨firstLine, []⟩
  leave before _ := before
  noteFirstLine firstLine memory :=
    if memory.firstLine = firstLine then memory else ⟨firstLine, []⟩
  find rule pattern line place firstLine memory :=
    if pattern.asksSearchStart then (pattern.findFrom? line place firstLine, memory)
    else
      match memory.known? rule (line.offset place) with
      | some found => (found, memory)
      | none =>
        let found := pattern.findFrom? line place firstLine
        (found, memory.note rule (line.offset place) found)
  candidates t rule memory := (t.candidates rule, memory)
  endPattern text memory := (.ofEndText text, memory)

/-- The pattern of a region, with captured text filled in if there was any to fill in. -/
def filledPattern {σ : Type} (searching : Searching σ) (declared : Pattern)
    (filled : Option (List Char)) (memory : σ) : Pattern × σ :=
  match filled with
  | some text => searching.endPattern text memory
  | none => (declared, memory)

end Searching

/-! ## What is kept from line to line -/

/-- What a tokenizer has worked out so far: the candidates inside of rules, and the patterns that
texts stand for as the end of a region. -/
structure Tables where
  candidates : List (RuleRef × List RuleRef)
  endPatterns : List (List Char × Pattern)

namespace Tables

/-- Nothing worked out yet. -/
def empty : Tables := ⟨[], []⟩

/-- How many patterns are kept before starting over. The texts come from documents, so there is no
end to them. -/
def capacity : Nat := 1024

/-- The candidates inside of a rule, taken from the table or added to it. -/
def candidatesIn (t : Tokenizer) (rule : RuleRef) (tables : Tables) : List RuleRef × Tables :=
  match tables.candidates.lookup rule with
  | some known => (known, tables)
  | none =>
    let rules := t.candidates rule
    (rules, { tables with candidates := (rule, rules) :: tables.candidates })

/-- The pattern that a text stands for as the end of a region, taken from the table or added to it. A
full table is emptied first. -/
def endPatternFor (text : List Char) (tables : Tables) : Pattern × Tables :=
  match tables.endPatterns.lookup text with
  | some known => (known, tables)
  | none =>
    let pattern := Pattern.ofEndText text
    let kept := if capacity ≤ tables.endPatterns.length then [] else tables.endPatterns
    (pattern, { tables with endPatterns := (text, pattern) :: kept })

end Tables

/-- Searching that takes the candidates and the patterns of regions from tables. The tables outlast
the text, unlike what is known about searches in it. -/
def Searching.keeping {σ : Type} (searching : Searching σ) : Searching (σ × Tables) where
  enter firstLine memory := (searching.enter firstLine memory.1, memory.2)
  leave before memory := (searching.leave before.1 memory.1, memory.2)
  noteFirstLine firstLine memory := (searching.noteFirstLine firstLine memory.1, memory.2)
  find rule pattern line place firstLine memory :=
    let result := searching.find rule pattern line place firstLine memory.1
    (result.1, result.2, memory.2)
  candidates t rule memory :=
    let result := memory.2.candidatesIn t rule
    (result.1, memory.1, result.2)
  endPattern text memory :=
    let result := memory.2.endPatternFor text
    (result.1, memory.1, result.2)

/-- Where a match comes from. -/
inductive Choice where
  /-- The pattern that ends the innermost region. -/
  | close
  | rule (r : RuleRef)
deriving DecidableEq

namespace Tokenizer

/-- The pattern by which a rule is found on a line. -/
def entryPattern? (rule : Rule) : Option Pattern :=
  match rule.kind with
  | .single m => some m.pattern
  | .region r => some r.opening
  | .guarded w => some w.opening
  | _ => none

/-- The rule of a frame whose region a pattern ends. -/
def closing? (t : Tokenizer) (f : Frame) : Option EndRule :=
  match (t.rule? f.rule).map Rule.kind with
  | some (.region r) => some r
  | _ => none

/-- Searches for the candidates in their order, given the best match so far. A match at the place
itself cannot be beaten by one declared later. -/
def bestOf {σ : Type} (t : Tokenizer) (searching : Searching σ) (line : IndexedText) (place : Nat)
    (firstLine : Bool) :
    List RuleRef → Option (Choice × Found) → σ → Option (Choice × Found) × σ
  | [], best, memory => (best, memory)
  | ref :: rest, best, memory =>
    match (t.rule? ref).bind entryPattern? with
    | none => bestOf t searching line place firstLine rest best memory
    | some pattern =>
      match searching.find ref pattern line place firstLine memory with
      | (none, memory) => bestOf t searching line place firstLine rest best memory
      | (some found, memory) =>
        if best.any fun (_, b) => b.start ≤ found.start then
          bestOf t searching line place firstLine rest best memory
        else if found.start = line.offset place then (some (.rule ref, found), memory)
        else bestOf t searching line place firstLine rest (some (.rule ref, found)) memory

/-- The match that wins from a place on, inside of the innermost region of a stack. -/
def next? {σ : Type} (t : Tokenizer) (searching : Searching σ) (stack : Stack) (line : IndexedText)
    (place : Nat) (firstLine : Bool) (memory : σ) : Option (Choice × Found) × σ :=
  match searching.candidates t stack.top.rule memory with
  | (candidates, memory) =>
    match t.closing? stack.top with
    | none => t.bestOf searching line place firstLine candidates none memory
    | some r =>
      match searching.filledPattern r.closing stack.top.endPattern memory with
      | (pattern, memory) =>
        if r.closingLast then
          match t.bestOf searching line place firstLine candidates none memory with
          | (best, memory) =>
            match pattern.findFrom? line place firstLine with
            | none => (best, memory)
            | some found =>
              -- a rule that begins at the same place goes before the end
              if best.all fun (_, b) => found.start < b.start then (some (.close, found), memory)
              else (best, memory)
        else
          match pattern.findFrom? line place firstLine with
          | none => t.bestOf searching line place firstLine candidates none memory
          | some found =>
            -- nothing begins before the place of the search
            if found.start = line.offset place then (some (.close, found), memory)
            else t.bestOf searching line place firstLine candidates (some (.close, found)) memory

end Tokenizer

end Highlight
