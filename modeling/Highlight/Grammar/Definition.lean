import Highlight.Entries
import Highlight.Json.Record

/-!
# Grammar definitions

A grammar as it is written down: rules with all the keys that a rule can have, whether or not they
go together. Which kind of rule a definition is gets decided when it is loaded.

- `RuleKeys`, `RuleDefinition`, `GrammarDefinition`: the written form. Captures and repositories are
  maps, held in the order of their keys. Keys that are not given have no value.
- `RuleDefinition.ofJson?`, `GrammarDefinition.ofJson?`: reads a definition from JSON. Unknown keys
  are skipped, and a known key with a value of the wrong form makes the whole definition invalid.
-/

namespace Highlight

/-- The keys of a rule whose values are no rules. -/
structure RuleKeys where
  comment : Option String := none
  /-- The scopes of the match or of the whole region. -/
  name : Option String := none
  /-- The scopes of what lies between the two ends of a region. -/
  contentName : Option String := none
  matchText : Option String := none
  beginText : Option String := none
  endText : Option String := none
  whileText : Option String := none
  includeText : Option String := none
  /-- Whether the end of a region is tried after the patterns in it. -/
  endLast : Bool := false
  disabled : Bool := false
deriving DecidableEq

/-- A rule as it is written down. -/
structure RuleDefinition where
  keys : RuleKeys := {}
  /-- The rules for capture groups, by the number of the group as it was written. -/
  captures : Option (List (String × RuleDefinition)) := none
  beginCaptures : Option (List (String × RuleDefinition)) := none
  endCaptures : Option (List (String × RuleDefinition)) := none
  whileCaptures : Option (List (String × RuleDefinition)) := none
  patterns : Option (List RuleDefinition) := none
  repository : Option (List (String × RuleDefinition)) := none

/-- A grammar as it is written down. -/
structure GrammarDefinition where
  name : Option String := none
  scopeName : Option String := none
  fileTypes : List String := []
  patterns : List RuleDefinition := []
  repository : List (String × RuleDefinition) := []
  firstLineMatch : Option String := none
  foldingStartMarker : Option String := none
  foldingStopMarker : Option String := none
  uuid : Option String := none

/-- The truth value of a flag, which can also be a number of 64 bits that is not zero. -/
def flag? : Json → Option Bool
  | .bool b => some b
  | .int n => if Int64.minValue.toInt ≤ n && n ≤ Int64.maxValue.toInt then some (n != 0) else none
  | _ => none

/-- Reads a list with what is left of the nesting budget behind its bracket. -/
def list? {α : Type} (read : Json → Option α) (budget : Nat) (j : Json) : Option (List α) :=
  match j with
  | .array items => if budget = 0 then none else items.mapM read
  | _ => none

/-- Reads a map with what is left of the nesting budget behind its bracket. -/
def entries? {α : Type} (read : Json → Option α) (budget : Nat) (j : Json) : Option (Entries α) :=
  match j with
  | .object fields =>
    if budget = 0 then none
    else do
      let pairs ← fields.mapM fun (key, value) => do return (← key, ← read value)
      return Entries.ofList pairs
  | _ => none

namespace RuleDefinition

/-- The keys that a rule can have, in their order. -/
def keyNames : List String :=
  ["comment", "name", "contentName", "match", "begin", "end", "while", "include", "captures",
    "beginCaptures", "endCaptures", "whileCaptures", "patterns", "repository",
    "applyEndPatternLast", "disabled"]

/-- Reads a rule with the given nesting budget. Opening the rule takes one from it, and opening a
list or map of rules in it another one. -/
def ofJson? : Nat → Json → Option RuleDefinition
  | 0, _ => none
  | 1, _ => none
  | budget + 2, j => do
    let fields ← j.record? keyNames
    let text := fun name => Json.optional Json.string? name fields
    let flag := fun name => Json.optional flag? name fields
    let rules := fun name => Json.optional (entries? (ofJson? budget) budget) name fields
    let comment ← text "comment"
    let name ← text "name"
    let contentName ← text "contentName"
    let matchText ← text "match"
    let beginText ← text "begin"
    let endText ← text "end"
    let whileText ← text "while"
    let includeText ← text "include"
    let captures ← rules "captures"
    let beginCaptures ← rules "beginCaptures"
    let endCaptures ← rules "endCaptures"
    let whileCaptures ← rules "whileCaptures"
    let patterns ← Json.optional (list? (ofJson? budget) budget) "patterns" fields
    let repository ← rules "repository"
    let endLast ← flag "applyEndPatternLast"
    let disabled ← flag "disabled"
    return ⟨⟨comment, name, contentName, matchText, beginText, endText, whileText, includeText,
      endLast.getD false, disabled.getD false⟩, captures, beginCaptures, endCaptures,
      whileCaptures, patterns, repository⟩

end RuleDefinition

namespace GrammarDefinition

/-- The keys that a grammar can have, in their order. -/
def keyNames : List String :=
  ["name", "scopeName", "fileTypes", "patterns", "repository", "firstLineMatch",
    "foldingStartMarker", "foldingStopMarker", "uuid"]

/-- Reads a grammar. -/
def ofJson? (j : Json) : Option GrammarDefinition := do
  let budget := Json.nestingBudget - 2
  let fields ← j.record? keyNames
  let text := fun name => Json.optional Json.string? name fields
  let rule := RuleDefinition.ofJson? budget
  let name ← text "name"
  let scopeName ← text "scopeName"
  let fileTypes ← Json.defaulting [] (list? Json.string? budget) "fileTypes" fields
  let patterns ← Json.defaulting [] (list? rule budget) "patterns" fields
  let repository ← Json.defaulting [] (entries? rule budget) "repository" fields
  let firstLineMatch ← text "firstLineMatch"
  let foldingStartMarker ← text "foldingStartMarker"
  let foldingStopMarker ← text "foldingStopMarker"
  let uuid ← text "uuid"
  return ⟨name, scopeName, fileTypes, patterns, repository, firstLineMatch, foldingStartMarker,
    foldingStopMarker, uuid⟩

end GrammarDefinition

end Highlight
