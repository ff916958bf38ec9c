import Highlight.Error
import Highlight.Grammar.Definition
import Highlight.Grammar.Rule

/-!
# Loading rules

Definitions become numbered rules. A rule takes its number before the rules in it do, so numbers
increase from owner to owned. A definition that is no rule takes no number and leaves a diagnostic,
and so do a name that is no scope name, a text that is no pattern, and a capture key that is no
number of a group.

- `Shape`, `classify`: which kind of rule a definition is.
- `Arena`: the rules loaded so far and the diagnostics.
- `loadRule`, `loadPatterns`, `loadRepository`, `loadCaptures`: the loader. Captures given for both
  ends of a region together are loaded once for each end.
- `loadPatternList`, `loadEntries`, `loadCaptureMap`: the parts of a rule that can be missing.
-/

namespace Highlight

variable [Engine]

/-- The kinds of rules that a definition can be. -/
inductive Shape where
  | group
  | single
  | region
  | guarded
  | link (reference : Reference)
deriving DecidableEq

/-- Which kind of rule a definition is, given its keys and whether it has a pattern list. -/
def classify (keys : RuleKeys) (hasPatterns : Bool) : Except DiagnosticKind Shape :=
  let defining :=
    (if keys.matchText.isSome then ["match"] else [])
      ++ (if keys.beginText.isSome then ["begin"] else [])
      ++ (if keys.includeText.isSome then ["include"] else [])
  let hasEnd := keys.endText.isSome
  let hasWhile := keys.whileText.isSome
  if 1 < defining.length then .error (.ambiguousShape defining)
  else if keys.matchText.isSome then
    if hasEnd then .error (.ambiguousShape ["match", "end"])
    else if hasWhile then .error (.ambiguousShape ["match", "while"])
    else .ok .single
  else if keys.beginText.isSome then
    if hasEnd && hasWhile then .error (.ambiguousShape ["end", "while"])
    else if hasEnd then .ok .region
    else if hasWhile then .ok .guarded
    else .error .emptyRule
  else
    match keys.includeText with
    | some value =>
      if hasPatterns then .error (.ambiguousShape ["include", "patterns"])
      else
        match Reference.read? value with
        | some reference => .ok (.link reference)
        | none => .error (.invalidReference value)
    | none => if hasPatterns && !hasEnd && !hasWhile then .ok .group else .error .emptyRule

/-- The rules loaded so far, by number, and what was found wrong. -/
structure Arena where
  rules : Array Rule
  diagnostics : Array Diagnostic

/-- A step of the loader. -/
abbrev Loading := StateM Arena

namespace Arena

/-- Nothing loaded yet. -/
def empty : Arena := ⟨#[], #[]⟩

/-- A rule of which only the number and the place are known. -/
def blank (id : RuleId) (location : String) : Rule :=
  ⟨id, location, none, none, [], false, .group ⟨[], none⟩⟩

end Arena

namespace Loading

/-- Takes the next number for the rule at a place. -/
def reserve (location : String) : Loading RuleId := fun a =>
  (a.rules.size, { a with rules := a.rules.push (Arena.blank a.rules.size location) })

/-- Notes what is wrong at a place. -/
def note (location : String) (kind : DiagnosticKind) : Loading Unit := fun a =>
  ((), { a with diagnostics := a.diagnostics.push ⟨location, kind⟩ })

/-- Puts a rule at its number. -/
def fill (rule : Rule) : Loading Unit := fun a =>
  ((), { a with rules := a.rules.setIfInBounds rule.id rule })

/-- Reads a scope name. -/
def scopeName (value : Option String) (location : String) : Loading (Option ScopeName) :=
  match value with
  | none => pure none
  | some s =>
    match ScopeName.ofText s with
    | .ok name => pure (some name)
    | .error refused => do
      note location (.invalidScopeName refused)
      return none

/-- Reads the pattern of a rule, and says whether it can be used. -/
def pattern (value : Option String) (location : String) : Loading (Pattern × Bool) := do
  let text := value.getD ""
  let pattern := Pattern.ofText text.toList
  match pattern.fault? with
  | none => return (pattern, true)
  | some fault =>
    note location (.brokenPattern text fault)
    return (pattern, false)

/-- Reads the pattern that ends a region or keeps it going, and says whether it can be used. One
with back-references shows its faults only when they have been filled in. -/
def endPattern (value : Option String) (location : String) : Loading (Pattern × Bool) := do
  let text := value.getD ""
  let pattern := Pattern.ofEndText text.toList
  if pattern.hasBackReferences then return (pattern, true)
  else
    match pattern.fault? with
    | none => return (pattern, true)
    | some fault =>
      note location (.brokenPattern text fault)
      return (pattern, false)

end Loading

/-- The largest number of a group that a capture map can name. -/
def maxCaptureGroup : Nat := 1024

/-- The number of the group that a key of a capture map names. -/
def captureGroup? (key : String) : Option Nat :=
  match Text.count? key.toList with
  | some n => if n ≤ maxCaptureGroup then some n else none
  | none => none

open Loading in
mutual

/-- Loads a rule and the rules in it; none if the definition is no rule. Captures are given for one
end of a region, or else for both ends together. -/
def loadRule : RuleDefinition → String → Loading (Option RuleId)
  | ⟨keys, captures, beginCaptures, endCaptures, whileCaptures, patterns, repository⟩, location => do
    match classify keys patterns.isSome with
    | .error kind =>
      note location kind
      return none
    | .ok shape =>
      let id ← reserve location
      let name ← scopeName keys.name location
      let entries ← loadEntries repository location
      -- what else is loaded, and in which order, depends on the shape
      let body : Loading (RuleKind × Bool) :=
        match shape with
        | .link reference => pure (.link reference, true)
        | .group => do
          let rules ← loadPatternList patterns location
          return (.group ⟨rules, none⟩, true)
        | .single => do
          let (pattern, usable) ← pattern keys.matchText location
          let captures ← loadCaptureMap captures (location ++ ".captures")
          return (.single ⟨pattern, captures⟩, usable)
        | .region => do
          let (opening, openingUsable) ← pattern keys.beginText location
          let (closing, closingUsable) ← endPattern keys.endText location
          let openingCaptures ← (if beginCaptures.isSome
            then loadCaptureMap beginCaptures (location ++ ".beginCaptures")
            else loadCaptureMap captures (location ++ ".captures"))
          let closingCaptures ← (if endCaptures.isSome
            then loadCaptureMap endCaptures (location ++ ".endCaptures")
            else loadCaptureMap captures (location ++ ".captures"))
          let contentName ← scopeName keys.contentName location
          let rules ← loadPatternList patterns location
          return (.region ⟨opening, openingCaptures, closing, closingCaptures, contentName,
            keys.endLast, rules⟩, openingUsable && closingUsable)
        | .guarded => do
          let (opening, openingUsable) ← pattern keys.beginText location
          let (condition, conditionUsable) ← endPattern keys.whileText location
          let openingCaptures ← (if beginCaptures.isSome
            then loadCaptureMap beginCaptures (location ++ ".beginCaptures")
            else loadCaptureMap captures (location ++ ".captures"))
          let conditionCaptures ← (if whileCaptures.isSome
            then loadCaptureMap whileCaptures (location ++ ".whileCaptures")
            else loadCaptureMap captures (location ++ ".captures"))
          let contentName ← scopeName keys.contentName location
          let rules ← loadPatternList patterns location
          return (.guarded ⟨opening, openingCaptures, condition, conditionCaptures, contentName,
            rules⟩, openingUsable && conditionUsable)
      let (kind, usable) ← body
      fill ⟨id, location, keys.comment, name, entries, keys.disabled || !usable, kind⟩
      return some id
termination_by structural definition => definition

/-- Loads the rule for a capture group. Only its names, pattern list and repository count. -/
def loadCaptureRule : RuleDefinition → String → Loading RuleId
  | ⟨keys, _, _, _, _, patterns, repository⟩, location => do
    let id ← reserve location
    let name ← scopeName keys.name location
    let contentName ← scopeName keys.contentName location
    let rules ← loadPatternList patterns location
    let entries ← loadEntries repository location
    -- it cannot be disabled
    fill ⟨id, location, keys.comment, name, entries, false, .group ⟨rules, contentName⟩⟩
    return id
termination_by structural definition => definition

/-- Loads the pattern list of a rule, which can be missing. -/
def loadPatternList : Option (List RuleDefinition) → String → Loading (List RuleId)
  | none, _ => pure []
  | some rules, location => loadPatterns rules (location ++ ".") 0
termination_by structural definitions => definitions

/-- Loads the repository of a rule, which can be missing. -/
def loadEntries : Option (List (String × RuleDefinition)) → String →
    Loading (List (String × RuleId))
  | none, _ => pure []
  | some entries, location => loadRepository entries (location ++ ".")
termination_by structural definitions => definitions

/-- Loads a capture map, which can be missing. -/
def loadCaptureMap : Option (List (String × RuleDefinition)) → String → Loading CaptureRules
  | none, _ => pure []
  | some entries, location => loadCaptures entries location []
termination_by structural definitions => definitions

/-- Loads the rules of a pattern list from the item with the given number on. -/
def loadPatterns : List RuleDefinition → String → Nat → Loading (List RuleId)
  | [], _, _ => pure []
  | rule :: rest, location, number => do
    let id ← loadRule rule (location ++ "patterns[" ++ toString number ++ "]")
    let ids ← loadPatterns rest location (number + 1)
    return id.toList ++ ids
termination_by structural definitions => definitions

/-- Loads the rules of a repository. -/
def loadRepository : List (String × RuleDefinition) → String → Loading (List (String × RuleId))
  | [], _ => pure []
  | (key, rule) :: rest, location => do
    let id ← loadRule rule (location ++ "repository." ++ key)
    let ids ← loadRepository rest location
    match id with
    | some id => return (key, id) :: ids
    | none => return ids
termination_by structural definitions => definitions

/-- Loads the rules of a capture map, after those of the entries before. -/
def loadCaptures : List (String × RuleDefinition) → String → CaptureRules → Loading CaptureRules
  | [], _, rules => pure rules
  | (key, rule) :: rest, location, rules => do
    match captureGroup? key with
    | none =>
      note location (.invalidCaptureKey key)
      loadCaptures rest location rules
    | some group =>
      let id ← loadCaptureRule rule (location ++ "." ++ key)
      loadCaptures rest location (rules.put group id)
termination_by structural definitions => definitions

end

end Highlight
