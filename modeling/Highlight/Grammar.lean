import Highlight.Error
import Highlight.Grammar.Loading
import Highlight.Json.Reader

/-!
# Grammars

A grammar is what loading makes of a definition: numbered rules, of which the first is the grammar
as a whole, and diagnostics. Its includes are names until it is linked.

- `Visit`, `visitsFrom`, `visitsOf`: the walk through the rules, each before the rules that it owns.
- `Grammar`: a loaded grammar, with the visits of all its rules.
- `Grammar.ofDefinition`, `Grammar.ofJsonText`: loading.
- `Grammar.entry?`: an entry of a repository as other grammars see it.
- `Grammar.scopeNames`: the scopes that the grammar's rules list.
-/

namespace Highlight

variable [Engine]

/-- A rule as it is met on a walk through a grammar: its owner, and its key if the owner has it in
its repository. -/
structure Visit where
  rule : RuleId
  owner : Option RuleId
  key : Option String
deriving DecidableEq

/-- The walk through a rule and the rules below it, at most the given number of levels deep: each
rule before the rules that it owns. -/
def visitsFrom (rules : Array Rule) : Nat → Visit → List Visit
  | 0, _ => []
  | levels + 1, visit =>
    match rules[visit.rule]? with
    | none => []
    | some rule =>
      visit :: rule.children.flatMap fun (id, key) =>
        visitsFrom rules levels ⟨id, some visit.rule, key⟩

/-- The walk through all rules that can be reached from the first. The numbers of the rules increase
on each way down, so no way is longer than the number of rules. -/
def visitsOf (rules : Array Rule) : List Visit :=
  visitsFrom rules rules.size ⟨rootRule, none, none⟩

/-- A loaded grammar. -/
structure Grammar where
  name : Option String
  scopeName : Scope
  fileTypes : List String
  firstLineMatch : Option String
  foldingStartMarker : Option String
  foldingStopMarker : Option String
  uuid : Option String
  /-- The rules by number. -/
  rules : Array Rule
  /-- The walk through the rules. -/
  visits : List Visit
  visits_eq : visits = visitsOf rules
  /-- What was found wrong while loading. -/
  diagnostics : List Diagnostic

namespace Grammar

/-- Loads the rules of a grammar below its first rule, which has the grammar's scope as its name. -/
def loadRoot (d : GrammarDefinition) (scope : Scope) : Loading Unit := do
  let id ← Loading.reserve ""
  let rules ← loadPatterns d.patterns "" 0
  let entries ← loadRepository d.repository ""
  Loading.fill ⟨id, "", none, some (.ofScope scope), entries, false, .group ⟨rules, none⟩⟩

/-- The grammar for a definition whose scope has been read. -/
def ofScoped (d : GrammarDefinition) (scope : Scope) : Grammar :=
  let arena := (loadRoot d scope Arena.empty).2
  ⟨d.name, scope, d.fileTypes, d.firstLineMatch, d.foldingStartMarker, d.foldingStopMarker, d.uuid,
    arena.rules, visitsOf arena.rules, rfl, arena.diagnostics.toList⟩

/-- Loads a definition. It needs a scope, and the scope must have no placeholders. -/
def ofDefinition (d : GrammarDefinition) : Except Error Grammar :=
  match d.scopeName with
  | none => .error .missingScopeName
  | some value =>
    match Scope.ofText (String.ofList (Text.trim value.toList)) with
    | .error refused => .error (.invalidScopeName refused)
    | .ok scope =>
      if scope.hasCaptures then
        .error (.invalidScopeName ⟨value, .placeholderInGrammarScope⟩)
      else .ok (ofScoped d scope)

/-- Loads a definition in JSON. -/
def ofJson (j : Json) : Except Error Grammar :=
  match GrammarDefinition.ofJson? j with
  | some d => ofDefinition d
  | none => .error .unreadableJson

/-- Loads a definition from a text in JSON. -/
def ofJsonText (s : String) : Except Error Grammar :=
  match Json.ofText? s with
  | some j => ofJson j
  | none => .error .unreadableJson

/-- The rule with a number. -/
def rule? (g : Grammar) (id : RuleId) : Option Rule := g.rules[id]?

/-- The numbers of the rules in the order of the walk. -/
def ruleOrder (g : Grammar) : List RuleId := g.visits.map Visit.rule

/-- The visit of a rule. -/
def visit? (g : Grammar) (id : RuleId) : Option Visit := g.visits.find? fun v => v.rule == id

/-- The position of a rule on the walk. -/
def index? (g : Grammar) (id : RuleId) : Option Nat := g.visits.findIdx? fun v => v.rule == id

/-- The owner of a rule. -/
def owner? (g : Grammar) (id : RuleId) : Option RuleId := (g.visit? id).bind Visit.owner

/-- The repository entries met on the walk, the first of each key, in the order of the keys. -/
def repositoryIndex (g : Grammar) : Entries RuleId :=
  g.visits.foldl (fun entries v =>
    match v.key with
    | some key => if (Entries.get? key entries).isSome then entries else entries.put key v.rule
    | none => entries) []

/-- The first rule met on the walk that stands in a repository under a key. -/
def anywhere? (g : Grammar) (key : String) : Option RuleId :=
  (g.visits.find? fun v => v.key == some key).map Visit.rule

/-- The repository of a rule. -/
def repositoryOf (g : Grammar) (id : RuleId) : List (String × RuleId) :=
  match g.rule? id with
  | some rule => rule.repository
  | none => []

/-- An entry of the grammar's repositories as other grammars see it: one of the first rule's, or
else the first of that key on the walk. -/
def entry? (g : Grammar) (key : String) : Option RuleId :=
  match Entries.get? key (g.repositoryOf rootRule) with
  | some id => some id
  | none => g.anywhere? key

/-- The scopes of the other grammars that rules include, in the order of the rules. -/
def externalScopes (g : Grammar) : List String :=
  g.rules.toList.filterMap fun rule =>
    match rule.kind with
    | .link reference => reference.externalScope?
    | _ => none

/-- The scopes that the rules on the walk list, each once, where it is first met. -/
def scopeNames (g : Grammar) : List Scope :=
  let listed := g.visits.flatMap fun v =>
    match g.rule? v.rule with
    | some rule => rule.listedScopes
    | none => []
  (listed.foldl (fun seen scope => if scope ∈ seen then seen else scope :: seen) []).reverse

end Grammar

end Highlight
