import Highlight.Grammar

/-!
# Linking grammars

An include is bound to a rule when the grammar is placed among others. An entry's key is looked up
in the repositories around the include, the innermost first, and then in all of the grammar.

- `RuleRef`, `Target`: what an include is bound to. `$base` stays open until a document is read.
- `Grammar.nearest?`: looks a key up in the repositories around a rule.
- `Grammar.bind?`: the rule that a reference names.
- `LinkedGrammar`, `Grammar.link`: a grammar with its includes bound, at a path and among other
  grammars. Linking takes the grammar as loaded, so nothing is left of an earlier link.
-/

namespace Highlight

variable [Engine]

/-- A rule of one of several grammars, which are told apart by their paths. -/
structure RuleRef where
  grammar : String
  rule : RuleId
deriving DecidableEq

/-- What an include is bound to. -/
inductive Target where
  | rule (r : RuleRef)
  /-- The first rule of the grammar that tokenizing began with. -/
  | base
deriving DecidableEq

namespace Grammar

/-- Looks a key up in the repository of a rule and of the rules around it, the innermost first, at
most the given number of levels up. -/
def nearestFrom? (g : Grammar) (key : String) : Nat → Option RuleId → Option RuleId
  | 0, _ => none
  | _, none => none
  | levels + 1, some id =>
    match Entries.get? key (g.repositoryOf id) with
    | some found => some found
    | none => nearestFrom? g key levels (g.owner? id)

/-- The entry that a key names at a rule. -/
def nearest? (g : Grammar) (site : RuleId) (key : String) : Option RuleId :=
  match g.nearestFrom? key g.rules.size (g.owner? site) with
  | some found => some found
  | none => g.anywhere? key

/-- What a reference at a rule names, when the grammar is at a path and `find` answers with the
grammars at other paths. -/
def bind? (g : Grammar) (path : String) (find : String → Option Grammar) (site : RuleId) :
    Reference → Option Target
  | .base => some .base
  | .self => some (.rule ⟨path, rootRule⟩)
  | .entry key => (g.nearest? site key).map fun id => .rule ⟨path, id⟩
  | .external scope key =>
    match if scope = path then some g else find scope with
    | none => none
    | some other =>
      match key with
      | none => some (.rule ⟨scope, rootRule⟩)
      | some key => (other.entry? key).map fun id => .rule ⟨scope, id⟩

/-- What the rule with a number is bound to; none for a rule that is no include or is not met on
the walk. -/
def targetOf (g : Grammar) (path : String) (find : String → Option Grammar) (rule : Rule) :
    Option Target :=
  match rule.kind with
  | .link reference =>
    if (g.visit? rule.id).isSome then g.bind? path find rule.id reference else none
  | _ => none

/-- The diagnostic for the rule with a number, if it is an include that names nothing. -/
def unresolved? (g : Grammar) (path : String) (find : String → Option Grammar) (id : RuleId) :
    Option Diagnostic :=
  match g.rule? id with
  | some rule =>
    match rule.kind with
    | .link reference =>
      match g.bind? path find id reference with
      | some _ => none
      | none => some ⟨rule.location, .unresolvedReference reference.text⟩
    | _ => none
  | none => none

end Grammar

/-- A grammar with its includes bound. -/
structure LinkedGrammar where
  grammar : Grammar
  /-- The path at which the grammar stands. -/
  path : String
  /-- For each rule what it is bound to, if it is a bound include. -/
  targets : Array (Option Target)
  /-- The includes that name nothing. -/
  unresolved : List Diagnostic

namespace Grammar

/-- The grammar before it is linked, at the path that its scope names. -/
def unlinked (g : Grammar) : LinkedGrammar := ⟨g, g.scopeName.text, #[], []⟩

/-- Links the grammar at a path. -/
def link (g : Grammar) (path : String) (find : String → Option Grammar) : LinkedGrammar :=
  ⟨g, path, g.rules.map (g.targetOf path find), g.ruleOrder.filterMap (g.unresolved? path find)⟩

end Grammar

namespace LinkedGrammar

/-- What a rule is bound to. -/
def target? (g : LinkedGrammar) (id : RuleId) : Option Target := (g.targets[id]?).join

/-- What was found wrong while loading and while linking. -/
def diagnostics (g : LinkedGrammar) : List Diagnostic := g.grammar.diagnostics ++ g.unresolved

end LinkedGrammar

end Highlight
