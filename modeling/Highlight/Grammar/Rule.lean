import Highlight.Match
import Highlight.Pattern
import Highlight.Reference
import Highlight.Scope.Resolve

/-!
# Rules

The rules of a grammar refer to each other by number. A rule owns the rules of its pattern list, of
its repository and of its captures; an include only names a rule.

- `CaptureRules`: for each capture group the rule that applies to its text.
- `RuleKind`: groups, matches, regions with an end, regions with a condition, and includes.
- `Rule`: a rule of a grammar.
- `Rule.children`: the rules that a rule owns, in the order in which they are visited.
-/

namespace Highlight

variable [Engine]

/-- The number of a rule in its grammar. Rules are counted without a bound while a grammar is loaded
and linked, which is right for less than 2^32 rules: there a number of 32 bits never comes back to the
first rule. Where rules are looked up for tokenizing (`Registry.rule?`) and in the kept form of a stack
a number has 32 bits, and greater ones name no rule. -/
abbrev RuleId := Nat

/-- The number of the rule that is the whole grammar. -/
def rootRule : RuleId := 0

/-- For each capture group the rule that applies to its text, if there is one. -/
abbrev CaptureRules := List (Option RuleId)

namespace CaptureRules

/-- The rule for a group. -/
def get? (rules : CaptureRules) (group : Nat) : Option RuleId := (rules[group]?).join

/-- The rules with one for a group, in place of the one that it may have had. -/
def put (rules : CaptureRules) (group : Nat) (rule : RuleId) : CaptureRules :=
  (rules ++ List.replicate (group + 1 - rules.length) none).set group (some rule)

end CaptureRules

/-- A list of patterns. The rule for a capture group is one too. -/
structure Group where
  patterns : List RuleId
  /-- The scopes of the content, for the rule of a capture group. -/
  contentName : Option ScopeName

/-- A pattern by itself. -/
structure MatchRule where
  pattern : Pattern
  captures : CaptureRules

/-- A region from one pattern to another. -/
structure EndRule where
  opening : Pattern
  openingCaptures : CaptureRules
  closing : Pattern
  closingCaptures : CaptureRules
  contentName : Option ScopeName
  /-- Whether the closing pattern is tried after the patterns in the region. -/
  closingLast : Bool
  patterns : List RuleId

/-- A region that goes on for as long as lines begin with a pattern. -/
structure WhileRule where
  opening : Pattern
  openingCaptures : CaptureRules
  condition : Pattern
  conditionCaptures : CaptureRules
  contentName : Option ScopeName
  patterns : List RuleId

/-- What a rule does. -/
inductive RuleKind where
  | group (g : Group)
  | single (m : MatchRule)
  | region (r : EndRule)
  | guarded (w : WhileRule)
  | link (reference : Reference)

/-- A rule of a grammar. -/
structure Rule where
  id : RuleId
  /-- Where the rule stands in the definition. -/
  location : String
  comment : Option String
  name : Option ScopeName
  repository : List (String × RuleId)
  /-- Whether the rule is left out when patterns are collected. -/
  disabled : Bool
  kind : RuleKind

namespace RuleKind

/-- The pattern list of a rule. -/
def patterns : RuleKind → List RuleId
  | .group g => g.patterns
  | .single _ => []
  | .region r => r.patterns
  | .guarded w => w.patterns
  | .link _ => []

/-- The scopes of the content of a rule. -/
def contentName : RuleKind → Option ScopeName
  | .group g => g.contentName
  | .single _ => none
  | .region r => r.contentName
  | .guarded w => w.contentName
  | .link _ => none

/-- The rules for capture groups: those of the opening or only pattern, then those of the other. -/
def captureRules : RuleKind → List RuleId
  | .group _ => []
  | .single m => m.captures.filterMap id
  | .region r => r.openingCaptures.filterMap id ++ r.closingCaptures.filterMap id
  | .guarded w => w.openingCaptures.filterMap id ++ w.conditionCaptures.filterMap id
  | .link _ => []

end RuleKind

namespace Rule

/-- The rules that a rule owns, each with its key if it stands in the repository: the pattern list,
the repository, the captures. -/
def children (r : Rule) : List (RuleId × Option String) :=
  r.kind.patterns.map (·, none) ++ r.repository.map (fun (key, id) => (id, some key))
    ++ r.kind.captureRules.map (·, none)

/-- The scopes of an optional name, filled in from a match. -/
def scopesOf (name : Option ScopeName) (text : List Char) (groups : Groups) : List Scope :=
  match name with
  | some n => (n.resolve text groups).scopes
  | none => []

/-- The scopes of a rule's name, filled in from a match. -/
def nameScopes (r : Rule) (text : List Char) (groups : Groups) : List Scope :=
  scopesOf r.name text groups

/-- The scopes of a rule's content, filled in from a match. -/
def contentScopes (r : Rule) (text : List Char) (groups : Groups) : List Scope :=
  scopesOf r.kind.contentName text groups

/-- The scopes that a rule's two names list, as they are written. -/
def listedScopes (r : Rule) : List Scope :=
  (match r.name with
    | some n => n.scopes
    | none => [])
  ++ match r.kind.contentName with
    | some n => n.scopes
    | none => []

end Rule

end Highlight
