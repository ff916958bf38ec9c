import Highlight.Grammar.Linking
import Highlight.Registry.Tree

/-!
# The registry

All grammars that can include each other, each at a dotted path. Placing or removing a grammar links
it and every grammar that includes something from its path, so that links are always current.

A registry is a value: whoever keeps one is not affected by later changes.

- `Registry`: the grammars at their paths.
- `Registry.register`, `Registry.unregister?`, `Registry.relinkAll`: changing it.
- `Registry.find?`, `Registry.grammars`, `Registry.isAbstract`, `Registry.findByFileType?`: asking.
-/

namespace Highlight

variable [Engine]

/-- The grammars at their paths. -/
structure Registry where
  tree : Tree LinkedGrammar

namespace Registry

/-- The registry without grammars. -/
def empty : Registry := ⟨.empty⟩

/-- The grammar at a path. -/
def find? (r : Registry) (path : String) : Option LinkedGrammar := r.tree.get? (segments path)

/-- Whether a path exists only for the sake of paths below it. -/
def isAbstract (r : Registry) (path : String) : Bool :=
  match r.tree.node? (segments path) with
  | some node => node.value.isNone
  | none => false

/-- The grammars with their paths, in the order of the paths. -/
def grammars (r : Registry) : List (String × LinkedGrammar) := r.tree.toList

/-- The rule that a reference to a rule names. Numbers of rules in references have 32 bits, so rules
with greater numbers are named by none. -/
def rule? (r : Registry) (ref : RuleRef) : Option Rule :=
  if ref.rule < UInt32.size then (r.find? ref.grammar).bind fun g => g.grammar.rule? ref.rule
  else none

/-- A rule that a reference names has a number of 32 bits. -/
theorem lt_of_rule? {r : Registry} {ref : RuleRef} {rule : Rule} (h : r.rule? ref = some rule) :
    ref.rule < UInt32.size := by
  unfold rule? at h
  split at h
  · rename_i hlt
    exact hlt
  · cases h

/-- The paths of the grammars that include something from a path. -/
def dependents (r : Registry) (path : String) : List String :=
  (r.grammars.filter fun (_, g) => g.grammar.externalScopes.contains path).map (·.1)

/-- The grammar at a path as it was loaded, which is what linking looks at. -/
def loaded? (r : Registry) (path : String) : Option Grammar :=
  (r.find? path).map LinkedGrammar.grammar

/-- Links the grammar at a path again. It is not among the grammars while it is linked. -/
def relink (r : Registry) (path : String) : Registry :=
  match r.find? path with
  | some g =>
    let rest : Registry := ⟨r.tree.clear (segments path)⟩
    ⟨rest.tree.insert (g.grammar.link path rest.loaded?) (segments path)⟩
  | none => r

/-- Links the grammars at several paths again, one after the other. -/
def relinkList (r : Registry) (paths : List String) : Registry := paths.foldl relink r

/-- Accepts the paths at which a grammar can be placed: scopes without placeholders. -/
def checkPath (path : String) : Except Error Unit :=
  match Scope.ofText path with
  | .error refused => .error (.invalidScopeName refused)
  | .ok scope =>
    if scope.hasCaptures then .error (.invalidScopeName ⟨path, .placeholderInPath⟩) else .ok ()

/-- Places a grammar at a path, in place of the one that may have been there. -/
def register (r : Registry) (g : Grammar) (path : String) : Except Error Registry := do
  checkPath path
  let placed : Registry := ⟨r.tree.insert g.unlinked (segments path)⟩
  -- the grammar itself comes first, also when it names its own path
  return placed.relinkList (path :: (placed.dependents path).filter (· != path))

/-- Places a grammar at the path that its scope names. -/
def registerByScope (r : Registry) (g : Grammar) : Except Error Registry :=
  r.register g g.scopeName.text

/-- Removes the grammar at a path, and answers with it; none if there is no grammar. -/
def unregister? (r : Registry) (path : String) : Option (LinkedGrammar × Registry) :=
  match r.find? path, r.tree.remove? (segments path) with
  | some g, some tree =>
    let rest : Registry := ⟨tree⟩
    some (g, rest.relinkList (rest.dependents path))
  | _, _ => none

/-- Links all grammars again. -/
def relinkAll (r : Registry) : Registry := r.relinkList (r.grammars.map (·.1))

/-- A file type without the dot in front of it. -/
def plainFileType (fileType : String) : List Char :=
  match fileType.toList with
  | '.' :: rest => rest
  | cs => cs

/-- The first grammar, in the order of the paths, that is for a file type. -/
def findByFileType? (r : Registry) (fileType : String) : Option (String × LinkedGrammar) :=
  r.grammars.find? fun (_, g) =>
    g.grammar.fileTypes.any fun t => plainFileType t == plainFileType fileType

end Registry

end Highlight
