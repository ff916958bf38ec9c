import Highlight.Scope.Parse

/-!
# Include references

An `include` names what takes its place: the grammar that it stands in (`$self`), the grammar that
tokenizing began with (`$base`), an entry of a repository (`#strings`, or `strings`), another
grammar (`source.css`), or an entry of another grammar's repository (`source.css#rules`).

- `Reference`: what an include can name.
- `Reference.read?`: reads a reference; none for a text that is no reference.
- `Reference.text`: the written form, in which a key always follows a number sign.
-/

namespace Highlight

/-- What an include names. -/
inductive Reference where
  /-- The grammar that the include stands in. -/
  | self
  /-- The grammar that tokenizing began with. -/
  | base
  /-- An entry of the repositories around the include. -/
  | entry (key : String)
  /-- Another grammar, or an entry of its repository. -/
  | external (scope : String) (key : Option String)
deriving DecidableEq

namespace Reference

/-- Splits a text at its first number sign. -/
def splitKey? : List Char → Option (List Char × List Char)
  | [] => none
  | c :: cs => if c = '#' then some ([], cs) else (splitKey? cs).map fun (a, b) => (c :: a, b)

/-- The scope that a reference begins with and the key that follows, either of which can be
missing. Without a number sign a dotted text is a scope and any other a key. -/
def halves (cs : List Char) : List Char × Option (List Char) :=
  match splitKey? cs with
  | some (scope, key) => (scope, some key)
  | none => if '.' ∈ cs then (cs, none) else ([], some cs)

/-- Whether a text is a scope without placeholders. -/
def isPlainScope (cs : List Char) : Bool :=
  match Scope.read cs with
  | .ok scope => !scope.hasCaptures
  | .error _ => false

/-- Reads a reference that begins with no dollar sign. -/
def readNamed? (cs : List Char) : Option Reference :=
  if 1 < cs.count '#' then none
  else
    match halves cs with
    | (scope, key) =>
      if key.any (fun k => (Text.trim k).isEmpty) then none
      else if scope.isEmpty then some (.entry (String.ofList (key.getD [])))
      else if isPlainScope scope then
        some (.external (String.ofList scope) (key.map String.ofList))
      else none

/-- Reads a reference. -/
def read? (s : String) : Option Reference :=
  match s.toList with
  | [] => none
  | '$' :: rest =>
    if rest = "self".toList then some .self
    else if rest = "base".toList then some .base
    else none
  | cs => readNamed? cs

/-- The written form of a reference. -/
def text : Reference → String
  | .self => "$self"
  | .base => "$base"
  | .entry key => "#" ++ key
  | .external scope none => scope
  | .external scope (some key) => scope ++ "#" ++ key

/-- The scope of the other grammar that a reference names. -/
def externalScope? : Reference → Option String
  | .external scope _ => some scope
  | _ => none

end Reference

end Highlight
