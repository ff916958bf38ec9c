import Highlight.Pattern.Node
import Highlight.Text.Decimal

/-!
# Callouts

A pattern can call out, by a name such as in `(*FAIL)` or with contents of its own such as in
`(?{…})`. Nobody listens to callouts with contents, so they match like an empty pattern. Of those with
a name some do not match, and the others only count.

- `readCalloutTag`: the tag of a callout.
- `readContents`: a callout with contents.
- `readCallout`: a callout with a name.
-/

namespace Highlight

namespace Pattern

/-- A callout that is known by its name: the numbers of arguments that it can have, and what it
matches. -/
structure Callout where
  name : String
  leastArguments : Nat
  mostArguments : Nat
  node : Node

/-- The callouts that are known. -/
def callouts : List Callout :=
  [⟨"FAIL", 0, 0, .never⟩, ⟨"MISMATCH", 0, 0, .never⟩, ⟨"MAX", 1, 2, .pass⟩,
    ⟨"ERROR", 0, 1, .never⟩, ⟨"COUNT", 0, 1, .pass⟩, ⟨"TOTAL_COUNT", 0, 1, .pass⟩,
    ⟨"CMP", 3, 3, .pass⟩]

/-- Whether a character can stand in the name of a callout. -/
def isCalloutChar (c : Char) : Bool := c.isAlphanum || c == '_'

/-- Whether a text is the name of a callout or of a tag. -/
def isCalloutName (name : List Char) : Bool :=
  match name with
  | [] => false
  | c :: rest => isCalloutChar c && !c.isDigit && rest.all isCalloutChar

/-- Reads a tag after its opening bracket and the character behind it. -/
def readCalloutTag (cs : List Char) : Except PatternFault (Char × List Char) :=
  let tag := cs.takeWhile (· != ']')
  match cs.drop tag.length with
  | [] => if cs.isEmpty then .error .endInGroup else .error .invalidCalloutTag
  | _ :: rest =>
    if !isCalloutName tag then .error .invalidCalloutTag
    else
      match rest with
      | [] => .error .endInGroup
      | c :: rest => .ok (c, rest)

/-- The text behind as many closing braces in a row as there were opening ones; none if there are
not so many anywhere. -/
def afterContents? (count : Nat) : Nat → List Char → Option (List Char)
  | _, [] => none
  | open?, c :: cs =>
    if c = '\x7d' then
      match open? with
      | 0 => some cs
      | left + 1 => afterContents? count left cs
    else afterContents? count count cs

/-- Reads a callout with contents after its opening brace. -/
def readContents (cs : List Char) : Except PatternFault (Node × List Char) := do
  let braces := cs.takeWhile (· == '\x7b')
  let body := cs.drop braces.length
  if !braces.isEmpty && body.isEmpty then throw .invalidCallout
  match afterContents? braces.length braces.length body with
  | none => throw .invalidCallout
  | some [] => throw .endInGroup
  | some (c :: rest) => do
    let (c, rest) ← if c = '[' then readCalloutTag rest else pure (c, rest)
    let (c, rest) ←
      if c = 'X' || c = '<' || c = '>' then
        match rest with
        | [] => throw .endInGroup
        | d :: rest => pure (d, rest)
      else pure (c, rest)
    if c = ')' then return (.pass, rest) else throw .invalidCallout

/-- The number of arguments between braces. -/
def countArguments (cs : List Char) : Nat := (cs.filter (· == ',')).length + 1

/-- Reads a callout with a name, after the asterisk. -/
def readCallout (cs : List Char) : Except PatternFault (Node × List Char) := do
  let name := cs.takeWhile fun c => !(c == ')' || c == '[' || c == '\x7b')
  match cs.drop name.length with
  | [] => throw .invalidCallout
  | c :: rest => do
    if !isCalloutName name then throw .invalidCalloutName
    let (c, rest) ← if c = '[' then readCalloutTag rest else pure (c, rest)
    let arguments := rest.takeWhile (· != '\x7d')
    let (count, c, rest) ←
      if c = '\x7b' then
        if rest.isEmpty then throw .endInGroup
        else
          match rest.drop arguments.length with
          | [] => throw .invalidCallout
          | _ :: rest =>
            let count := countArguments arguments
            match rest with
            | [] => pure (count, '\x7d', [])
            | c :: rest => pure (count, c, rest)
      else pure (0, c, rest)
    match callouts.find? fun callout => callout.name.toList == name with
    | none => throw .unknownCallout
    | some callout => do
      if c = '\x7d' && rest.isEmpty then throw .endInGroup
      if count < callout.leastArguments || callout.mostArguments < count then
        throw .invalidCalloutArgument
      if c = ')' then return (callout.node, rest) else throw .invalidCallout

end Pattern

end Highlight
