import Highlight.Scope.Basic
import Highlight.Text.Pieces

/-!
# Reading scopes

A scope is read part by part between its dots. Placeholders are accepted with and without braces
and with leading zeros, so a scope can have several spellings; `Scope.chars` writes one of them.

- `ScopeFault`: why a text is no scope name, and the wording of each cause.
- `Part.read`, `Scope.read`, `ScopeName.read`: the readers. A scope name's words are separated by
  any blanks, and the first word that is no scope decides the error.
-/

namespace Highlight

/-- Why a text is refused as a scope name, or a scope as the name of a grammar or of a place in the
registry. -/
inductive ScopeFault where
  | empty
  | emptyPart
  | notPlaceholder (part : List Char)
  | indexTooLarge (part : List Char)
  | unexpectedCharacter (char : Char) (part : List Char)
  | placeholderInGrammarScope
  | placeholderInPath
deriving DecidableEq

/-- The wording of a cause. -/
def ScopeFault.message : ScopeFault → String
  | .empty => "scope name is empty"
  | .emptyPart => "empty part"
  | .notPlaceholder part => "'" ++ String.ofList part ++ "' is not a capture placeholder"
  | .indexTooLarge part => "capture index in '" ++ String.ofList part ++ "' is too large"
  | .unexpectedCharacter c part =>
    "unexpected character '" ++ String.ofList [c] ++ "' in '" ++ String.ofList part ++ "'"
  | .placeholderInGrammarScope => "grammar scope names can't contain capture placeholders"
  | .placeholderInPath => "registry paths can't contain capture placeholders"

/-- A text that was refused as a scope name, with the cause. -/
structure InvalidScopeName where
  value : String
  fault : ScopeFault
deriving DecidableEq

/-- The wording of the refusal. -/
def InvalidScopeName.message (e : InvalidScopeName) : String :=
  "invalid scope name '" ++ e.value ++ "': " ++ e.fault.message

namespace Part

/-- What is between the braces of a text in braces; any other text as it is. -/
def withoutBraces (cs : List Char) : List Char :=
  match cs with
  | '{' :: rest => if rest.getLast? = some '}' then rest.dropLast else cs
  | _ => cs

/-- Reads a placeholder; `part` is the whole part, a dollar sign followed by `rest`. -/
def readCapture (part rest : List Char) : Except ScopeFault Part :=
  match Text.numeral? (withoutBraces rest) with
  | none => .error (.notPlaceholder part)
  | some n => if n < UInt64.size then .ok (.capture (UInt64.ofNat n)) else .error (.indexTooLarge part)

/-- Reads one part of a scope. -/
def read (part : List Char) : Except ScopeFault Part :=
  match h : part with
  | [] => .error .emptyPart
  | '$' :: rest => readCapture part rest
  | c :: cs =>
    if hv : part.all isNameChar then
      .ok (.name ⟨part, by simp [h], hv⟩)
    else
      .error (.unexpectedCharacter ((part.find? fun x => !isNameChar x).getD c) part)

end Part

namespace Scope

/-- Reads a scope from a text without blanks. -/
def read (cs : List Char) : Except ScopeFault Scope :=
  if cs.isEmpty then .error .empty
  else
    match (Text.pieces '.' cs).mapM Part.read with
    | .error e => .error e
    | .ok [] => .error .empty
    | .ok (p :: ps) => .ok ⟨p :: ps, by simp⟩

/-- Reads a scope, naming the text in the error. -/
def ofText (s : String) : Except InvalidScopeName Scope :=
  match read s.toList with
  | .ok scope => .ok scope
  | .error fault => .error ⟨s, fault⟩

end Scope

namespace ScopeName

/-- Reads a scope name. An error names the first word that is no scope, or the whole text when it
holds no word. -/
def ofText (s : String) : Except InvalidScopeName ScopeName :=
  match (Text.words s.toList).mapM fun w => Scope.ofText (String.ofList w) with
  | .error e => .error e
  | .ok [] => .error ⟨s, .empty⟩
  | .ok (scope :: scopes) => .ok ⟨scope :: scopes, by simp⟩

end ScopeName

end Highlight
