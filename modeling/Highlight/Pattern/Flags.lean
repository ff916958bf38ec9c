import Highlight.Pattern.CharSet

/-!
# Options of a pattern

A pattern can switch options on and off for a part of it.

- `Flags`: the options in force.
- `CaseRule`, `Flags.caseRule`: whether case counts where texts are compared.
- `Flags.setOf`: the set that a class stands for, which options can limit to ASCII.
- `CaseRule.mates`, `CaseRule.wholeMates`, `CaseRule.foldWhole`: the folding of a rule.
-/

namespace Highlight

namespace Pattern

/-- Whether case counts where texts are compared. -/
inductive CaseRule where
  | exact
  | folded
  /-- Case does not count in ASCII letters. -/
  | foldedAscii
deriving DecidableEq

/-- The options in force in a part of a pattern. -/
structure Flags where
  ignoreCase : Bool
  /-- Whether a dot takes newlines too. -/
  dotAll : Bool
  /-- Whether blanks and comments are skipped. -/
  extended : Bool
  asciiWord : Bool
  asciiDigit : Bool
  asciiSpace : Bool
  /-- Whether all classes that can stand in bracket expressions are limited to ASCII. -/
  asciiClasses : Bool
  asciiCase : Bool
deriving DecidableEq

namespace Flags

/-- No option is on. -/
def none : Flags := ⟨false, false, false, false, false, false, false, false⟩

/-- Whether case counts. -/
def caseRule (f : Flags) : CaseRule :=
  if !f.ignoreCase then .exact else if f.asciiCase then .foldedAscii else .folded

/-- Whether a class is limited to ASCII. -/
def limits (f : Flags) (cls : CharClass) : Bool :=
  match cls with
  | .word => f.asciiWord || f.asciiClasses
  | .decimal => f.asciiDigit || f.asciiClasses
  | .space => f.asciiSpace || f.asciiClasses
  | .newline | .alphanumeric | .alphabetic | .inlineSpace | .control | .graphic | .lowercase
  | .printed | .punctuation | .punctuationOrSymbol | .uppercase | .hexDigit => f.asciiClasses
  | _ => false

/-- The set that a class stands for. -/
def setOf (f : Flags) (cls : CharClass) : CharSet :=
  if f.limits cls then .inter (.named cls) (.named .ascii) else .named cls

end Flags

namespace CaseRule

/-- The other ASCII letter that differs in case alone, and the letter itself. -/
def asciiMates (code : Nat) : List Nat :=
  if 0x41 ≤ code && code ≤ 0x5A then [code, code + 32]
  else if 0x61 ≤ code && code ≤ 0x7A then [code, code - 32]
  else [code]

/-- All characters that fold to the same single character as a given one. -/
def mates (rule : CaseRule) (code : Nat) : List Nat :=
  match rule with
  | .exact => [code]
  | .folded => Text.foldMates code
  | .foldedAscii => asciiMates code

/-- All characters with the same folding as a given one. -/
def wholeMates (rule : CaseRule) (code : Nat) : List Nat :=
  match rule with
  | .exact => [code]
  | .folded => Text.wholeMates code
  | .foldedAscii => asciiMates code

/-- The characters that a character folds to. -/
def foldWhole (rule : CaseRule) (code : Nat) : List Nat :=
  match rule with
  | .exact => [code]
  | .folded => Text.foldWhole code
  | .foldedAscii => [if 0x41 ≤ code && code ≤ 0x5A then code + 32 else code]

/-- The set of the characters that are equal under a rule to some character of a set. -/
def closure (rule : CaseRule) (set : CharSet) : CharSet :=
  match rule with
  | .exact => set
  | .folded => .anyCase set
  | .foldedAscii => .anyCaseAscii set

end CaseRule

end Pattern

end Highlight
