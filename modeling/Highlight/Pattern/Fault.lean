import Highlight.Text.Bytes

/-!
# Faults in patterns

Why a text is no pattern.

- `PatternFault`: the causes.
- `shownName`: a name as messages show it.
- `PatternFault.message`: the wording of the causes.
-/

namespace Highlight

/-- Why a text is no pattern. -/
inductive PatternFault where
  | endAtEscape
  | endAtMeta
  | endAtControl
  | endInGroup
  | unclosedGroup
  | unopenedGroup
  | unknownGroupOption
  | misplacedOption
  | conflictingOptions
  | emptyGroupName
  | invalidGroupName (name : List Char)
  | invalidCharInGroupName (name : List Char)
  | undefinedName (name : List Char)
  | undefinedGroup (name : List Char)
  | ambiguousCall (name : List Char)
  | invalidBackReference
  | endlessRecursion
  | invalidCondition
  | missingRepeatTarget
  | invalidRepeatTarget
  | repeatTooLarge
  | unclosedClass
  | emptyClass
  | emptyRange
  | classAtRangeEnd
  | unmatchedRange
  | unknownBracketName
  | unknownProperty (name : List Char)
  | invalidLookBehind
  | invalidMetaCode
  | invalidControlCode
  | numberTooLarge
  | characterTooLarge
  | characterTooLong
  | invalidCharacter
  | incompleteBytes
  | nestedTooDeeply
  | invalidCallout
  | invalidCalloutName
  | unknownCallout
  | invalidCalloutTag
  | invalidCalloutArgument
deriving DecidableEq

/-- The longest first part of a text that has at most the given number of bytes. -/
def takeUpToBytes (limit : Nat) : List Char → List Char
  | [] => []
  | c :: cs => if c.utf8Size ≤ limit then c :: takeUpToBytes (limit - c.utf8Size) cs else []

/-- A name as it is quoted in a message, where only its first thirty bytes are shown. -/
def shownName (name : List Char) : String :=
  if Text.byteLength name ≤ 30 then String.ofList name
  else String.ofList (takeUpToBytes 30 name) ++ "..."

/-- The wording of a cause. -/
def PatternFault.message : PatternFault → String
  | .endAtEscape => "end pattern at escape"
  | .endAtMeta => "end pattern at meta"
  | .endAtControl => "end pattern at control"
  | .endInGroup => "end pattern in group"
  | .unclosedGroup => "end pattern with unmatched parenthesis"
  | .unopenedGroup => "unmatched close parenthesis"
  | .unknownGroupOption => "undefined group option"
  | .misplacedOption => "invalid group option"
  | .conflictingOptions => "invalid combination of options"
  | .emptyGroupName => "group name is empty"
  | .invalidGroupName name => "invalid group name <" ++ shownName name ++ ">"
  | .invalidCharInGroupName name => "invalid char in group name <" ++ shownName name ++ ">"
  | .undefinedName name => "undefined name <" ++ shownName name ++ "> reference"
  | .undefinedGroup name => "undefined group <" ++ shownName name ++ "> reference"
  | .ambiguousCall name => "multiplex definition name <" ++ shownName name ++ "> call"
  | .invalidBackReference => "invalid backref number/name"
  | .endlessRecursion => "never ending recursion"
  | .invalidCondition => "invalid if-else syntax"
  | .missingRepeatTarget => "target of repeat operator is not specified"
  | .invalidRepeatTarget => "target of repeat operator is invalid"
  | .repeatTooLarge => "too big number for repeat range"
  | .unclosedClass => "premature end of char-class"
  | .emptyClass => "empty char-class"
  | .emptyRange => "empty range in char class"
  | .classAtRangeEnd => "char-class value at end of range"
  | .unmatchedRange => "unmatched range specifier in char-class"
  | .unknownBracketName => "invalid POSIX bracket type"
  | .unknownProperty name => "invalid character property name \x7b" ++ shownName name ++ "\x7d"
  | .invalidLookBehind => "invalid pattern in look-behind"
  | .invalidMetaCode => "invalid meta-code syntax"
  | .invalidControlCode => "invalid control-code syntax"
  | .numberTooLarge => "too big number"
  | .characterTooLarge => "too big wide-char value"
  | .characterTooLong => "too long wide-char value"
  | .invalidCharacter => "invalid code point value"
  | .incompleteBytes => "too short multibyte code string"
  | .nestedTooDeeply => "parse depth limit over"
  | .invalidCallout => "invalid callout pattern"
  | .invalidCalloutName => "invalid callout name"
  | .unknownCallout => "undefined callout name"
  | .invalidCalloutTag => "invalid callout tag name"
  | .invalidCalloutArgument => "invalid callout arg"

end Highlight
