import Highlight.Text.Category
import Highlight.Text.Pieces
import Highlight.Text.PropertyList

/-!
# Properties of characters

Classes of characters that patterns name, and the class of characters that a quoted text shows as
they are. The common ones decide ASCII characters without the table of categories.

- `isAlphabetic`, `isLowercase`, `isUppercase`, `isMark`, `isDecimal`, `isPunctuation`, `isSymbol`,
  `isWord`: classes of characters in the sense of the Unicode standard.
- `isGraphic`, `isPrinted`: characters that leave a trace on paper, without or with spaces.
- `isExtending`, `isUnprintable`: what a quoted text has to escape.
- `quotedChar`, `quoted`: a text on one line between double quotes.
- `isNameStart`, `isNamePart` and the functions after them: properties that follow from categories
  and lists.
-/

namespace Highlight

namespace Text

/-- Whether a character is one of the first 128. -/
def isAscii (c : Char) : Bool := c.toNat < 128

/-- Whether a character is a hexadecimal digit. -/
def isHexDigit (c : Char) : Bool :=
  ('0' ≤ c && c ≤ '9') || ('a' ≤ c && c ≤ 'f') || ('A' ≤ c && c ≤ 'F')

/-- Whether a character is upper case. -/
def isUppercase (c : Char) : Bool :=
  if isAscii c then c.isUpper
  else Category.of c == .uppercaseLetter || otherUppercase.contains c.toNat

/-- Whether a character is lower case. -/
def isLowercase (c : Char) : Bool :=
  if isAscii c then c.isLower
  else Category.of c == .lowercaseLetter || otherLowercase.contains c.toNat

/-- Whether a character is a letter or a letter number. -/
def isLetter (c : Char) : Bool :=
  match Category.of c with
  | .uppercaseLetter | .lowercaseLetter | .titlecaseLetter | .modifierLetter | .otherLetter
  | .letterNumber => true
  | _ => false

/-- Whether a character is alphabetic. -/
def isAlphabetic (c : Char) : Bool :=
  if isAscii c then c.isAlpha else isLetter c || otherAlphabetic.contains c.toNat

/-- Whether a character is a mark, which combines with the one before. -/
def isMark (c : Char) : Bool :=
  if isAscii c then false
  else
    match Category.of c with
    | .nonspacingMark | .spacingMark | .enclosingMark => true
    | _ => false

/-- Whether a character is a decimal digit of some script. -/
def isDecimal (c : Char) : Bool :=
  if isAscii c then c.isDigit else Category.of c == .decimalNumber

/-- Whether a character is a number of some kind. -/
def isNumber (c : Char) : Bool :=
  match Category.of c with
  | .decimalNumber | .letterNumber | .otherNumber => true
  | _ => false

/-- Whether a character is punctuation. -/
def isPunctuation (c : Char) : Bool :=
  match Category.of c with
  | .connectorPunctuation | .dashPunctuation | .openPunctuation | .closePunctuation
  | .initialPunctuation | .finalPunctuation | .otherPunctuation => true
  | _ => false

/-- Whether a character is a symbol. -/
def isSymbol (c : Char) : Bool :=
  match Category.of c with
  | .mathSymbol | .currencySymbol | .modifierSymbol | .otherSymbol => true
  | _ => false

/-- Whether a character can stand in a word: letters, marks, numbers and connectors. -/
def isWord (c : Char) : Bool :=
  if isAscii c then c.isAlphanum || c == '_'
  else
    isAlphabetic c || isMark c || isNumber c || Category.of c == .connectorPunctuation

/-- Whether a character is a control character. -/
def isControl (c : Char) : Bool := c.toNat < 32 || (127 ≤ c.toNat && c.toNat < 160)

/-- Whether a character is a space within a line. -/
def isInlineSpace (c : Char) : Bool :=
  if isAscii c then c == ' ' || c == '\t' else Category.of c == .spaceSeparator

/-- Whether a character leaves a trace on paper. -/
def isGraphic (c : Char) : Bool :=
  if isAscii c then 0x21 ≤ c.toNat && c.toNat ≤ 0x7E
  else
    !isBlank c &&
      match Category.of c with
      | .control | .surrogate | .unassigned => false
      | _ => true

/-- Whether a character leaves a trace on paper or is a space. -/
def isPrinted (c : Char) : Bool :=
  if isAscii c then 0x20 ≤ c.toNat && c.toNat ≤ 0x7E
  else isGraphic c || Category.of c == .spaceSeparator

/-- Whether a character only extends the one before it. -/
def isExtending (c : Char) : Bool :=
  if isAscii c then false
  else
    match Category.of c with
    | .nonspacingMark | .enclosingMark => true
    | _ => otherExtending.contains c.toNat

/-- Whether a character cannot be seen: controls, formats, separators other than the space, and
codes without a character of their own. -/
def isUnprintable (c : Char) : Bool :=
  if isAscii c then c.toNat < 32 || c.toNat == 127
  else
    match Category.of c with
    | .control | .format | .surrogate | .privateUse | .unassigned | .lineSeparator
    | .paragraphSeparator | .spaceSeparator => true
    | _ => false

/-! ## Quoted texts -/

/-- A character as it stands between the quotes. -/
def quotedChar (c : Char) : List Char :=
  if c = '"' then ['\\', '"']
  else if c = '\\' then ['\\', '\\']
  else if c = '\n' then ['\\', 'n']
  else if c = '\r' then ['\\', 'r']
  else if c = '\t' then ['\\', 't']
  else if c.toNat = 0 then ['\\', '0']
  else if isUnprintable c || isExtending c then
    '\\' :: 'u' :: '\x7b' :: (Nat.toDigits 16 c.toNat ++ ['\x7d'])
  else [c]

/-- The text between quotes. Quotes, backslashes and the characters that would not show by themselves
are escaped: those without a glyph, and those that change the character before them. -/
def quoted (cs : List Char) : List Char := '"' :: (cs.flatMap quotedChar ++ ['"'])

/-! ## Names -/

/-- Whether a name can begin with a character. -/
def isNameStart (c : Char) : Bool :=
  (isLetter c || otherNameStart.contains c.toNat) && !patternSyntax.contains c.toNat

/-- Whether a name can go on with a character. -/
def isNamePart (c : Char) : Bool :=
  isNameStart c ||
    match Category.of c with
    | .nonspacingMark | .spacingMark | .decimalNumber | .connectorPunctuation => true
    | _ => otherNamePart.contains c.toNat

/-- Whether a name can begin with a character, also after compatibility composition. -/
def isStableNameStart (c : Char) : Bool := isNameStart c && !unstableNameStart.contains c.toNat

/-- Whether a name can go on with a character, also after compatibility composition. -/
def isStableNamePart (c : Char) : Bool := isNamePart c && !unstableNamePart.contains c.toNat

/-! ## Case -/

/-- Whether a character is upper, lower or title case. -/
def isCased (c : Char) : Bool :=
  isUppercase c || isLowercase c || Category.of c == .titlecaseLetter

/-- Whether a character is passed over where the case of a word is told. -/
def isCaseIgnorable (c : Char) : Bool :=
  match Category.of c with
  | .nonspacingMark | .enclosingMark | .format | .modifierLetter | .modifierSymbol => true
  | _ => midWord.contains c.toNat

/-- Whether a character has a lower case form other than itself. -/
def hasLower (c : Char) : Bool :=
  (isUppercase c || Category.of c == .titlecaseLetter) && !withoutLower.contains c.toNat

/-- Whether a character has an upper case form other than itself. -/
def hasUpper (c : Char) : Bool :=
  (isLowercase c || Category.of c == .titlecaseLetter) && !withoutUpper.contains c.toNat

/-- Whether a character has a title case form other than itself. -/
def hasTitle (c : Char) : Bool :=
  (hasUpper c && !titleOfItself.contains c.toNat) || titleOnly.contains c.toNat

/-- Whether folding of case changes a character. -/
def isFolded (c : Char) : Bool :=
  (hasLower c && !lowersButKept.contains c.toNat) || foldedLower.contains c.toNat

/-! ## Others -/

/-- Whether a character is a mathematical one. -/
def isMath (c : Char) : Bool := Category.of c == .mathSymbol || otherMath.contains c.toNat

/-- Whether a character is shown as nothing where it is not supported. -/
def isIgnorable (c : Char) : Bool :=
  (Category.of c == .format || variationSelector.contains c.toNat
    || otherIgnorable.contains c.toNat) && !shownFormats.contains c.toNat

/-- Whether marks can extend a character. -/
def isClusterBase (c : Char) : Bool :=
  !isExtending c &&
    match Category.of c with
    | .control | .format | .surrogate | .privateUse | .unassigned | .lineSeparator
    | .paragraphSeparator => false
    | _ => true

end Text

end Highlight
