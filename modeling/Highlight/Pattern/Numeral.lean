import Highlight.Pattern.Fault
import Highlight.Text.Decimal
import Highlight.Text.Property

/-!
# Characters given by number

A pattern can give a character by its code (`\x41`, `\x{1F600}`, `\u0041`, `\101`), several of them at
once (`\x{41 42}`), and a character beyond ASCII also byte by byte.

- `spanAtMost`, `valueOf`: the digits that a text begins with, up to a limit, and their value.
- `Base`: the bases that numbers are written in.
- `CodePart`, `NumericEscape`: what an escape gives by number.
- `checkCode`: a code that can be written down.
- `readCode?`: reads what follows the backslash of such an escape, if it is one.
- `sequenceLength`, `decodeBytes`, `codeOfBytes`: bytes that together make a character.
-/

namespace Highlight

namespace Pattern

/-- What a hexadecimal digit adds to a number. -/
def hexValue (c : Char) : Nat :=
  if c.isDigit then c.toNat - 48 else if c.isLower then c.toNat - 87 else c.toNat - 55

/-- Whether a character is an octal digit. -/
def isOctalDigit (c : Char) : Bool := '0' ≤ c && c ≤ '7'

/-- The digits of a kind that a text begins with, at most `limit` of them, and the text after
them. -/
def spanAtMost (isDigit : Char → Bool) : Nat → List Char → List Char × List Char
  | 0, cs => ([], cs)
  | _ + 1, [] => ([], [])
  | limit + 1, c :: cs =>
    if isDigit c then
      let (digits, rest) := spanAtMost isDigit limit cs
      (c :: digits, rest)
    else ([], c :: cs)

/-- The number that digits of a base stand for. -/
def valueOf (base : Nat) (digits : List Char) : Nat :=
  digits.foldl (fun n c => base * n + hexValue c) 0

/-- A base in which codes are written. -/
inductive Base where
  | octal
  | hexadecimal
deriving DecidableEq

namespace Base

/-- Whether a character is a digit. -/
def isDigit : Base → Char → Bool
  | .octal, c => isOctalDigit c
  | .hexadecimal, c => Text.isHexDigit c

/-- The most digits that a code in braces can have. -/
def mostDigits : Base → Nat
  | .octal => 11
  | .hexadecimal => 8

/-- The number that digits stand for. -/
def valueOf : Base → List Char → Nat
  | .octal, digits => Pattern.valueOf 8 digits
  | .hexadecimal, digits => Pattern.valueOf 16 digits

end Base

/-- A part of what stands between braces. -/
inductive CodePart where
  | code (code : Nat)
  /-- In a class, what joins two codes to a range. -/
  | hyphen
deriving DecidableEq

/-- What an escape gives by number. -/
inductive NumericEscape where
  /-- One or more characters, by their codes. -/
  | parts (parts : List CodePart)
  /-- A byte, and the base that its number was written in. -/
  | byte (base : Base) (value : Nat)
deriving DecidableEq

/-- Accepts the codes that can be written down. Most of the larger ones have no character. -/
def checkCode (code : Nat) : Except PatternFault Nat :=
  if code ≤ 0x7FFFFFFF || code == 0xFFFFFFFE || code == 0xFFFFFFFF then .ok code
  else .error .characterTooLarge

/-- Reads the digits of a code in braces, and answers with no code if there are none. -/
def readDigits? (base : Base) (cs : List Char) : Except PatternFault (Option (Nat × List Char)) :=
  let (digits, rest) := spanAtMost base.isDigit base.mostDigits cs
  if digits.isEmpty then .ok none
  else
    let value := base.valueOf digits
    if UInt32.size ≤ value then .error .numberTooLarge
    else if rest.head?.any base.isDigit then .error .characterTooLong
    else .ok (some (value, rest))

/-- What can come next between the braces. In a class a hyphen joins two codes, neither of which can
be part of another range. -/
inductive BraceState where
  /-- A code, or a hyphen after the code before. -/
  | joinable
  /-- The code that ends a range. -/
  | joining
  /-- A code. -/
  | joined
deriving DecidableEq

/-- Reads further codes up to the closing brace, in at most the given number of steps. -/
def readMoreCodes (base : Base) (inClass : Bool) :
    Nat → BraceState → List Char → Except PatternFault (List CodePart × List Char)
  | 0, _, _ => .error .invalidCharacter
  | _, _, [] => .error .invalidCharacter
  | steps + 1, state, c :: cs =>
    if c = '\x7d' then if state = .joining then .error .invalidCharacter else .ok ([], cs)
    else if c = ' ' || c = '\n' then readMoreCodes base inClass steps state cs
    else if inClass && c = '-' then
      if state = .joinable then do
        let (parts, rest) ← readMoreCodes base inClass steps .joining cs
        return (.hyphen :: parts, rest)
      else .error .invalidCharacter
    else do
      match ← readDigits? base (c :: cs) with
      | none => throw .invalidCharacter
      | some (code, rest) =>
        let state := if state = .joining then .joined else .joinable
        let (parts, rest) ← readMoreCodes base inClass steps state rest
        return (.code (← checkCode code) :: parts, rest)

/-- Reads codes in braces after the opening brace; none if there is no code. `inRange` says that the
first code ends a range of a class. -/
def readBraced? (base : Base) (inClass inRange : Bool) (cs : List Char) :
    Except PatternFault (Option (NumericEscape × List Char)) := do
  match ← readDigits? base cs with
  | none => return none
  | some (code, rest) =>
    let state := if inRange then .joined else .joinable
    let (parts, rest) ← readMoreCodes base inClass (rest.length + 1) state rest
    return some (.parts (.code (← checkCode code) :: parts), rest)

/-- Reads an octal number of at most `limit` digits. -/
def readOctal (limit : Nat) (cs : List Char) : Except PatternFault (Option (NumericEscape × List Char)) :=
  let (digits, rest) := spanAtMost isOctalDigit limit cs
  let value := valueOf 8 digits
  if 255 < value then .error .numberTooLarge else .ok (some (.byte .octal value, rest))

/-- Reads a character or byte given by number after a backslash; none if the text is no such
escape. -/
def readCode? (inClass inRange : Bool) :
    List Char → Except PatternFault (Option (NumericEscape × List Char))
  | 'x' :: '\x7b' :: cs => readBraced? .hexadecimal inClass inRange cs
  | 'o' :: '\x7b' :: cs => readBraced? .octal inClass inRange cs
  | 'x' :: c :: cs =>
    let (digits, rest) := spanAtMost Text.isHexDigit 2 (c :: cs)
    .ok (some (.byte .hexadecimal (valueOf 16 digits), rest))
  | 'u' :: c :: cs =>
    let (digits, rest) := spanAtMost Text.isHexDigit 4 (c :: cs)
    if digits.length = 4 then .ok (some (.parts [.code (valueOf 16 digits)], rest))
    else .error .invalidCharacter
  | '0' :: cs => readOctal 2 cs
  | c :: cs => if isOctalDigit c then readOctal 3 (c :: cs) else .ok none
  | [] => .ok none

/-! ## Bytes -/

/-- The number of bytes of the character that a byte begins. Some of these characters have no code
any more. -/
def sequenceLength (byte : Nat) : Nat :=
  if byte < 0xC0 then 1 else if byte < 0xE0 then 2 else if byte < 0xF0 then 3
  else if byte < 0xF8 then 4 else if byte < 0xFC then 5 else if byte < 0xFE then 6 else 1

/-- The code that the bytes of one character spell, well-formed or not. -/
def decodeBytes : List Nat → Nat
  | [] => 0
  | [byte] => byte
  | first :: rest =>
    rest.foldl (fun n b => 64 * n + b % 64) (first % Nat.pow 2 (6 - rest.length))

/-- Whether a byte cannot begin a character. -/
def isTrailing (byte : Nat) : Bool := 0x80 ≤ byte && byte < 0xC0

/-- A code that no character has. -/
def noCharacter : Nat := 0xFFFFFFFF

/-- The code of the character that bytes stand for. There is none for bytes that are in the right
places and yet no character. -/
def codeOfBytes (bytes : List Nat) : Except PatternFault Nat :=
  match bytes with
  | [] => .error .invalidCharacter
  | first :: rest =>
    if isTrailing first || !rest.all isTrailing then .error .invalidCharacter
    else
      let code := decodeBytes bytes
      let shortest := if code < 0x80 then 1 else if code < 0x800 then 2
        else if code < 0x10000 then 3 else 4
      .ok (if bytes.length = shortest && code ≤ 0x10FFFF then code else noCharacter)

end Pattern

end Highlight
