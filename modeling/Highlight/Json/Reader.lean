import Highlight.Json.Basic
import Highlight.Text.Decimal

/-!
# Reading JSON

The reader takes exactly the standard's grammar: no comments, no trailing commas, no byte order
mark, no control characters in strings. How deep values nest is not limited here; records limit it
where they look into a value.

Each reader takes the text from where a value begins and answers with the value and the text after
it. Readers of nested values carry a bound on the steps left, and the length of the text is enough
since every step takes a character.

- `Json.readString`, `Json.readNumber`, `Json.readValue`: the readers.
- `Json.ofText?`: reads a whole text.
-/

namespace Highlight

namespace Json

/-- Whether a character is one of the four that may stand between the parts of a value. -/
def isGap (c : Char) : Bool := c == ' ' || c == '\n' || c == '\t' || c == '\r'

/-- The text after the gap that it begins with. -/
def skipGap (cs : List Char) : List Char := cs.dropWhile isGap

/-- The value of a hexadecimal digit. -/
def hexValue? (c : Char) : Option Nat :=
  if '0' ≤ c && c ≤ '9' then some (c.toNat - 48)
  else if 'a' ≤ c && c ≤ 'f' then some (c.toNat - 87)
  else if 'A' ≤ c && c ≤ 'F' then some (c.toNat - 55)
  else none

/-- The number that four hexadecimal digits stand for. -/
def hex4? (a b c d : Char) : Option Nat :=
  match hexValue? a, hexValue? b, hexValue? c, hexValue? d with
  | some a, some b, some c, some d => some (4096 * a + 256 * b + 16 * c + d)
  | _, _, _, _ => none

/-- The character that a one-letter escape stands for. -/
def escape? (c : Char) : Option Char :=
  if c = '"' then some '"'
  else if c = '\\' then some '\\'
  else if c = '/' then some '/'
  else if c = 'b' then some (Char.ofNat 8)
  else if c = 'f' then some (Char.ofNat 12)
  else if c = 'n' then some '\n'
  else if c = 'r' then some '\r'
  else if c = 't' then some '\t'
  else none

/-- One element of a string: a character, or the sixteen-bit unit of a numeric escape. -/
inductive Element where
  | char (c : Char)
  | unit (n : Nat)

/-- The text that elements stand for. A unit that is half of a surrogate pair needs the other half
next to it. -/
def textOfElements : List Element → Option (List Char)
  | [] => some []
  | .char c :: rest => (textOfElements rest).map (c :: ·)
  | .unit high :: .unit low :: rest =>
    if 0xD800 ≤ high && high ≤ 0xDBFF then
      if 0xDC00 ≤ low && low ≤ 0xDFFF then
        let c := Char.ofNat (0x10000 + (high - 0xD800) * 1024 + (low - 0xDC00))
        (textOfElements rest).map (c :: ·)
      else none
    else if 0xDC00 ≤ high && high ≤ 0xDFFF then none
    else (textOfElements (.unit low :: rest)).map (Char.ofNat high :: ·)
  | .unit n :: rest =>
    if 0xD800 ≤ n && n ≤ 0xDFFF then none else (textOfElements rest).map (Char.ofNat n :: ·)

/-- Reads the elements of a string up to its closing quote; `read` holds those before, last
first. -/
def readElements (read : List Element) : List Char → Option (List Element × List Char)
  | [] => none
  | '"' :: rest => some (read.reverse, rest)
  | '\\' :: 'u' :: a :: b :: c :: d :: rest =>
    match hex4? a b c d with
    | some n => readElements (.unit n :: read) rest
    | none => none
  | '\\' :: e :: rest =>
    match escape? e with
    | some c => readElements (.char c :: read) rest
    | none => none
  | c :: rest => if c.toNat < 32 then none else readElements (.char c :: read) rest

/-- Reads a string after its opening quote. -/
def readString (cs : List Char) : Option (Option String × List Char) :=
  (readElements [] cs).map fun (elements, rest) =>
    ((textOfElements elements).map String.ofList, rest)

/-- The digits that a text begins with and the text after them. -/
def spanDigits (cs : List Char) : List Char × List Char :=
  (cs.takeWhile Text.isDigit, cs.dropWhile Text.isDigit)

/-- Reads the fraction of a number, which can be missing. -/
def readFraction : List Char → Option (List Char × List Char)
  | '.' :: cs =>
    match spanDigits cs with
    | ([], _) => none
    | (digits, rest) => some ('.' :: digits, rest)
  | cs => some ([], cs)

/-- The sign that a text begins with, which can be missing, and the text after it. -/
def spanSign : List Char → List Char × List Char
  | '+' :: cs => (['+'], cs)
  | '-' :: cs => (['-'], cs)
  | cs => ([], cs)

/-- Reads the exponent of a number, which can be missing. -/
def readExponent : List Char → Option (List Char × List Char)
  | [] => some ([], [])
  | c :: cs =>
    if c = 'e' || c = 'E' then
      match spanSign cs with
      | (sign, cs) =>
        match spanDigits cs with
        | ([], _) => none
        | (digits, rest) => some (c :: sign ++ digits, rest)
    else some ([], c :: cs)

/-- Reads a number without its sign. -/
def readMagnitude (negative : Bool) (cs : List Char) : Option (Json × List Char) := do
  let (digits, rest) := spanDigits cs
  if digits.isEmpty || (digits.head? == some '0' && digits != ['0']) then none
  else
    let (fraction, rest) ← readFraction rest
    let (exponent, rest) ← readExponent rest
    let sign := if negative then ['-'] else []
    let value := Text.digitsValue digits
    if !fraction.isEmpty || !exponent.isEmpty || (negative && value == 0) then
      some (.decimal (sign ++ digits ++ fraction ++ exponent), rest)
    else some (.int (if negative then -(value : Int) else value), rest)

/-- Reads a number. -/
def readNumber : List Char → Option (Json × List Char)
  | '-' :: cs => readMagnitude true cs
  | cs => readMagnitude false cs

/-- The text after a word that it must begin with. -/
def readWord (word cs : List Char) : Option (List Char) :=
  if word.isPrefixOf cs then some (cs.drop word.length) else none

mutual

/-- Reads a value after the gap in front of it. -/
def readValue : Nat → List Char → Option (Json × List Char)
  | 0, _ => none
  | steps + 1, cs =>
    match skipGap cs with
    | [] => none
    | 'n' :: rest => (readWord "ull".toList rest).map (.null, ·)
    | 't' :: rest => (readWord "rue".toList rest).map (.bool true, ·)
    | 'f' :: rest => (readWord "alse".toList rest).map (.bool false, ·)
    | '"' :: rest => (readString rest).map fun (s, rest) => (.string s, rest)
    | '[' :: rest =>
      match skipGap rest with
      | ']' :: rest => some (.array [], rest)
      | rest => (readItems steps rest).map fun (items, rest) => (.array items, rest)
    | '\x7b' :: rest =>
      match skipGap rest with
      | '\x7d' :: rest => some (.object [], rest)
      | rest => (readFields steps rest).map fun (fields, rest) => (.object fields, rest)
    | cs => readNumber cs

/-- Reads the items of an array and its closing bracket. -/
def readItems : Nat → List Char → Option (List Json × List Char)
  | 0, _ => none
  | steps + 1, cs =>
    match readValue steps cs with
    | none => none
    | some (item, rest) =>
      match skipGap rest with
      | ']' :: rest => some ([item], rest)
      | ',' :: rest => (readItems steps rest).map fun (items, rest) => (item :: items, rest)
      | _ => none

/-- Reads the fields of an object and its closing brace. -/
def readFields : Nat → List Char → Option (List (Option String × Json) × List Char)
  | 0, _ => none
  | steps + 1, cs =>
    match skipGap cs with
    | '"' :: rest =>
      match readString rest with
      | none => none
      | some (key, rest) =>
        match skipGap rest with
        | ':' :: rest =>
          match readValue steps rest with
          | none => none
          | some (value, rest) =>
            match skipGap rest with
            | '\x7d' :: rest => some ([(key, value)], rest)
            | ',' :: rest =>
              (readFields steps rest).map fun (fields, rest) => ((key, value) :: fields, rest)
            | _ => none
        | _ => none
    | _ => none

end

/-- Reads a text that is one value with nothing but gaps around it. -/
def ofText? (s : String) : Option Json :=
  let cs := s.toList
  match readValue (2 * cs.length + 2) cs with
  | some (j, rest) => if (skipGap rest).isEmpty then some j else none
  | none => none

end Json

end Highlight
