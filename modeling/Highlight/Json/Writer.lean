import Highlight.Json.Basic

/-!
# Writing JSON

The compact form: no blanks, and in strings only what must be escaped is. Each function writes in
front of a text that follows, so that a whole value is written in one pass.

- `Json.before`: a value in front of the text that follows.
- `Json.text`: a value by itself.
-/

namespace Highlight

namespace Json

/-- The hexadecimal digit for a number below sixteen. -/
def hexDigit (n : Nat) : Char := if n < 10 then Char.ofNat (48 + n) else Char.ofNat (87 + n)

/-- A character as it stands in a string. -/
def escaped (c : Char) : List Char :=
  if c = '"' then ['\\', '"']
  else if c = '\\' then ['\\', '\\']
  else if c = '\n' then ['\\', 'n']
  else if c = '\r' then ['\\', 'r']
  else if c = '\t' then ['\\', 't']
  else if c.toNat = 8 then ['\\', 'b']
  else if c.toNat = 12 then ['\\', 'f']
  else if c.toNat < 32 then ['\\', 'u', '0', '0', hexDigit (c.toNat / 16), hexDigit (c.toNat % 16)]
  else [c]

/-- The characters of a string and its closing quote. -/
def charsBefore (rest : List Char) : List Char → List Char
  | [] => '"' :: rest
  | c :: cs => escaped c ++ charsBefore rest cs

/-- A string in quotes. One that stands for no text is written as an escape that stands for none. -/
def stringBefore (rest : List Char) : Option String → List Char
  | some s => '"' :: charsBefore rest s.toList
  | none => "\"\\ud800\"".toList ++ rest

mutual

/-- A value in front of the text that follows. -/
def before (rest : List Char) : Json → List Char
  | .null => "null".toList ++ rest
  | .bool true => "true".toList ++ rest
  | .bool false => "false".toList ++ rest
  | .int n => (toString n).toList ++ rest
  | .decimal numeral => numeral ++ rest
  | .string s => stringBefore rest s
  | .array [] => '[' :: ']' :: rest
  | .array (item :: items) => '[' :: before (itemsBefore rest items) item
  | .object [] => '\x7b' :: '\x7d' :: rest
  | .object ((key, value) :: fields) =>
    '\x7b' :: stringBefore (':' :: before (fieldsBefore rest fields) value) key

/-- The items that follow the first one of an array. -/
def itemsBefore (rest : List Char) : List Json → List Char
  | [] => ']' :: rest
  | item :: items => ',' :: before (itemsBefore rest items) item

/-- The fields that follow the first one of an object. -/
def fieldsBefore (rest : List Char) : List (Option String × Json) → List Char
  | [] => '\x7d' :: rest
  | (key, value) :: fields =>
    ',' :: stringBefore (':' :: before (fieldsBefore rest fields) value) key

end

/-- The compact form of a value. -/
def text (j : Json) : String := String.ofList (before [] j)

end Json

end Highlight
