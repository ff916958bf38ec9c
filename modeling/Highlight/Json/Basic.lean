/-!
# JSON values

The form in which grammars, options and stacks are kept in files. The type holds everything that is
well-formed JSON, also what no record accepts: keys that are repeated, and strings with an escape
for half of a surrogate pair, which stand for no text.

- `Json`: the values. Objects keep their fields in the order written.
- `Json.field?`, `Json.ofFields`, `Json.ofStrings`, `Json.ofOption`: access and construction.
-/

namespace Highlight

/-- A JSON value. -/
inductive Json where
  | null
  | bool (value : Bool)
  /-- A number without fraction and exponent. -/
  | int (value : Int)
  /-- A number with a fraction or an exponent, and the negative zero, as written. -/
  | decimal (numeral : List Char)
  /-- A string, or none for one whose escapes stand for no text. -/
  | string (value : Option String)
  | array (items : List Json)
  | object (fields : List (Option String × Json))
deriving Inhabited

namespace Json

/-- The JSON string for a text. -/
def ofString (s : String) : Json := .string (some s)

/-- The JSON number for a natural number. -/
def ofNat (n : Nat) : Json := .int n

/-- The JSON object with the given fields. -/
def ofFields (fields : List (String × Json)) : Json := .object (fields.map fun (k, v) => (some k, v))

/-- The JSON array of strings. -/
def ofStrings (ss : List String) : Json := .array (ss.map ofString)

/-- The value, or `null` when there is none. -/
def ofOption : Option Json → Json
  | none => .null
  | some j => j

/-- The value of the first field with a key; none also for values that are no objects. -/
def field? (key : String) : Json → Option Json
  | .object fields => (fields.find? fun (k, _) => k == some key).map (·.2)
  | _ => none

/-- The text of a string. -/
def string? : Json → Option String
  | .string s => s
  | _ => none

/-- The value of a number that is a natural number. -/
def nat? : Json → Option Nat
  | .int (.ofNat n) => some n
  | _ => none

/-- The items of an array. -/
def items? : Json → Option (List Json)
  | .array items => some items
  | _ => none

/-- The value of a truth value. -/
def bool? : Json → Option Bool
  | .bool b => some b
  | _ => none

end Json

end Highlight
