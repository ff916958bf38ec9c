import Highlight.Json.Basic

/-!
# Records in JSON

A record can be written as an object with its fields by name, in any order and among fields of
other names, or as an array with its fields in their declared order. A field of the record that is
given twice is refused, and so is an array with too many items.

A record, list or map can only be looked into while the budget of open brackets lasts: opening one
takes one from the budget, and a budget of one is too little.

- `Json.nestingBudget`: the budget in front of a whole text.
- `Json.record?`: the named fields of a record.
- `Json.optional`, `Json.defaulting`, `Json.required`: how one field is read, and what a missing field
  and a `null` mean.
-/

namespace Highlight

namespace Json

/-- How many brackets can be open at once, and one more. -/
def nestingBudget : Nat := 128

/-- The fields of an object that a record has; none if one of them is given twice or if some key
stands for no text. -/
def knownFields? (names : List String) : List (Option String × Json) → Option (List (String × Json))
  | [] => some []
  | (none, _) :: _ => none
  | (some key, value) :: rest =>
    match knownFields? names rest with
    | none => none
    | some known =>
      if key ∈ names then
        if known.any (·.1 == key) then none else some ((key, value) :: known)
      else some known

/-- The fields of a record, given the names of all its fields in their order. -/
def record? (names : List String) : Json → Option (List (String × Json))
  | .object fields => knownFields? names fields
  | .array items => if items.length ≤ names.length then some (names.zip items) else none
  | _ => none

/-- Reads a field that may be missing or `null`. -/
def optional {α : Type} (read : Json → Option α) (name : String) (fields : List (String × Json)) :
    Option (Option α) :=
  match fields.lookup name with
  | none => some none
  | some .null => some none
  | some j => (read j).map some

/-- Reads a field that may be missing, in which case it has the value given. -/
def defaulting {α : Type} (value : α) (read : Json → Option α) (name : String)
    (fields : List (String × Json)) : Option α :=
  match fields.lookup name with
  | none => some value
  | some j => read j

/-- Reads a field that must be there. -/
def required {α : Type} (read : Json → Option α) (name : String) (fields : List (String × Json)) :
    Option α :=
  (fields.lookup name).bind read

end Json

end Highlight
