import Highlight.Pattern.Fault
import Highlight.Text.Decimal
import Highlight.Text.Property

/-!
# Names of groups

A group can have a name, by which references and calls name it. References and calls can also name a
group by its number, or by its distance from the place where they stand.

- `GroupTarget`: what names a group.
- `readGroupName`: the name that a group is given.
- `readCallName`: what a call names.
- `readReferenceName`: what a reference names, and the number of calls in between.
-/

namespace Highlight

namespace Pattern

/-- What names a group. -/
inductive GroupTarget where
  | name (name : List Char)
  | number (n : Nat)
  /-- So many groups back, the one opened last being the first. -/
  | backward (n : Nat)
  /-- So many groups ahead. -/
  | forward (n : Nat)
deriving DecidableEq

/-- The characters up to one that ends a name, and the text from there on. -/
def spanName (stop : Char) (cs : List Char) : List Char × List Char :=
  (cs.takeWhile fun c => c != stop && c != ')', cs.dropWhile fun c => c != stop && c != ')')

/-- The name that is shown when a name is refused before its end: the text up to the end of the name,
or all of it when nothing comes after. `read` is what has been read of it. -/
def refusedName (stop : Char) (read rest : List Char) : List Char :=
  let (name, after) := spanName stop rest
  match after with
  | _ :: _ :: _ => read ++ name
  | _ => read ++ rest

/-- Finishes a name that ends at a character which must be the right one. A name that does not is
shown up to its last character. -/
def finishName (stop : Char) (name rest : List Char) :
    Except PatternFault (List Char × List Char) :=
  match rest with
  | d :: rest => if d = stop then .ok (name, rest) else .error (.invalidGroupName name)
  | [] => .error (.invalidGroupName (if name.length ≤ 1 then name else name.dropLast))

/-- Reads the name that a group is given and the character that ends it. Only its first character
has to be one of a word. -/
def readGroupName (stop : Char) (cs : List Char) : Except PatternFault (List Char × List Char) :=
  match cs with
  | [] => .error .emptyGroupName
  | c :: rest =>
    if c = stop then .error .emptyGroupName
    else if Text.isDigit c || c = '-' || c = '+' then
      .error (.invalidGroupName (refusedName stop [c] rest))
    else if !Text.isWord c then .error (.invalidCharInGroupName (refusedName stop [c] rest))
    else
      let (name, rest) := spanName stop rest
      finishName stop (c :: name) rest

/-- The largest number that a reference can give. -/
def mostNumber : Nat := 2147483647

/-- Reads the digits of a number and the character that ends it; `sign` is what stands in front. -/
def readGroupNumber (stop : Char) (sign cs : List Char) (target : Nat → GroupTarget) :
    Except PatternFault (GroupTarget × List Char × List Char) :=
  let digits := cs.takeWhile Text.isDigit
  let written := sign ++ digits
  match cs.drop digits.length with
  | [] => .error (.invalidGroupName (if written.length ≤ 1 then written else written.dropLast))
  | c :: rest =>
    if c = stop || c = ')' then
      if digits.isEmpty || c = ')' then .error (.invalidGroupName written)
      else
        let n := Text.digitsValue digits
        if mostNumber < n then .error .numberTooLarge
        else if n = 0 && !sign.isEmpty then .error (.invalidGroupName written)
        else .ok (target n, written, rest)
    else
      let shown := refusedName stop (written ++ [c]) rest
      .error (if Text.isWord c then .invalidGroupName shown else .invalidCharInGroupName shown)

/-- Reads what a call names and the character that ends it. -/
def readCallName (stop : Char) (cs : List Char) :
    Except PatternFault (GroupTarget × List Char × List Char) :=
  match cs with
  | [] => .error .emptyGroupName
  | '-' :: rest => readGroupNumber stop ['-'] rest .backward
  | '+' :: rest => readGroupNumber stop ['+'] rest .forward
  | c :: rest =>
    if c = stop then .error .emptyGroupName
    else if Text.isDigit c then readGroupNumber stop [] cs .number
    else if !Text.isWord c then .error (.invalidCharInGroupName (refusedName stop [c] rest))
    else do
      let (name, rest) ← readGroupName stop cs
      return (.name name, name, rest)

/-- Whether a character ends a name that a level can follow. -/
def endsLeveledName (stop c : Char) : Bool := c == stop || c == ')' || c == '+' || c == '-'

/-- Why a character cannot go on a name that began with `first`, given why the characters before it
could not. In a number nothing but digits can follow. -/
def nextFault (first : Char) (fault : Option (List Char → PatternFault)) (c : Char) :
    Option (List Char → PatternFault) :=
  let numbered := Text.isDigit first || first = '-' || first = '+'
  if numbered && fault.isNone then
    if Text.isDigit c then none else some .invalidGroupName
  else if Text.isWord c then fault
  else some .invalidCharInGroupName

/-- Why characters are no name, the last one that is wrong deciding. -/
def nameFault? (first : Char) (more : List Char) : Option (List Char → PatternFault) :=
  let fault : Option (List Char → PatternFault) :=
    if Text.isDigit first || first = '-' || first = '+' || Text.isWord first then none
    else some .invalidCharInGroupName
  more.foldl (nextFault first) fault

/-- What a well-formed name names. -/
def targetOf (name : List Char) : GroupTarget :=
  match name with
  | '-' :: digits => .backward (Text.digitsValue digits)
  | '+' :: digits => .forward (Text.digitsValue digits)
  | c :: _ => if Text.isDigit c then .number (Text.digitsValue name) else .name name
  | [] => .name []

/-- Accepts what a name names if its number is neither too large nor a distance of zero. -/
def checkTarget (name : List Char) : Except PatternFault GroupTarget :=
  match targetOf name with
  | .backward 0 | .forward 0 => .error (.invalidGroupName name)
  | .name name => .ok (.name name)
  | .backward n => if mostNumber < n then .error .numberTooLarge else .ok (.backward n)
  | .forward n => if mostNumber < n then .error .numberTooLarge else .ok (.forward n)
  | .number n => if mostNumber < n then .error .numberTooLarge else .ok (.number n)

/-- Reads what a reference names, the level, and the character that ends both. -/
def readReferenceName (stop : Char) (cs : List Char) :
    Except PatternFault (GroupTarget × List Char × Option Int × List Char) :=
  match cs with
  | [] => .error .emptyGroupName
  | first :: after =>
    if first = stop then .error .emptyGroupName
    else
      let more := after.takeWhile fun d => !endsLeveledName stop d
      let name := first :: more
      match nameFault? first more, after.drop more.length with
      | some fault, [] => .error (fault (if more.isEmpty then name else name.dropLast))
      | some fault, _ :: _ => .error (fault name)
      | none, [] =>
        .error (if name = ['-'] || name = ['+'] then .invalidCharInGroupName name
          else .invalidGroupName cs)
      | none, d :: rest =>
        if name = ['-'] || name = ['+'] then .error (.invalidGroupName name)
        else if d = stop then do return (← checkTarget name, name, none, rest)
        else if d = ')' then .error (.invalidGroupName cs)
        else if rest.isEmpty then .error (.invalidCharInGroupName name)
        else
          let digits := rest.takeWhile Text.isDigit
          let distance : Int := Text.digitsValue digits
          match digits, rest.drop digits.length with
          | _ :: _, e :: rest =>
            if e = stop then do
              return (← checkTarget name, name, some (if d = '-' then -distance else distance), rest)
            else .error (.invalidGroupName cs)
          | _, _ => .error (.invalidGroupName cs)

end Pattern

end Highlight
