import Highlight.Pattern.Flags
import Highlight.Pattern.Numeral

/-!
# Reading character classes

What stands between brackets: characters, ranges, classes with a name, nested classes, and the
operator `&&` between whole lists of these. A hyphen is itself where it cannot join two characters,
and a closing bracket is itself when it comes first and another one follows.

- `readEscapedChar`: the character that an escape stands for.
- `ClassToken`, `nextClassToken`: the next part of a class.
- `ClassState`: what has been read of a class.
- `readClass`: reads a class up to its closing bracket.
-/

namespace Highlight

namespace Pattern

/-! ## Escapes -/

/-- The control character that a letter stands for after a backslash. -/
def controlEscape? (c : Char) : Option Nat :=
  if c = 'n' then some 10
  else if c = 't' then some 9
  else if c = 'r' then some 13
  else if c = 'f' then some 12
  else if c = 'a' then some 7
  else if c = 'b' then some 8
  else if c = 'e' then some 27
  else if c = 'v' then some 11
  else none

/-- The code of a control character. -/
def controlCode (code : Nat) : Nat := code &&& 0x9F

/-- The code of a byte with its highest bit set. -/
def metaCode (code : Nat) : Nat := (code &&& 0xFF) ||| 0x80

/-- Reads the character that an escape stands for, after the backslash: a control character by its
letter, `\\cx` or `\\C-x` for control, `\\M-x` for meta, and any other character for itself. -/
def readEscapedChar : List Char → Except PatternFault (Nat × List Char)
  | [] => .error .endAtEscape
  | ['M'] | ['M', '-'] => .error .endAtMeta
  | 'M' :: '-' :: '\\' :: rest => do
    let (code, rest) ← readEscapedChar rest
    return (metaCode code, rest)
  | 'M' :: '-' :: c :: rest => .ok (metaCode c.toNat, rest)
  | 'M' :: _ => .error .invalidMetaCode
  | ['c'] | ['C'] | ['C', '-'] => .error .endAtControl
  | 'C' :: '-' :: '?' :: rest => .ok (127, rest)
  | 'C' :: '-' :: '\\' :: rest => do
    let (code, rest) ← readEscapedChar rest
    return (controlCode code, rest)
  | 'C' :: '-' :: c :: rest => .ok (controlCode c.toNat, rest)
  | 'C' :: _ => .error .invalidControlCode
  | 'c' :: '?' :: rest => .ok (127, rest)
  | 'c' :: '\\' :: rest => do
    let (code, rest) ← readEscapedChar rest
    return (controlCode code, rest)
  | 'c' :: c :: rest => .ok (controlCode c.toNat, rest)
  | c :: rest => .ok ((controlEscape? c).getD c.toNat, rest)

/-- The set that a letter stands for after a backslash, inside and outside of classes. -/
def setEscape? (flags : Flags) (c : Char) : Option CharSet :=
  if c = 'w' then some (flags.setOf .word)
  else if c = 'W' then some (.complement (flags.setOf .word))
  else if c = 'd' then some (flags.setOf .decimal)
  else if c = 'D' then some (.complement (flags.setOf .decimal))
  else if c = 's' then some (flags.setOf .space)
  else if c = 'S' then some (.complement (flags.setOf .space))
  else if c = 'h' then some (.named .hexDigit)
  else if c = 'H' then some (.complement (.named .hexDigit))
  else none

/-- The sign of the property that a text after a backslash opens, and the text from the name on. -/
def propertyOpening? : List Char → Option (Bool × List Char)
  | 'p' :: '\x7b' :: '^' :: rest => some (true, rest)
  | 'p' :: '\x7b' :: rest => some (false, rest)
  | 'P' :: '\x7b' :: '^' :: rest => some (false, rest)
  | 'P' :: '\x7b' :: rest => some (true, rest)
  | _ => none

/-- Whether a character cannot be part of the name of a property. -/
def stopsPropertyName (c : Char) : Bool := c == '(' || c == ')' || c == '\x7b' || c == '|'

/-- Reads the name of a property and its closing brace. -/
def readProperty (flags : Flags) (negated : Bool) (cs : List Char) :
    Except PatternFault (CharSet × List Char) :=
  let name := cs.takeWhile fun c => c != '\x7d' && !stopsPropertyName c
  match cs.drop name.length with
  | '\x7d' :: rest =>
    match CharClass.ofPropertyName? name with
    | some cls => .ok (.negatedIf negated (flags.setOf cls), rest)
    | none => .error (.unknownProperty name)
  | _ => .error .unclosedGroup

/-! ## Parts of a class -/

/-- A part of a class. -/
inductive ClassToken where
  | eof
  | close
  | hyphen
  | conjunction
  | openClass
  /-- A bracket expression with its name. -/
  | bracket (negated : Bool) (name : List Char)
  | set (set : CharSet)
  | char (code : Nat)
  | code (code : NumericEscape)

/-- The part of a class that an escape stands for. `inRange` says that it ends a range. -/
def classEscape (flags : Flags) (inRange : Bool) :
    List Char → Except PatternFault (ClassToken × List Char)
  | [] => .error .endAtEscape
  | c :: rest => do
    match setEscape? flags c with
    | some set => return (.set set, rest)
    | none =>
      match propertyOpening? (c :: rest) with
      | some (negated, rest) =>
        let (set, rest) ← readProperty flags negated rest
        return (.set set, rest)
      | none =>
        match ← readCode? true inRange (c :: rest) with
        | some (code, rest) => return (.code code, rest)
        | none =>
          let (code, rest) ← readEscapedChar (c :: rest)
          return (.char code, rest)

/-- Reads a bracket expression after `[:`; none if the bracket opens a nested class. -/
def bracketName? (cs : List Char) : Option (Bool × List Char × List Char) :=
  let (negated, body) :=
    match cs with
    | '^' :: rest => (true, rest)
    | _ => (false, cs)
  let name := body.takeWhile Char.isAlpha
  match body.drop name.length with
  | ':' :: ']' :: rest => if name.isEmpty then none else some (negated, name, rest)
  | _ => none

/-- The next part of a class and the text after it. -/
def nextClassToken (flags : Flags) (inRange : Bool) :
    List Char → Except PatternFault (ClassToken × List Char)
  | [] => .ok (.eof, [])
  | ']' :: rest => .ok (.close, rest)
  | '-' :: rest => .ok (.hyphen, rest)
  | '\\' :: rest => classEscape flags inRange rest
  | '[' :: ':' :: rest =>
    match bracketName? rest with
    | some (negated, name, rest) => .ok (.bracket negated name, rest)
    | none => .ok (.openClass, ':' :: rest)
  | '[' :: rest => .ok (.openClass, rest)
  | '&' :: '&' :: rest => .ok (.conjunction, rest)
  | c :: rest => .ok (.char c.toNat, rest)

/-- The set of a bracket expression. -/
def bracketSet (flags : Flags) (negated : Bool) (name : List Char) : Except PatternFault CharSet :=
  match CharClass.bracketNames.lookup (String.ofList name) with
  | some cls => .ok (.negatedIf negated (flags.setOf cls))
  | none => .error .unknownBracketName

/-! ## Reading -/

/-- Where the reader of a class stands. -/
inductive ClassMode where
  | start
  | value
  | range
  | complete
deriving DecidableEq

/-- What was read last and can still begin a range. -/
inductive ClassValue where
  | none
  /-- A code; `wide` tells characters beyond ASCII from single bytes. -/
  | code (code : Nat) (wide : Bool)
  | set
deriving DecidableEq

/-- What has been read of a class: the operands of `&&` that are complete, the operand being read,
and the value read last, which is not yet part of it. -/
structure ClassState where
  earlier : Option CharSet
  set : CharSet
  mode : ClassMode
  last : ClassValue

namespace ClassState

/-- Nothing read yet. -/
def initial : ClassState := ⟨none, .empty, .start, .none⟩

/-- The set of codes from one to another. Of single bytes only those of ASCII are characters, and of
characters of several bytes none of those. -/
def rangeOf (first : Nat) (wideFirst : Bool) (last : Nat) (wideLast : Bool) : CharSet :=
  if wideFirst && wideLast then .range (max first 128) last
  else if wideFirst || wideLast then .range first last
  else .range first (min last 127)

/-- Adds the value read last to the set, if it is a character. -/
def flush (s : ClassState) : ClassState :=
  match s.mode, s.last with
  | .value, .code code wide => { s with set := .union s.set (rangeOf code wide code wide) }
  | _, _ => s

/-- Reads a character. -/
def addCode (s : ClassState) (code : Nat) (wide : Bool) : Except PatternFault ClassState :=
  match s.mode with
  | .range =>
    match s.last with
    | .code first wideFirst =>
      if code < first then .error .emptyRange
      else
        let range := rangeOf first wideFirst code wide
        .ok { s with set := .union s.set range, mode := .complete, last := .code code wide }
    | _ => .ok { s with mode := .complete, last := .code code wide }
  | .value => .ok { s.flush with last := .code code wide }
  | _ => .ok { s with mode := .value, last := .code code wide }

/-- Reads a character by its code. -/
def addChar (s : ClassState) (code : Nat) : Except PatternFault ClassState :=
  s.addCode code (128 ≤ code)

/-- Reads a class with a name. -/
def addSet (s : ClassState) (set : CharSet) : Except PatternFault ClassState :=
  if s.mode = .range then .error .classAtRangeEnd
  else
    let s := s.flush
    .ok { s with set := .union s.set set, mode := .value, last := .set }

/-- Reads a nested class. -/
def addClass (s : ClassState) (set : CharSet) : ClassState :=
  let s := s.flush
  { s with set := .union s.set set, mode := .complete }

/-- Begins the next operand of `&&`. -/
def conjoin (s : ClassState) : ClassState :=
  let s := s.flush
  let earlier :=
    match s.earlier with
    | none => s.set
    | some set => .inter set s.set
  ⟨some earlier, .empty, .start, s.last⟩

/-- The set that has been read. -/
def finish (s : ClassState) : CharSet :=
  let s := s.flush
  match s.earlier with
  | none => s.set
  | some set => .inter set s.set

end ClassState

/-- The bytes of one base at the front of a text, after the escape of the first byte. -/
def followingBytes (base : Base) : Nat → List Char → Except PatternFault (List Nat × List Char)
  | 0, cs => .ok ([], cs)
  | count + 1, '\\' :: cs => do
    match ← readCode? true false cs with
    | some (.byte base' value, rest) =>
      if base' = base then
        let (values, rest) ← followingBytes base count rest
        return (value :: values, rest)
      else throw .incompleteBytes
    | _ => throw .incompleteBytes
  | _, _ => .error .incompleteBytes

namespace ClassState

/-- Reads a byte, with the bytes after it when it begins a character of several. -/
def addByte (s : ClassState) (base : Base) (value : Nat) (cs : List Char) :
    Except PatternFault (ClassState × List Char) := do
  let length := sequenceLength value
  if length = 1 then return (← s.addCode value false, cs)
  else
    let (values, rest) ← followingBytes base (length - 1) cs
    return (← s.addCode (decodeBytes (value :: values)) true, rest)

/-- Reads codes and ranges of them. -/
def addParts (s : ClassState) : List CodePart → Except PatternFault ClassState
  | [] => .ok s
  | .code code :: parts => do addParts (← s.addChar code) parts
  | .hyphen :: parts => addParts { s with mode := .range } parts

/-- Reads a hyphen, which can join the value read last with the one that follows. -/
def addHyphen (s : ClassState) (flags : Flags) (cs : List Char) :
    Except PatternFault ClassState := do
  let (next, _) ← nextClassToken flags (s.mode = .value) cs
  match s.mode with
  | .value =>
    match next with
    | .close | .conjunction => s.addChar '-'.toNat
    | _ => if s.last = .set then throw .unmatchedRange else return { s with mode := .range }
  | _ => s.addChar '-'.toNat

end ClassState

/-- How deeply the parts of a pattern can be nested. -/
def mostNested : Nat := 4096

mutual

/-- Reads a class after its opening bracket, in at most the given number of steps. The answer says
whether the class is negated. -/
def readClass (flags : Flags) :
    Nat → Nat → List Char → Except PatternFault (Bool × CharSet × List Char)
  | 0, _, _ => .error .unclosedClass
  | steps + 1, depth, cs => do
    if mostNested ≤ depth then throw .nestedTooDeeply
    let (negated, cs) :=
      match cs with
      | '^' :: rest => (true, rest)
      | _ => (false, cs)
    let (set, rest) ←
      match cs with
      | ']' :: rest =>
        if rest.contains ']' then do
          readClassRest flags steps (depth + 1) (← ClassState.initial.addChar ']'.toNat) rest
        else throw .emptyClass
      | _ => readClassRest flags steps (depth + 1) .initial cs
    return (negated, set, rest)

/-- Reads the rest of a class up to its closing bracket. -/
def readClassRest (flags : Flags) :
    Nat → Nat → ClassState → List Char → Except PatternFault (CharSet × List Char)
  | 0, _, _, _ => .error .unclosedClass
  | steps + 1, depth, s, cs => do
    let (token, rest) ← nextClassToken flags (s.mode = .range) cs
    match token with
    | .eof => throw .unclosedClass
    | .close => return (s.finish, rest)
    | .hyphen => readClassRest flags steps depth (← s.addHyphen flags rest) rest
    | .conjunction => readClassRest flags steps depth s.conjoin rest
    | .openClass =>
      let (negated, set, rest) ← readClass flags steps depth rest
      readClassRest flags steps depth (s.addClass (.negatedIf negated set)) rest
    | .bracket negated name =>
      readClassRest flags steps depth (← s.addSet (← bracketSet flags negated name)) rest
    | .set set => readClassRest flags steps depth (← s.addSet set) rest
    | .char code => readClassRest flags steps depth (← s.addChar code) rest
    | .code (.parts parts) => readClassRest flags steps depth (← s.addParts parts) rest
    | .code (.byte base value) =>
      let (s, rest) ← s.addByte base value rest
      readClassRest flags steps depth s rest

end

end Pattern

end Highlight
