import Highlight.Pattern.Callout
import Highlight.Pattern.CaseVariant
import Highlight.Pattern.GroupName
import Highlight.Pattern.OpenGroup

/-!
# Reading patterns

A pattern is read from left to right in steps, each of which takes at least one character.

- `readEscape`: what a backslash begins.
- `readOptions`, `readGroup`: what an opening parenthesis begins.
- `step`, `readFrom`: the steps.
- `Draft`, `Draft.read`: a pattern as it was read, before references and calls are looked up.
-/

namespace Highlight

namespace Pattern

/-! ## Escapes -/

/-- Reads further escapes that give the bytes of one character. -/
def readBytes : Nat → List Char → Except PatternFault (List Nat × List Char)
  | 0, cs => .ok ([], cs)
  | count + 1, '\\' :: cs => do
    match ← readCode? false false cs with
    | some (.byte _ value, rest) =>
      let (values, rest) ← readBytes count rest
      return (value :: values, rest)
    | _ => throw .incompleteBytes
  | _, _ => .error .incompleteBytes

/-- The condition that a letter stands for after a backslash. -/
def anchorEscape? (flags : Flags) (c : Char) : Option Anchor :=
  let ascii := flags.limits .word
  if c = 'b' then some (.wordEdge ascii false)
  else if c = 'B' then some (.wordEdge ascii true)
  else if c = 'A' then some .textStart
  else if c = 'z' then some .textEnd
  else if c = 'Z' then some .lastLineEnd
  else if c = 'G' then some .searchStart
  else if c = 'y' then some (.clusterEdge false)
  else if c = 'Y' then some (.clusterEdge true)
  else none

/-- A line break of any kind. A carriage return with a newline is one, which is not taken apart. -/
def Node.lineBreak : Node :=
  .conditional (.text .exact [13, 10]) .empty
    (.one (.union (.range 10 13) (.union (.single 0x85) (.range 0x2028 0x2029))))

/-- A cluster of characters. -/
def Node.cluster : Node :=
  .atomic (.seq (.one .all)
    (.repeated .star (.seq (.anchor (.clusterEdge true)) (.one .all))))

/-- The part of a pattern that a letter stands for after a backslash, if it can be repeated. -/
def partEscape? (flags : Flags) (c : Char) : Option Node :=
  if c = 'R' then some .lineBreak
  else if c = 'X' then some .cluster
  else if c = 'N' then some (.one .inLine)
  else if c = 'O' then some (.one .all)
  else (setEscape? flags c).map .one

/-- The number of a back-reference that a text begins with after a backslash. A number of several
digits is one only when there are so many groups. -/
def backReference? (groupCount : Nat) (cs : List Char) : Option (Nat × List Char) :=
  match cs with
  | c :: _ =>
    if Text.isDigit c && c != '0' then
      let digits := cs.takeWhile Text.isDigit
      let number := Text.digitsValue digits
      if number ≤ 1000 && (number ≤ groupCount || number ≤ 9) then
        some (number, cs.drop digits.length)
      else none
    else none
  | [] => none

namespace ReaderState

/-- A reference to groups that are tried in a given order. -/
def referenceTo (s : ReaderState) (groups : List Nat) (level : Option Int) : BackReference :=
  let inside := groups.any fun g => s.openNumbers.contains g
  ⟨groups, s.flags.caseRule, inside, level⟩

/-- The groups that a name or number refers to, the last one opened first. -/
def referredGroups (s : ReaderState) : GroupTarget → Except PatternFault (List Nat)
  | .backward n => if s.groupCount < n then .error .invalidBackReference
    else .ok [s.groupCount + 1 - n]
  | .forward n => .ok [s.groupCount + n]
  | .number n => if n = 0 then .error .invalidBackReference else .ok [n]
  | .name name =>
    match (s.names.filter fun (other, _) => other == name).map (·.2) with
    | [] => .error (.undefinedName name)
    | groups => .ok groups

/-- Reads the name of a reference and the character that ends it. -/
def readReference (s : ReaderState) (stop : Char) (cs : List Char) :
    Except PatternFault (BackReference × List Char) := do
  let (target, _, level, rest) ← readReferenceName stop cs
  return (s.referenceTo (← s.referredGroups target) level, rest)

/-- What a call calls. A number can be a distance. -/
def callTarget (s : ReaderState) (written : List Char) :
    GroupTarget → Except PatternFault CallTarget
  | .name name => .ok (.name name)
  | .number n => .ok (.number n written)
  | .forward n => .ok (.number (s.groupCount + n) written)
  | .backward n =>
    if s.groupCount + 1 < n then .error (.undefinedGroup written)
    else .ok (.number (s.groupCount + 1 - n) written)

end ReaderState

/-- Reads an escape that stands for a character, a property, a reference or a call. -/
def readOtherEscape (s : ReaderState) (cs : List Char) :
    Except PatternFault (ReaderState × List Char) := do
  match propertyOpening? cs with
  | some (negated, rest) =>
    let (set, rest) ← readProperty s.flags negated rest
    return (s.push (.one set), rest)
  | none =>
    match ← readCode? false false cs with
    | some (.parts parts, rest) =>
      let s := parts.foldl (fun s part =>
        match part with
        | .code code => s.pushCode code
        | .hyphen => s) s
      return (s, rest)
    | some (.byte _ value, rest) =>
      let (values, rest) ← readBytes (sequenceLength value - 1) rest
      return (s.pushCode (← codeOfBytes (value :: values)), rest)
    | none =>
      match cs with
      | 'k' :: '<' :: rest =>
        let (r, rest) ← s.readReference '>' rest
        return (s.push (.reference r), rest)
      | 'k' :: '\'' :: rest =>
        let (r, rest) ← s.readReference '\'' rest
        return (s.push (.reference r), rest)
      | 'g' :: '<' :: rest =>
        let (target, written, rest) ← readCallName '>' rest
        return (s.push (.call (← s.callTarget written target)), rest)
      | 'g' :: '\'' :: rest =>
        let (target, written, rest) ← readCallName '\'' rest
        return (s.push (.call (← s.callTarget written target)), rest)
      | _ =>
        let (code, rest) ← readEscapedChar cs
        return (s.pushCode code, rest)

/-- Reads an escape after its backslash. -/
def readEscape (s : ReaderState) (cs : List Char) :
    Except PatternFault (ReaderState × List Char) :=
  match cs with
  | [] => .error .endAtEscape
  | c :: rest =>
    match partEscape? s.flags c, anchorEscape? s.flags c, backReference? s.groupCount cs with
    | some node, _, _ => .ok (s.push node, rest)
    | none, some anchor, _ => .ok (s.pushFixed (.anchor anchor), rest)
    | none, none, some (number, rest) =>
      .ok (s.push (.reference (s.referenceTo [number] none)), rest)
    | none, none, none =>
      if c = 'K' then .ok (s.pushFixed .keep, rest) else readOtherEscape s cs

/-! ## Groups -/

/-- The text after a comment, from behind `(?#` on. -/
def skipComment : List Char → Except PatternFault (List Char)
  | [] => .error .endInGroup
  | ['\\'] => .error .endInGroup
  | '\\' :: _ :: rest => skipComment rest
  | ')' :: rest => .ok rest
  | _ :: rest => skipComment rest

/-- An option that a letter stands for in a group, switched on or off. -/
def setOption? (flags : Flags) (on : Bool) (c : Char) : Option Flags :=
  if c = 'i' then some { flags with ignoreCase := on }
  else if c = 'm' then some { flags with dotAll := on }
  else if c = 'x' then some { flags with extended := on }
  else if c = 'W' then some { flags with asciiWord := on }
  else if c = 'D' then some { flags with asciiDigit := on }
  else if c = 'S' then some { flags with asciiSpace := on }
  else if c = 'P' then some { flags with asciiClasses := on }
  else none

/-- The options that hold for the whole pattern, and can be set only at its very beginning. -/
structure WholeOptions where
  asciiCase : Bool
  longest : Bool
  noCapture : Bool
deriving DecidableEq

/-- No option for the whole pattern. -/
def WholeOptions.none : WholeOptions := ⟨false, false, false⟩

/-- An option for the whole pattern that a letter stands for. -/
def setWholeOption? (whole : WholeOptions) (on : Bool) (c : Char) : Option WholeOptions :=
  if c = 'I' then some { whole with asciiCase := on }
  else if c = 'L' then some { whole with longest := on }
  else if c = 'C' then some { whole with noCapture := on }
  else none

/-- Sets options for the rest of a group. -/
def applyOptions (s : ReaderState) (flags : Flags) (whole : WholeOptions) :
    Except PatternFault ReaderState :=
  if whole = .none then s.openGroup .rest flags
  else if !s.isInitial then .error .misplacedOption
  else if whole.noCapture then .error .conflictingOptions
  else
    { s with longest := whole.longest }.openGroup .rest { flags with asciiCase := whole.asciiCase }

/-- Reads options after `(?`: letters, of which those after a hyphen are switched off, up to a
colon, which begins a group, or a closing parenthesis. -/
def readOptions (s : ReaderState) (off : Bool) (flags : Flags) (whole : WholeOptions) :
    List Char → Except PatternFault (ReaderState × List Char)
  | [] => .error .endInGroup
  | ')' :: rest => do return (← applyOptions s flags whole, rest)
  | ':' :: rest =>
    if whole = .none then do return (← s.openGroup .options flags, rest)
    else .error .misplacedOption
  | '-' :: rest => readOptions s true flags whole rest
  | ['y'] | ['y', '\x7b'] | ['y', '\x7b', 'g'] | ['y', '\x7b', 'w'] =>
    .error (if off then .unknownGroupOption else .endInGroup)
  | 'y' :: '\x7b' :: c :: '\x7d' :: rest =>
    if off || !(c == 'g' || c == 'w') then .error .unknownGroupOption
    else readOptions s off flags whole rest
  | c :: rest =>
    match setOption? flags (!off) c, setWholeOption? whole (!off) c with
    | some flags, _ => readOptions s off flags whole rest
    | none, some whole => readOptions s off flags whole rest
    | none, none => .error .unknownGroupOption

/-- Opens a capture group with a name. -/
def readNamedGroup (s : ReaderState) (stop : Char) (cs : List Char) :
    Except PatternFault (ReaderState × List Char) := do
  let (name, rest) ← readGroupName stop cs
  let s ← s.openCapture
  return ({ s with names := (name, s.groupCount) :: s.names }, rest)

/-- Reads the condition of a choice after its opening parenthesis. A name or number asks whether a
group took part. -/
def readCondition (s : ReaderState) (cs : List Char) :
    Except PatternFault (ReaderState × List Char) := do
  let asPattern : Except PatternFault (ReaderState × List Char) := do
    return (← s.openGroup .condition s.flags, cs)
  let named (stop : Char) (cs : List Char) : Except PatternFault (ReaderState × List Char) := do
    let (r, rest) ← s.readReference stop cs
    match rest with
    | ')' :: rest => s.openBranches (.taken r) (some (.taken r)) rest
    | _ => throw .endInGroup
  match cs with
  | [] | [_] => throw .endInGroup
  | '<' :: rest => named '>' rest
  | '\'' :: rest => named '\'' rest
  | '?' :: '\x7b' :: rest =>
    let (node, rest) ← readContents rest
    s.openBranches node none rest
  | '*' :: rest =>
    let (node, rest) ← readCallout rest
    s.openBranches node none rest
  | c :: _ =>
    if Text.isDigit c || c = '-' || c = '+' then
      match readReferenceName ')' cs with
      | .ok (target, _, level, rest) =>
        let r := s.referenceTo (← s.referredGroups target) level
        s.openBranches (.taken r) (some (.taken r)) rest
      | .error _ => asPattern
    else asPattern

/-- Reads the opening of a group after `(?`. -/
def readGroup (s : ReaderState) (cs : List Char) : Except PatternFault (ReaderState × List Char) :=
  match cs with
  | [] => .error .endInGroup
  | ':' :: rest => do return (← s.openPlain, rest)
  | '=' :: rest => do return (← s.openGroup (.ahead false) s.flags, rest)
  | '!' :: rest => do return (← s.openGroup (.ahead true) s.flags, rest)
  | '>' :: rest => do return (← s.openGroup .atomic s.flags, rest)
  | '#' :: rest => (skipComment rest).map (s, ·)
  | '\'' :: rest => readNamedGroup s '\'' rest
  | ['<'] => .error .unclosedGroup
  | '<' :: '=' :: rest => do return (← s.openGroup (.behind false) s.flags, rest)
  | '<' :: '!' :: rest => do return (← s.openGroup (.behind true) s.flags, rest)
  | '<' :: rest => readNamedGroup s '>' rest
  | ['~'] | ['~', '|'] => .error .endInGroup
  | '~' :: '|' :: ')' :: rest =>
    .ok ({ s with slots := s.slots + absentSlots }.push (absentNoMore s.slots), rest)
  | '~' :: '|' :: rest => do return (← s.openAbsent true, rest)
  | '~' :: rest => do return (← s.openAbsent false, rest)
  | '\x7b' :: rest => do
    let (node, rest) ← readContents rest
    return (s.pushFixed node, rest)
  | '(' :: rest => readCondition s rest
  | c :: rest => readOptions s false s.flags .none (c :: rest)

/-! ## Steps -/

/-- Whether a character is skipped between the parts of an extended pattern. -/
def isFiller (c : Char) : Bool :=
  c == ' ' || c == '\t' || c == '\n' || c == '\r' || c.toNat == 12

/-- Reads the next part of a pattern, which begins with the character `c`. -/
def step (s : ReaderState) (c : Char) (rest : List Char) :
    Except PatternFault (ReaderState × List Char) := do
  let repeated (plain lazily : Repetition) : Except PatternFault (ReaderState × List Char) := do
    let (isLazy, possessive, rest) := readManner rest
    return (← s.repeatLast (if isLazy then lazily else plain) possessive, rest)
  match c with
  | '\\' => readEscape s rest
  | '.' => return (s.push (.one (if s.flags.dotAll then .all else .inLine)), rest)
  | '^' => return (s.pushFixed (.anchor .lineStart), rest)
  | '$' => return (s.pushFixed (.anchor .lineEnd), rest)
  | '|' => return ({ s with current := s.current.nextAlternative }, rest)
  | ')' => s.close rest
  | '*' => repeated .star .lazyStar
  | '+' => repeated .plus .lazyPlus
  | '?' => repeated .opt .lazyOpt
  | '[' =>
    let (negated, set, rest) ← readClass s.flags (2 * rest.length + 2) s.depth rest
    return (s.push (classNode s.flags.caseRule negated set), rest)
  | '(' =>
    match rest with
    | [] => throw .unclosedGroup
    | '?' :: rest => readGroup s rest
    | '*' :: rest =>
      let (node, rest) ← readCallout rest
      return (s.pushFixed node, rest)
    | rest => return (← s.openCapture, rest)
  | '\x7b' =>
    match ← readInterval? rest with
    | some (times, possessive, rest) => return (← s.repeatLast times possessive, rest)
    | none => return (s.pushCode c.toNat, rest)
  | _ =>
    if s.flags.extended && isFiller c then return (s, rest)
    else if s.flags.extended && c = '#' then
      return (s, (rest.dropWhile (· != '\n')).drop 1)
    else return (s.pushCode c.toNat, rest)

/-- Reads the rest of a pattern in at most the given number of steps. -/
def readFrom : Nat → ReaderState → List Char → Except PatternFault ReaderState
  | _, s, [] => .ok s
  | 0, s, _ => .ok s
  | steps + 1, s, c :: rest => do
    let (s, rest) ← step s c rest
    readFrom steps s rest

/-- A pattern as it was read. -/
structure Draft where
  node : Node
  /-- The number of capture groups, the whole match not counted. -/
  groupCount : Nat
  names : List (List Char × Nat)
  longest : Bool

/-- Reads a pattern. -/
def Draft.read (cs : List Char) : Except PatternFault Draft := do
  let s ← readFrom cs.length .initial cs
  return ⟨← s.finish, s.groupCount, s.names, s.longest⟩

end Pattern

end Highlight
