import Highlight.Pattern.Class
import Highlight.Pattern.Node

/-!
# Patterns while they are read

The groups that are open are kept on a stack, so that a pattern is read in one loop. Closing a group
makes it a part of the sequence around it.

- `GroupKind`, `Part`, `OpenGroup`, `ReaderState`: what has been read.
- `Node.ofParts`: a sequence of parts, with texts in a row put together.
- `OpenGroup.close`: a group as a part of the sequence around it.
- `ReaderState.push`, `ReaderState.repeatLast`, `ReaderState.openGroup`, `ReaderState.close`,
  `ReaderState.finish`: adding a part, repeating one, and opening and closing groups.
-/

namespace Highlight

namespace Pattern

/-- What a group is for. -/
inductive GroupKind where
  /-- The whole pattern. -/
  | whole
  | capture (number : Nat)
  /-- `head` says that the group is the very first part of another one that takes no text. -/
  | plain (head : Bool)
  /-- A group with options of its own. -/
  | options
  /-- The rest of a group after options were set in it. -/
  | rest
  | atomic
  | ahead (negated : Bool)
  | behind (negated : Bool)
  /-- Text without a match of the group. `split` says that its first alternative is what is absent,
  and the others are what is matched; `slot` is the first of its bookmarks. -/
  | absent (split : Bool) (slot : Nat)
  /-- The condition of a choice. -/
  | condition
  /-- What is matched when a condition holds and when not. `onlyNo` says that there is nothing to
  match when it holds. -/
  | branches (condition : Node) (onlyNo : Bool)
deriving DecidableEq

/-- A part of a sequence. -/
structure Part where
  node : Node
  repeatable : Bool
  /-- Whether the part stands apart from its neighbours unless it is repeated. -/
  apart : Bool
  /-- How many times in a row the part has been repeated. -/
  repeats : Nat

namespace Part

/-- A part that has not been repeated. -/
def of (node : Node) (repeatable : Bool) : Part := ⟨node, repeatable, false, 0⟩

/-- The part as it stands in its sequence. -/
def standing (p : Part) : Node := if p.apart then .plain p.node else p.node

end Part

/-- The trees with neighbouring texts put together, where case counts alike in both. -/
def joinTexts : List Node → List Node
  | [] => []
  | n :: rest =>
    match n, joinTexts rest with
    | .text r as, .text r' bs :: rest' =>
      if r = r' then .text r (as ++ bs) :: rest' else .text r as :: .text r' bs :: rest'
    | n, rest' => n :: rest'

/-- The sequence of some trees. Sequences among them, but for the first, lose their bounds. -/
def Node.ofParts : List Node → Node
  | [] => .empty
  | first :: rest => .ofSequence (joinTexts (first :: rest.flatMap Node.toSequence))

/-- A group that has been opened: its alternatives but the last, and the parts of the last, both
last first. -/
structure OpenGroup where
  kind : GroupKind
  /-- The options outside of the group. -/
  outerFlags : Flags
  alternatives : List Part
  parts : List Part

namespace OpenGroup

/-- The last alternative. It can be repeated unless it is a single part that cannot. -/
def lastAlternative (g : OpenGroup) : Part :=
  match g.parts with
  | [part] => .of part.standing part.repeatable
  | parts => .of (.ofParts (parts.reverse.map Part.standing)) true

/-- All alternatives, in their order. -/
def allAlternatives (g : OpenGroup) : List Part := (g.lastAlternative :: g.alternatives).reverse

/-- The group's alternatives together. -/
def body (g : OpenGroup) : Node := .ofAlternatives (g.allAlternatives.map Part.node)

/-- Whether nothing has been read of a group. -/
def isEmpty (g : OpenGroup) : Bool := g.alternatives.isEmpty && g.parts.isEmpty

/-- Whether a group without text of its own that is opened now is the very first part of another
one. -/
def atHead (g : OpenGroup) : Bool :=
  g.isEmpty &&
    match g.kind with
    | .plain _ | .absent _ _ | .branches _ _ => true
    | _ => false

/-- Adds a part at the end of the last alternative. -/
def push (g : OpenGroup) (p : Part) : OpenGroup := { g with parts := p :: g.parts }

/-- Begins another alternative. -/
def nextAlternative (g : OpenGroup) : OpenGroup :=
  { g with alternatives := g.lastAlternative :: g.alternatives, parts := [] }

end OpenGroup

/-! ## Text without a match -/

/-- Characters one by one, each of which must not let a match of `absent` begin that is over before
the end of the text: where one begins, the end is moved to where it began. -/
def absentLoop (absent step : Node) (times : Repetition) (possessive lasting : Bool) (slot : Nat) :
    Node :=
  let found := Node.ofSequence
    [.bookmark false (.savePlace (slot + 1)), absent,
      .bookmark lasting (.limitToPlace (slot + 1)), .never]
  let loop := Node.repeated times (.alt found step.asLast)
  .alt (if possessive then .atomic loop else loop)
    (.seq (.bookmark false (.restoreLimit slot)) .never)

/-- The repeated set of a tree that is nothing but one, and whether it is possessive. -/
def repeatedOne? : Node → Option (Repetition × Node × Bool)
  | .repeated times (.one set) => if times.lazy then none else some (times, .one set, false)
  | .repeated times (.text rule [code]) =>
    if times.lazy then none else some (times, .text rule [code], false)
  | .atomic (.repeated times (.one set)) =>
    if times.lazy then none else some (times, .one set, true)
  | .atomic (.repeated times (.text rule [code])) =>
    if times.lazy then none else some (times, .text rule [code], true)
  | _ => none

/-- Text for which one character is repeated and which has no match of `absent`. -/
def absentRepeat (absent step : Node) (times : Repetition) (possessive : Bool) (slot : Nat) : Node :=
  .ofSequence
    [.bookmark false (.saveLimit slot), absentLoop absent step times possessive false slot,
      .bookmark false (.restoreLimit slot)]

/-- Text without a match of `absent`. -/
def absentText (absent : Node) (slot : Nat) : Node :=
  absentRepeat absent (.one .all) .star false slot

/-- Text that another tree matches and that has no match of `absent`. -/
def absentWithin (absent body : Node) (slot : Nat) : Node :=
  match repeatedOne? body with
  | some (times, step, possessive) => absentRepeat absent step times possessive slot
  | none =>
    .ofSequence
      [.bookmark false (.saveLimit slot), .bookmark false (.savePlace (slot + 2)),
        absentLoop absent (.one .all) .star true false slot,
        .bookmark false (.restorePlace (slot + 2)), body, .bookmark false (.saveLimit (slot + 3)),
        .alt (.bookmark false (.restoreLimit slot))
          (.seq (.bookmark false (.restoreLimit (slot + 3))) .never)]

/-- The end of the text from here on is in front of the first match of `absent`. -/
def absentFromHere (absent : Node) (slot : Nat) : Node :=
  .seq (.bookmark false (.saveLimit slot)) (absentLoop absent (.one .all) .star true true slot)

/-- The end of the text from here on is its real end. -/
def absentNoMore (slot : Nat) : Node :=
  .seq (.bookmark false (.saveLimit slot))
    (.alt (.bookmark true .clearLimit) (.seq (.bookmark false (.restoreLimit slot)) .never))

/-- A group for absent text. -/
def absentGroup (split : Bool) (slot : Nat) (body : Node) : Node :=
  match split, body with
  | false, body => absentText body slot
  | true, .alt absent rest => absentWithin absent rest slot
  | true, absent => absentFromHere absent slot

/-- How many bookmarks a group for absent text has. -/
def absentSlots : Nat := 4

/-! ## Closing -/

/-- What closing a group makes. -/
inductive Closed where
  | part (p : Part)
  /-- The condition of a choice, whose branches follow. -/
  | condition (node : Node)

/-- The choice that a condition makes between the alternatives of a group. -/
def branch (condition : Node) (onlyNo : Bool) (body : Node) : Node :=
  match onlyNo, body with
  | true, body => .conditional condition .empty body
  | false, .alt yes no => .conditional condition yes no
  | false, yes => .conditional condition yes .empty

namespace OpenGroup

/-- What the group makes when it is closed. -/
def close (g : OpenGroup) : Closed :=
  let body := g.body
  match g.kind with
  | .capture number => .part (.of (.group number body) true)
  | .plain head =>
    .part ⟨body, head || g.allAlternatives.all Part.repeatable, head, 0⟩
  | .whole | .options | .rest => .part (.of (.plain body) true)
  | .atomic => .part (.of (.atomic body) true)
  | .ahead negated => .part (.of (.ahead negated body) false)
  | .behind negated => .part (.of (.behind negated .unknown body) false)
  | .absent split slot => .part (.of (absentGroup split slot body) true)
  | .condition => .condition body
  | .branches condition onlyNo => .part (.of (branch condition onlyNo body) true)

end OpenGroup

/-! ## The state of the reader -/

/-- What has been read of a pattern: the group being read, the groups around it from the inside out,
the options in force, and the capture groups so far. -/
structure ReaderState where
  current : OpenGroup
  outer : List OpenGroup
  flags : Flags
  /-- How deeply what is read now is nested. -/
  depth : Nat
  groupCount : Nat
  names : List (List Char × Nat)
  /-- How many bookmarks there are so far. -/
  slots : Nat
  /-- Whether the longest match is searched for instead of the first one. -/
  longest : Bool

namespace ReaderState

/-- Nothing read yet. -/
def initial : ReaderState := ⟨⟨.whole, .none, [], []⟩, [], .none, 2, 0, [], 0, false⟩

/-- Whether nothing has been read yet. -/
def isInitial (s : ReaderState) : Bool := s.outer.isEmpty && s.current.isEmpty

/-- Adds a part. -/
def pushPart (s : ReaderState) (part : Part) : ReaderState :=
  { s with current := s.current.push part }

/-- Adds a tree that can be repeated. -/
def push (s : ReaderState) (node : Node) : ReaderState := s.pushPart (.of node true)

/-- Adds a tree that cannot be repeated. -/
def pushFixed (s : ReaderState) (node : Node) : ReaderState := s.pushPart (.of node false)

/-- Adds a character by its code. -/
def pushCode (s : ReaderState) (code : Nat) : ReaderState :=
  s.push (.text s.flags.caseRule [code])

/-- The groups that are still open. -/
def openNumbers (s : ReaderState) : List Nat :=
  (s.current :: s.outer).filterMap fun g =>
    match g.kind with
    | .capture number => some number
    | _ => none

/-- Opens a group, in which the given options hold. -/
def openGroup (s : ReaderState) (kind : GroupKind) (flags : Flags) :
    Except PatternFault ReaderState :=
  if mostNested < s.depth + 2 then .error .nestedTooDeeply
  else
    .ok { s with
      current := ⟨kind, s.flags, [], []⟩
      outer := s.current :: s.outer
      flags := flags
      depth := s.depth + 2 }

/-- Opens a group that takes no text of its own. -/
def openPlain (s : ReaderState) : Except PatternFault ReaderState :=
  s.openGroup (.plain s.current.atHead) s.flags

/-- Opens a capture group. -/
def openCapture (s : ReaderState) : Except PatternFault ReaderState :=
  let number := s.groupCount + 1
  { s with groupCount := number }.openGroup (.capture number) s.flags

/-- Opens a group for absent text. -/
def openAbsent (s : ReaderState) (split : Bool) : Except PatternFault ReaderState :=
  { s with slots := s.slots + absentSlots }.openGroup (.absent split s.slots) s.flags

/-- Goes back to the group around the one that is read. -/
def leave (s : ReaderState) (g : OpenGroup) (outer : List OpenGroup) : ReaderState :=
  { s with current := g, outer := outer, flags := s.current.outerFlags, depth := s.depth - 2 }

/-- Closes the rests of groups that options opened, from the inside out. -/
def closeRests (s : ReaderState) : List OpenGroup → ReaderState
  | [] => s
  | g :: outer =>
    if s.current.kind = .rest then
      closeRests ((s.leave g outer).push (.plain s.current.body)) outer
    else s

/-- Decides what follows a condition, of which `rest` has not been read. A condition alone stands
only where `alone` gives a tree for it. -/
def openBranches (s : ReaderState) (condition : Node) (alone : Option Node) (rest : List Char) :
    Except PatternFault (ReaderState × List Char) :=
  match rest with
  | [] => .error .endInGroup
  | ')' :: rest =>
    match alone with
    | some node => .ok (s.push node, rest)
    | none => .error .invalidCondition
  | '|' :: rest => do return (← s.openGroup (.branches condition true) s.flags, rest)
  | _ => do return (← s.openGroup (.branches condition false) s.flags, rest)

/-- Reads a closing parenthesis, after which `rest` follows. -/
def close (s : ReaderState) (rest : List Char) : Except PatternFault (ReaderState × List Char) :=
  let s := s.closeRests s.outer
  match s.outer with
  | [] => .error .unopenedGroup
  | g :: outer =>
    match s.current.close with
    | .part part => .ok ((s.leave g outer).pushPart part, rest)
    | .condition node => (s.leave g outer).openBranches node none rest

/-- The tree that has been read, at the end of the pattern. -/
def finish (s : ReaderState) : Except PatternFault Node :=
  let s := s.closeRests s.outer
  match s.outer with
  | [] => .ok s.current.body
  | _ :: _ => .error .unclosedGroup

end ReaderState

/-! ## Repeating -/

/-- A repetition of a tree. Once is no repetition. -/
def repeatNode (times : Repetition) (body : Node) : Except PatternFault Node :=
  match body with
  | .repeated inner core => do
    match ← times.nest inner with
    | .single times => return .repeated times core
    | .both outer inner => return .repeated outer (.repeated inner core)
  | _ => .ok (.repeated times body)

namespace ReaderState

/-- Repeats the part read last. -/
def repeatLast (s : ReaderState) (times : Repetition) (possessive : Bool) :
    Except PatternFault ReaderState :=
  match s.current.parts with
  | [] => .error .missingRepeatTarget
  | p :: parts =>
    if !p.repeatable then .error .invalidRepeatTarget
    else if mostNested < s.depth + p.repeats + 1 then .error .nestedTooDeeply
    else if times.least = 1 && times.most = some 1 then
      .ok { s with
        current := { s.current with parts := { p with repeats := p.repeats + 1 } :: parts } }
    else do
      let node ← repeatNode times p.node
      let node := if possessive then .atomic node else node
      return { s with
        current := { s.current with parts := ⟨node, true, false, p.repeats + 1⟩ :: parts } }

end ReaderState

end Pattern

end Highlight
