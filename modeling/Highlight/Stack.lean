import Highlight.Grammar.Linking
import Highlight.Json.Writer

/-!
# Stacks

What is left open at the end of a line: one frame for each region that began and has not ended, and
at the bottom one for the grammar itself. With the stack, tokenizing can go on from any line.

- `Frame`: a region that is open.
- `Stack`: the open regions. The bottom frame is part of the type, so it is never removed.
- `Stack.push`, `Stack.pop`, `Stack.mapTop`, `Stack.endLine`: changing a stack.
- `Stack.frames_push`, `Stack.pop_push`: a frame is put on top, and removed from there.
- `Stack.toJson`, `Stack.ofJson?`: the kept form.
- `Stack.text`, `Stack.ofText?`: the kept form as a text.
- `Stack.debugText`: the form for a programmer.
-/

namespace Highlight

/-- A region that is open. -/
structure Frame where
  /-- The rule that opened the region. -/
  rule : RuleRef
  /-- The scopes of the two ends of the region. -/
  nameScopes : List Scope
  /-- The scopes of what lies between them. -/
  contentScopes : List Scope
  /-- The pattern that ends the region or keeps it going, when captured text was filled in. -/
  endPattern : Option (List Char)
  /-- The offset that the search which opened the region began at, for a region that was opened on
  the line being tokenized. -/
  entered : Option Nat
deriving DecidableEq

/-- The regions that are open at the end of a line. -/
structure Stack where
  bottom : Frame
  /-- The frames above the bottom one, the innermost first. -/
  above : List Frame
  /-- Whether the next line is the first one of the document. -/
  firstLine : Bool
deriving DecidableEq

namespace Stack

/-- The stack in front of a document, for the grammar at a path. -/
def initial (grammar : String) (scope : Scope) : Stack :=
  ⟨⟨⟨grammar, rootRule⟩, [scope], [scope], none, none⟩, [], true⟩

/-- The frames from the bottom one on. -/
def frames (s : Stack) : List Frame := s.bottom :: s.above.reverse

/-- The number of frames. -/
def depth (s : Stack) : Nat := s.above.length + 1

/-- The innermost frame. -/
def top (s : Stack) : Frame := s.above.head?.getD s.bottom

/-- The scopes of text that nothing matches. -/
def scopes (s : Stack) : List Scope := s.top.contentScopes

/-- The stack with another frame. -/
def push (s : Stack) (f : Frame) : Stack := { s with above := f :: s.above }

/-- The stack with a frame for a rule whose two ends and content have the same scopes. -/
def pushRegion (s : Stack) (rule : RuleRef) (entered : Nat) (scopes : List Scope) : Stack :=
  s.push ⟨rule, scopes, scopes, none, some entered⟩

/-- The stack without its innermost frame; the bottom frame stays. -/
def pop (s : Stack) : Stack := { s with above := s.above.tail }

/-- The frame that `pop` removes. -/
def popped? (s : Stack) : Option Frame := s.above.head?

/-- The stack with its innermost frame changed. -/
def mapTop (s : Stack) (change : Frame → Frame) : Stack :=
  match s.above with
  | [] => { s with bottom := change s.bottom }
  | f :: rest => { s with above := change f :: rest }

/-- The stack with other scopes for the content of its innermost frame. -/
def withContent (s : Stack) (scopes : List Scope) : Stack :=
  s.mapTop fun f => { f with contentScopes := scopes }

/-- The stack with a pattern for the end of its innermost frame. -/
def withEndPattern (s : Stack) (pattern : List Char) : Stack :=
  s.mapTop fun f => { f with endPattern := some pattern }

/-- The stack at the end of a line: offsets mean nothing on the next one. -/
def endLine (s : Stack) : Stack :=
  let forget := fun (f : Frame) => { f with entered := none }
  ⟨forget s.bottom, s.above.map forget, false⟩

@[simp] theorem length_frames (s : Stack) : s.frames.length = s.depth := by
  simp [frames, depth]

/-- There is always a frame, that of the grammar. -/
theorem depth_pos (s : Stack) : 0 < s.depth := Nat.succ_pos _

@[simp] theorem frames_push (s : Stack) (f : Frame) : (s.push f).frames = s.frames ++ [f] := by
  simp [frames, push]

@[simp] theorem depth_push (s : Stack) (f : Frame) : (s.push f).depth = s.depth + 1 := by
  simp [depth, push]

@[simp] theorem top_push (s : Stack) (f : Frame) : (s.push f).top = f := rfl

@[simp] theorem pop_push (s : Stack) (f : Frame) : (s.push f).pop = s := rfl

/-- The bottom frame is never taken away. -/
theorem depth_pop (s : Stack) : s.pop.depth = max 1 (s.depth - 1) := by
  simp only [depth, pop, List.length_tail]
  omega

@[simp] theorem depth_mapTop (s : Stack) (change : Frame → Frame) :
    (s.mapTop change).depth = s.depth := by
  unfold mapTop
  split
  · rfl
  · rename_i h
    simp [depth, h]

/-- No region ends with the line. -/
@[simp] theorem depth_endLine (s : Stack) : s.endLine.depth = s.depth := by
  simp [depth, endLine]

end Stack

/-! ## The kept form -/

namespace RuleRef

/-- The kept form of a reference to a rule. -/
def toJson (r : RuleRef) : Json :=
  .ofFields [("grammar", .ofString r.grammar), ("rule", .ofNat r.rule)]

/-- Reads the kept form of a reference to a rule. Numbers of rules have 32 bits. -/
def ofJson? (j : Json) : Option RuleRef := do
  let fields ← j.record? ["grammar", "rule"]
  let grammar ← Json.required Json.string? "grammar" fields
  let rule ← Json.required Json.nat? "rule" fields
  if rule < UInt32.size then return ⟨grammar, rule⟩ else none

end RuleRef

namespace Frame

/-- Reads a list of scopes. -/
def scopesOfJson? (j : Json) : Option (List Scope) := do
  let items ← j.items?
  items.mapM fun item => do (Scope.ofText (← item.string?)).toOption

/-- The kept form of a frame. A frame without a filled-in pattern has no field for it, and the
offset is not kept. -/
def toJson (f : Frame) : Json :=
  .ofFields ([("rule", f.rule.toJson),
    ("name_scopes", .ofStrings (f.nameScopes.map Scope.text)),
    ("content_scopes", .ofStrings (f.contentScopes.map Scope.text))]
    ++ match f.endPattern with
      | some pattern => [("end_pattern", .ofString (String.ofList pattern))]
      | none => [])

/-- Reads the kept form of a frame. -/
def ofJson? (j : Json) : Option Frame := do
  let fields ← j.record? ["rule", "name_scopes", "content_scopes", "end_pattern"]
  let rule ← Json.required RuleRef.ofJson? "rule" fields
  let nameScopes ← Json.required scopesOfJson? "name_scopes" fields
  let contentScopes ← Json.required scopesOfJson? "content_scopes" fields
  let endPattern ← Json.optional Json.string? "end_pattern" fields
  return ⟨rule, nameScopes, contentScopes, endPattern.map String.toList, none⟩

end Frame

namespace Stack

/-- The kept form of a stack. -/
def toJson (s : Stack) : Json :=
  .ofFields [("frames", .array (s.frames.map Frame.toJson)), ("first_line", .bool s.firstLine)]

/-- Reads the kept form of a stack, which has at least one frame. -/
def ofJson? (j : Json) : Option Stack := do
  let fields ← j.record? ["frames", "first_line"]
  let items ← Json.required Json.items? "frames" fields
  let frames ← items.mapM Frame.ofJson?
  let firstLine ← Json.required Json.bool? "first_line" fields
  match frames with
  | [] => none
  | bottom :: above => return ⟨bottom, above.reverse, firstLine⟩

/-- The text that a stack is kept as. -/
def text (s : Stack) : String := s.toJson.text

/-- Reads the text that a stack was kept as. -/
def ofText? (text : String) : Option Stack := (Json.ofText? text).bind ofJson?

/-! ## The form for a programmer -/

/-- A list of scopes in brackets. -/
def bracketed (scopes : List Scope) : String :=
  "[" ++ ", ".intercalate (scopes.map Scope.text) ++ "]"

/-- One line for a frame at a depth. The name is left out when it has no scopes, and the content when
it has the same scopes as the name. -/
def frameText (depth : Nat) (f : Frame) : String :=
  String.join (List.replicate depth "  ")
    ++ "grammar=" ++ f.rule.grammar ++ ", rule=" ++ toString f.rule.rule
    ++ (if f.nameScopes.isEmpty then "" else " name=" ++ bracketed f.nameScopes)
    ++ (if f.contentScopes = f.nameScopes then "" else ", content=" ++ bracketed f.contentScopes)
    ++ (match f.endPattern with
      | some pattern => ", end_pattern=\"" ++ String.ofList pattern ++ "\""
      | none => "")
    ++ (match f.entered with
      | some offset => ", enter_pos=" ++ toString offset
      | none => "")
    ++ "\n"

/-- The frames from the one at a depth on, one on each line. -/
def framesText (depth : Nat) : List Frame → String
  | [] => ""
  | f :: rest => frameText depth f ++ framesText (depth + 1) rest

/-- The stack as it is shown to a programmer. -/
def debugText (s : Stack) : String :=
  "MatchStack (first_line=" ++ (if s.firstLine then "true" else "false") ++ "):\n"
    ++ framesText 0 s.frames

end Stack

end Highlight
