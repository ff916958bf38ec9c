import Highlight.Tokenizer.Captures

/-!
# Tokenizing a line

A line is tokenized by repeating one step: find the next match, produce the tokens up to its end,
and open or close a region. A step that takes no text and could be repeated forever moves on by a
character instead.

- `LineState`: the stack, the tokens and the place on the line.
- `Tokenizer.step?`: one step; none when there is nothing more to find.
- `Tokenizer.run`: the steps of a line, at most a given number of them.
- `Tokenizer.conditions`: drops the regions whose condition the line does not meet.
- `Tokenizer.budget`: how many steps a line may take.
- `Tokenizer.retokenize`: tokenizes the text of a capture group. The groups in it are tokenized in
  turn, each time with a deeper stack, so the limit on open frames bounds the recursion.
- `Tokenizer.tokenizeText`: tokenizes a whole line.
-/

namespace Highlight

variable [Engine]

/-- What is known in the middle of a line: `position` is the offset that the next search begins at,
and `firstLine` whether the start of the document can still match. -/
structure LineState (σ : Type) where
  stack : Stack
  tokens : TokenList
  position : Nat
  firstLine : Bool
  memory : σ

namespace Tokenizer

variable {σ : Type}

/-- The tokens up to the end of a match with the scopes of the innermost frame, those of its capture
groups included. -/
def produceMatch (t : Tokenizer) (retokenize : Retokenize σ) (stack : Stack) (line : IndexedText)
    (grammar : String) (rules : CaptureRules) (found : Found) (firstLine : Bool)
    (tokens : TokenList) (memory : σ) : TokenList × σ :=
  let captured :=
    t.produceCaptures retokenize stack line.text grammar rules found.groups firstLine tokens memory
  (captured.1.produce found.stop stack.scopes, captured.2)

/-- Goes on behind a match. A match that takes no text leaves the place as it is, unless `skip` says
that the next step would be the same again. -/
def moveOn (line : IndexedText) (s : LineState σ) (found : Found) (skip : Bool) : LineState σ :=
  if s.position < found.stop then { s with position := found.stop, firstLine := false }
  else if skip then { s with position := Text.nextPlace line.text s.position }
  else s

omit [Engine] in
/-- Moving on leaves the stack as it is. -/
@[simp] theorem stack_moveOn (line : IndexedText) (s : LineState σ) (found : Found) (skip : Bool) :
    (moveOn line s found skip).stack = s.stack := by
  unfold moveOn
  split
  · rfl
  · split
    · rfl
    · rfl

/-- Closes the innermost region. -/
def close (t : Tokenizer) (retokenize : Retokenize σ) (line : IndexedText) (s : LineState σ)
    (found : Found) : LineState σ :=
  let ref := s.stack.top.rule
  let tokens := s.tokens.produce found.start s.stack.scopes
  -- the end of a region has the scopes of its name, not of what is inside
  let stack := s.stack.withContent s.stack.top.nameScopes
  let rules :=
    match t.closing? s.stack.top with
    | some r => r.closingCaptures
    | none => []
  let produced :=
    t.produceMatch retokenize stack line ref.grammar rules found s.firstLine tokens s.memory
  -- the next step would open the region here once more
  let empty := stack.popped?.any fun f => f.entered == some s.position
  moveOn line { s with stack := stack.pop, tokens := produced.1, memory := produced.2 } found empty

/-- Takes a match that opens no region. -/
def takeMatch (t : Tokenizer) (retokenize : Retokenize σ) (line : IndexedText) (s : LineState σ)
    (ref : RuleRef) (rule : Rule) (rules : CaptureRules) (found : Found) : LineState σ :=
  let tokens := s.tokens.produce found.start s.stack.scopes
  let nameScopes := s.stack.scopes ++ rule.nameScopes line.text found.groups
  -- the frame is there for the tokens of the match only
  let stack := s.stack.pushRegion ref s.position nameScopes
  let produced :=
    t.produceMatch retokenize stack line ref.grammar rules found s.firstLine tokens s.memory
  moveOn line { s with stack := stack.pop, tokens := produced.1, memory := produced.2 } found true

/-- The stack with a region opened by a match. If the pattern that ends the region or keeps it going
has back-references, they are filled in. -/
def openRegion (s : LineState σ) (line : IndexedText) (ref : RuleRef) (rule : Rule)
    (ending : Pattern) (found : Found) : Stack :=
  let nameScopes := s.stack.scopes ++ rule.nameScopes line.text found.groups
  let stack := s.stack.pushRegion ref s.position nameScopes
  let stack := stack.withContent (nameScopes ++ rule.contentScopes line.text found.groups)
  if ending.hasBackReferences then
    stack.withEndPattern (Pattern.fillBackReferences line.text found.groups ending.text)
  else stack

/-- Opens a region, unless it has been opened at this place already without any text taken since. At
the limit on open frames the match opens no region. -/
def enter (t : Tokenizer) (retokenize : Retokenize σ) (line : IndexedText) (s : LineState σ)
    (ref : RuleRef) (rule : Rule) (rules : CaptureRules) (ending : Pattern) (found : Found) :
    LineState σ :=
  let again := s.stack.frames.any fun f => f.rule == ref && f.entered == some s.position
  if !(s.position < found.stop) && again then
    moveOn line { s with tokens := s.tokens.produce found.start s.stack.scopes } found true
  else if t.options.maxStackDepth.toNat ≤ s.stack.depth then
    t.takeMatch retokenize line s ref rule rules found
  else
    let tokens := s.tokens.produce found.start s.stack.scopes
    let nameScopes := s.stack.scopes ++ rule.nameScopes line.text found.groups
    -- like the end, the beginning of a region is outside of its content
    let stack := s.stack.pushRegion ref s.position nameScopes
    let produced :=
      t.produceMatch retokenize stack line ref.grammar rules found s.firstLine tokens s.memory
    let opened := openRegion s line ref rule ending found
    moveOn line { s with stack := opened, tokens := produced.1, memory := produced.2 } found false

/-- What a match does. -/
def perform? (t : Tokenizer) (retokenize : Retokenize σ) (line : IndexedText) (s : LineState σ)
    (found : Found) : Choice → Option (LineState σ)
  | .close => some (t.close retokenize line s found)
  | .rule ref =>
    match t.rule? ref with
    | none => none
    | some rule =>
      match rule.kind with
      | .single m => some (t.takeMatch retokenize line s ref rule m.captures found)
      | .region r =>
        some (t.enter retokenize line s ref rule r.openingCaptures r.closing found)
      | .guarded w =>
        some (t.enter retokenize line s ref rule w.openingCaptures w.condition found)
      | _ => none

/-- One step; none behind the end of the line and when nothing more is found. -/
def step? (t : Tokenizer) (searching : Searching σ) (retokenize : Retokenize σ) (line : IndexedText)
    (s : LineState σ) : Option (LineState σ) :=
  match line.place? s.position with
  | none => none
  | some place =>
    let memory := searching.noteFirstLine s.firstLine s.memory
    match t.next? searching s.stack line place s.firstLine memory with
    | (none, _) => none
    | (some (choice, found), memory) =>
      t.perform? retokenize line { s with memory := memory } found choice

/-- The steps of a line, at most the given number of them. -/
def run (t : Tokenizer) (searching : Searching σ) (retokenize : Retokenize σ) (line : IndexedText) :
    Nat → LineState σ → LineState σ
  | 0, s => s
  | steps + 1, s =>
    match t.step? searching retokenize line s with
    | none => s
    | some s => run t searching retokenize line steps s

/-- How many steps a line may take: four for each byte and four for each frame that there is room for.
Like the limits it is a number of 64 bits, so of a larger sum only what these bits hold is left. -/
def budget (t : Tokenizer) (line : IndexedText) : Nat :=
  (4 * (line.byteLength + 1) + 4 * t.options.maxStackDepth.toNat) % UInt64.size

/-! ## Conditions of open regions -/

/-- The rule of a frame whose region goes on for as long as lines meet a condition. -/
def guard? (t : Tokenizer) (f : Frame) : Option WhileRule :=
  match (t.rule? f.rule).map Rule.kind with
  | some (.guarded w) => some w
  | _ => none

/-- The match of the condition of a frame, right at the offset that the line has been taken up
to. -/
def meets? (condition : Pattern) (line : IndexedText) (position : Nat) (firstLine : Bool) :
    Option Found :=
  match condition.findAt? line position firstLine with
  | some found => if found.start = position then some found else none
  | none => none

/-- Goes through the frames that are left, the outermost first, and keeps them up to the first whose
condition the line does not meet. A condition that is met takes the text of its match. The stack of
`s` holds the frames kept so far. -/
def conditions (t : Tokenizer) (searching : Searching σ) (retokenize : Retokenize σ)
    (line : IndexedText) : List Frame → LineState σ → LineState σ
  | [], s => s
  | f :: rest, s =>
    match t.guard? f with
    | none => conditions t searching retokenize line rest { s with stack := s.stack.push f }
    | some w =>
      match searching.filledPattern w.condition f.endPattern s.memory with
      | (condition, memory) =>
        match meets? condition line s.position s.firstLine with
        -- this frame and all further in are closed
        | none => { s with memory := memory }
        | some found =>
          let stack := s.stack.push f
          let tokens := s.tokens.produce s.position f.contentScopes
          let produced :=
            t.produceMatch retokenize stack line f.rule.grammar w.conditionCaptures found
              s.firstLine tokens memory
          conditions t searching retokenize line rest
            (moveOn line { s with stack := stack, tokens := produced.1, memory := produced.2 }
              found false)

/-- The state at the start of a line, after the conditions of the open regions. -/
def start (t : Tokenizer) (searching : Searching σ) (retokenize : Retokenize σ) (line : IndexedText)
    (stack : Stack) (memory : σ) : LineState σ :=
  t.conditions searching retokenize line stack.above.reverse
    ⟨{ stack with above := [] }, .startingAt 0, 0, stack.firstLine,
      searching.enter stack.firstLine memory⟩

/-- The tokens of the rest of a line: after the steps, what is left has the scopes of the innermost
frame. -/
def finish (line : IndexedText) (s : LineState σ) : LineState σ :=
  { s with tokens := s.tokens.produce line.byteLength s.stack.scopes }

/-- Tokenizes the text of a capture group. `levels` bounds how often the groups in it are tokenized
in turn. -/
def retokenize (t : Tokenizer) (searching : Searching σ) : Nat → Retokenize σ
  | 0, _, _, _, _, memory => ([], memory)
  | levels + 1, stack, text, position, firstLine, memory =>
    let line := IndexedText.ofText text
    let s : LineState σ :=
      ⟨stack, .startingAt position, position, firstLine, searching.enter firstLine memory⟩
    let s := t.run searching (retokenize t searching levels) line (t.budget line) s
    ((finish line s).tokens.toList, searching.leave memory s.memory)

/-- Tokenizes a line with the newline at its end. -/
def tokenizeText (t : Tokenizer) (searching : Searching σ) (text : List Char) (stack : Stack)
    (memory : σ) : LineState σ :=
  let line := IndexedText.ofText text
  let retokenize := t.retokenize searching t.options.maxStackDepth.toNat
  finish line (t.run searching retokenize line (t.budget line)
    (t.start searching retokenize line stack memory))

end Tokenizer

end Highlight
