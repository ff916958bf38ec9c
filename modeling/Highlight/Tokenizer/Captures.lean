import Highlight.Tokenizer.Search
import Highlight.Token

/-!
# Scopes for capture groups

The rules for the capture groups of a match give scopes to parts of it, the later groups inside of
the earlier ones. A rule with patterns has the text of its group tokenized with them instead.

- `Retokenize`: tokenizes the end of a text with a stack.
- `OpenCapture`: a group whose scopes apply to what follows.
- `Tokenizer.produceCaptures`: produces the tokens for the groups of a match.
-/

namespace Highlight

variable [Engine]

/-- Tokenizes a text from an offset on with a stack, on the first line or another, and answers with
the memory after it too. -/
abbrev Retokenize (σ : Type) := Stack → List Char → Nat → Bool → σ → List Token × σ

/-- A group whose scopes apply up to an offset. -/
structure OpenCapture where
  scopes : List Scope
  stop : Nat

namespace OpenCapture

/-- Produces the tokens of the open groups that end at an offset or before it, and answers with the
groups that stay open. -/
def closeUpTo (offset : Nat) : List OpenCapture → TokenList → List OpenCapture × TokenList
  | [], tokens => ([], tokens)
  | c :: rest, tokens =>
    if c.stop ≤ offset then closeUpTo offset rest (tokens.produce c.stop c.scopes)
    else (c :: rest, tokens)

/-- Produces the tokens of all open groups. -/
def closeAll : List OpenCapture → TokenList → TokenList
  | [], tokens => tokens
  | c :: rest, tokens => closeAll rest (tokens.produce c.stop c.scopes)

/-- The scopes of the innermost open group, or those outside of all of them. -/
def scopesOf (outside : List Scope) : List OpenCapture → List Scope
  | [] => outside
  | c :: _ => c.scopes

end OpenCapture

namespace Tokenizer

variable {σ : Type}

/-- The stack to tokenize the text of a group with. -/
def captureStack (stack : Stack) (ref : RuleRef) (rule : Rule) (line : List Char) (groups : Groups)
    (start : Nat) : Stack :=
  let nameScopes := stack.scopes ++ rule.nameScopes line groups
  (stack.pushRegion ref start nameScopes).withContent (nameScopes ++ rule.contentScopes line groups)

/-- The tokens for the text of a group whose rule has patterns; none if the limit on open frames is
reached, in which case the patterns are left out. -/
def captureTokens? (t : Tokenizer) (retokenize : Retokenize σ) (stack : Stack) (ref : RuleRef)
    (rule : Rule) (line : List Char) (groups : Groups) (span : Span) (firstLine : Bool)
    (memory : σ) : Option (List Token × σ) :=
  if rule.kind.patterns.isEmpty then none
  else if stack.depth < t.options.maxStackDepth.toNat then
    (Text.takeBytes? span.stop line).map fun text =>
      retokenize (captureStack stack ref rule line groups span.start) text span.start
        (firstLine && span.start == 0) memory
  else none

/-- Produces the tokens for the groups from one on, given the groups that are open. -/
def produceGroups (t : Tokenizer) (retokenize : Retokenize σ) (stack : Stack) (line : List Char)
    (grammar : String) (groups : Groups) (firstLine : Bool) :
    List (Option RuleId × Option Span) → List OpenCapture → TokenList → σ → TokenList × σ
  | [], opened, tokens, memory => (OpenCapture.closeAll opened tokens, memory)
  | (some id, some span) :: rest, opened, tokens, memory =>
    if span.start = span.stop then
      produceGroups t retokenize stack line grammar groups firstLine rest opened tokens memory
    else
      match t.rule? ⟨grammar, id⟩ with
      | none =>
        produceGroups t retokenize stack line grammar groups firstLine rest opened tokens memory
      | some rule =>
        let (opened, tokens) := OpenCapture.closeUpTo span.start opened tokens
        let outer := OpenCapture.scopesOf stack.scopes opened
        let tokens := tokens.produce span.start outer
        match
          t.captureTokens? retokenize stack ⟨grammar, id⟩ rule line groups span firstLine memory
        with
        | some (inner, memory) =>
          produceGroups t retokenize stack line grammar groups firstLine rest opened
            (tokens.produceAll inner) memory
        | none =>
          let scopes := rule.nameScopes line groups
          -- a group without scopes leaves those around it as they are
          let opened := if scopes.isEmpty then opened else ⟨outer ++ scopes, span.stop⟩ :: opened
          produceGroups t retokenize stack line grammar groups firstLine rest opened tokens memory
  | _ :: rest, opened, tokens, memory =>
    produceGroups t retokenize stack line grammar groups firstLine rest opened tokens memory

/-- Produces the tokens for the groups of a match. -/
def produceCaptures (t : Tokenizer) (retokenize : Retokenize σ) (stack : Stack) (line : List Char)
    (grammar : String) (rules : CaptureRules) (groups : Groups) (firstLine : Bool)
    (tokens : TokenList) (memory : σ) : TokenList × σ :=
  t.produceGroups retokenize stack line grammar groups firstLine (rules.zip groups) [] tokens memory

end Tokenizer

end Highlight
