import Highlight.Pattern.Flags
import Highlight.Pattern.Repetition

/-!
# Patterns as trees

What a pattern says, once it has been read.

- `Anchor`: the conditions on a place.
- `BackReference`, `CallTarget`, `Bookmark`: what refers to groups, and to places kept in mind.
- `Node`: the trees.
- `Node.ofSequence`, `Node.ofAlternatives`: several trees in a row, and one of several.
- `Node.nodes`: all parts of a tree.
- `Node.substCalls`: the tree with other calls.
-/

namespace Highlight

namespace Pattern

/-- A condition on a place in the text. -/
inductive Anchor where
  | lineStart
  | lineEnd
  | textStart
  | textEnd
  /-- The end of the text, or the newline that ends it. -/
  | lastLineEnd
  /-- The place where the search began. -/
  | searchStart
  /-- The edge of a word, of ASCII characters alone if `ascii` is set, or no such edge. -/
  | wordEdge (ascii negated : Bool)
  /-- The end of a cluster of characters, or no such end. -/
  | clusterEdge (negated : Bool)
deriving DecidableEq

/-- A reference to the text that a group took. -/
structure BackReference where
  /-- The groups that are tried, the first that took part being the one meant. -/
  groups : List Nat
  rule : CaseRule
  /-- Whether the reference stands inside of one of its groups. -/
  inside : Bool
  /-- How many calls lie between the reference and the group, if that counts. -/
  level : Option Int
deriving DecidableEq

/-- What a call calls, as it is written. -/
inductive CallTarget where
  | number (group : Nat) (written : List Char)
  | name (name : List Char)
deriving DecidableEq

/-- The end of the text can be moved for a part of a match. Where it was, and places on the way, are
kept in numbered slots. -/
inductive Bookmark where
  | saveLimit (slot : Nat)
  | savePlace (slot : Nat)
  /-- The end is where it was kept. -/
  | restoreLimit (slot : Nat)
  /-- The end is at a place that was kept. -/
  | limitToPlace (slot : Nat)
  /-- The match goes on from a place that was kept. -/
  | restorePlace (slot : Nat)
  /-- The end is the end of the text. -/
  | clearLimit
deriving DecidableEq

/-- How far back a look-behind can begin, in characters. -/
structure Reach where
  least : Nat
  most : Option Nat
deriving DecidableEq

namespace Reach

/-- Any number of characters back. -/
def unknown : Reach := ⟨0, none⟩

end Reach

/-- What a pattern says. -/
inductive Node where
  /-- A text by its codes. -/
  | text (rule : CaseRule) (codes : List Nat)
  /-- One character of a set. -/
  | one (set : CharSet)
  | seq (first rest : Node)
  /-- One of two, the first being tried first. -/
  | alt (first rest : Node)
  /-- A group that takes no text of its own. -/
  | plain (body : Node)
  | repeated (times : Repetition) (body : Node)
  /-- A capture group. -/
  | group (number : Nat) (body : Node)
  /-- The first way in which the body matches, and no other. -/
  | atomic (body : Node)
  /-- What follows matches, or does not. -/
  | ahead (negated : Bool) (body : Node)
  /-- What precedes matches, or does not. -/
  | behind (negated : Bool) (reach : Reach) (body : Node)
  /-- The first way in which a condition matches and then one pattern, or else another. -/
  | conditional (condition yes no : Node)
  /-- The text that a group took. -/
  | reference (r : BackReference)
  /-- Whether a group took part. -/
  | taken (r : BackReference)
  /-- What the pattern of a group matches. -/
  | call (target : CallTarget)
  | anchor (a : Anchor)
  /-- The match begins only here. -/
  | keep
  /-- `lasting` says that an end that is moved stays so for the rest of the pattern. -/
  | bookmark (lasting : Bool) (b : Bookmark)
  | pass
  | never
deriving DecidableEq

namespace Node

/-- The text of no characters. -/
def empty : Node := .text .exact []

/-- One given code. -/
def code (code : Nat) : Node := .text .exact [code]

/-- One after the other. -/
def ofSequence : List Node → Node
  | [] => .empty
  | [n] => n
  | n :: m :: rest => .seq n (ofSequence (m :: rest))

/-- A tree as the last of several alternatives, apart from alternatives of its own. -/
def asLast : Node → Node
  | .alt a b => .plain (.alt a b)
  | n => n

/-- One of several; the first is tried first. -/
def ofAlternatives : List Node → Node
  | [] => .empty
  | [n] => n
  | [n, m] => .alt n m.asLast
  | n :: m :: k :: rest => .alt n (ofAlternatives (m :: k :: rest))

/-- The parts of a sequence. -/
def toSequence : Node → List Node
  | .seq a b => a :: toSequence b
  | n => [n]

/-- The alternatives of a tree. -/
def toAlternatives : Node → List Node
  | .alt a b => a :: toAlternatives b
  | n => [n]

/-- All parts of a tree, each before its own parts, in front of a list. -/
def nodesOnto (acc : List Node) : Node → List Node
  | .seq a b => .seq a b :: nodesOnto (nodesOnto acc b) a
  | .alt a b => .alt a b :: nodesOnto (nodesOnto acc b) a
  | .plain body => .plain body :: nodesOnto acc body
  | .repeated times body => .repeated times body :: nodesOnto acc body
  | .group number body => .group number body :: nodesOnto acc body
  | .atomic body => .atomic body :: nodesOnto acc body
  | .ahead negated body => .ahead negated body :: nodesOnto acc body
  | .behind negated reach body => .behind negated reach body :: nodesOnto acc body
  | .conditional c yes no =>
    .conditional c yes no :: nodesOnto (nodesOnto (nodesOnto acc no) yes) c
  | n => n :: acc

/-- All parts of a tree. -/
def nodes (n : Node) : List Node := n.nodesOnto []

/-- The tree with other nodes in place of its calls. -/
def substCalls (f : CallTarget → Except PatternFault Node) : Node → Except PatternFault Node
  | .seq a b => do return .seq (← substCalls f a) (← substCalls f b)
  | .alt a b => do return .alt (← substCalls f a) (← substCalls f b)
  | .plain body => do return .plain (← substCalls f body)
  | .repeated times body => do return .repeated times (← substCalls f body)
  | .group number body => do return .group number (← substCalls f body)
  | .atomic body => do return .atomic (← substCalls f body)
  | .ahead negated body => do return .ahead negated (← substCalls f body)
  | .behind negated reach body => do return .behind negated reach (← substCalls f body)
  | .conditional c yes no => do
    return .conditional (← substCalls f c) (← substCalls f yes) (← substCalls f no)
  | .call target => f target
  | n => .ok n

end Node

end Pattern

end Highlight
