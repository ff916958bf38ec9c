import Highlight.Pattern.Fault
import Highlight.Text.Decimal

/-!
# Repetitions

How often a part of a pattern is repeated, and the marks that say so.

- `Repetition`: the bounds, and whether the fewest or the most times come first.
- `Repetition.nest`: a repetition of a repetition, which can be one or stay two.
- `readManner`, `readInterval?`: what follows the first character of a mark.
-/

namespace Highlight

namespace Pattern

/-- How often a part is repeated. -/
structure Repetition where
  least : Nat
  /-- The most times, or none for any number. -/
  most : Option Nat
  /-- Whether fewer times are tried before more. -/
  lazy : Bool
deriving DecidableEq

namespace Repetition

/-- Once or not at all, rather once. -/
def opt : Repetition := ⟨0, some 1, false⟩

/-- Any number of times, the most first. -/
def star : Repetition := ⟨0, none, false⟩

/-- At least once, the most times first. -/
def plus : Repetition := ⟨1, none, false⟩

/-- Once or not at all, rather not at all. -/
def lazyOpt : Repetition := ⟨0, some 1, true⟩

/-- Any number of times, the fewest first. -/
def lazyStar : Repetition := ⟨0, none, true⟩

/-- At least once, the fewest times first. -/
def lazyPlus : Repetition := ⟨1, none, true⟩

/-- Whether a repetition is one of those that a single mark stands for. -/
def isSimple (r : Repetition) : Bool :=
  r = opt || r = star || r = plus || r = lazyOpt || r = lazyStar || r = lazyPlus

/-- The number of times, if there is but one. -/
def fixed? (r : Repetition) : Option Nat := if r.most = some r.least then some r.least else none

/-- A bound on the times that two fixed repetitions can have together. -/
def mostTogether : Nat := 2147483647

/-- What a repetition of a repetition is. -/
inductive Nesting where
  /-- One in the other, as they are written or with other bounds. -/
  | both (outer inner : Repetition)
  /-- A single repetition. -/
  | single (times : Repetition)

/-- A simple repetition of a simple repetition. -/
def simplify (outer inner : Repetition) : Nesting :=
  if inner = lazyStar then .single inner
  else if outer = inner then .single inner
  else if inner = opt then
    if outer = star || outer = plus then .single star
    else if outer = lazyOpt then .single lazyOpt
    else if outer = lazyStar then .single lazyStar
    else .both outer inner
  else if inner = star then
    if outer = lazyOpt || outer = lazyStar then .both lazyOpt plus else .single star
  else if inner = plus then
    if outer = opt || outer = star then .single star
    else if outer = lazyStar then .both lazyOpt plus
    else if outer = lazyPlus then .single plus
    else .both outer inner
  else if inner = lazyOpt then
    if outer = opt then .single lazyOpt else .single lazyStar
  else
    if outer = star then .both opt lazyPlus
    else if outer = plus then .single lazyPlus
    else if outer = lazyOpt || outer = lazyStar then .single lazyStar
    else .both outer inner

/-- A repetition of a repetition. Two fixed ones are one with the product of their numbers. Any number
of times what itself goes on for any number of times need not be bounded by more than once. -/
def nest (outer inner : Repetition) : Except PatternFault Nesting :=
  if outer.isSimple && inner.isSimple then .ok (simplify outer inner)
  else if inner.isSimple then
    match outer.most with
    | some most =>
      if (inner = star || inner = plus) && 1 < most && !outer.lazy then
        .ok (.both ⟨outer.least, some (max outer.least 1), false⟩ inner)
      else .ok (.both outer inner)
    | none => .ok (.both outer inner)
  else
    match outer.fixed?, inner.fixed? with
    | some m, some n =>
      if n != 0 && m != 0 && mostTogether / n ≤ m then .error .repeatTooLarge
      else .ok (.single ⟨m * n, some (m * n), false⟩)
    | _, _ => .ok (.both outer inner)

end Repetition

/-! ## Marks -/

/-- Reads what can follow `*`, `+` or `?`: the mark of a lazy or of a possessive repetition. -/
def readManner : List Char → Bool × Bool × List Char
  | '?' :: rest => (true, false, rest)
  | '+' :: rest => (false, true, rest)
  | rest => (false, false, rest)

/-- Reads the mark of a lazy repetition after an interval. -/
def readLazyMark : List Char → Bool × List Char
  | '?' :: rest => (true, rest)
  | rest => (false, rest)

/-- The most often that an interval can repeat. -/
def maxRepeat : Nat := 100000

/-- An interval: the repetition, whether it is possessive, and the text after it. -/
abbrev Interval := Repetition × Bool × List Char

/-- Reads what follows the numbers of an interval. With its bounds in the wrong order an interval is
possessive; with one number it has no lazy form. -/
def finishInterval? (least : Nat) (most : Option Nat) (fixed : Bool) : List Char → Option Interval
  | '\x7d' :: rest =>
    if most.any (· < least) then some (⟨most.getD 0, some least, false⟩, true, rest)
    else if fixed then some (⟨least, most, false⟩, false, rest)
    else
      let (isLazy, rest) := readLazyMark rest
      some (⟨least, most, isLazy⟩, false, rest)
  | _ => none

/-- Reads an interval after its opening brace; none if the brace stands for itself. -/
def readInterval? (cs : List Char) : Except PatternFault (Option Interval) :=
  let low := cs.takeWhile Text.isDigit
  let least := Text.digitsValue low
  if maxRepeat < least then .error .repeatTooLarge
  else
    match cs.drop low.length with
    | ',' :: rest =>
      let high := rest.takeWhile Text.isDigit
      let most := Text.digitsValue high
      if maxRepeat < most then .error .repeatTooLarge
      else if high.isEmpty then
        if low.isEmpty then .ok none else .ok (finishInterval? least none false rest)
      else .ok (finishInterval? least (some most) false (rest.drop high.length))
    | rest => if low.isEmpty then .ok none else .ok (finishInterval? least (some least) true rest)

end Pattern

end Highlight
