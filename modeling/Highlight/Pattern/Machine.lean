import Highlight.Pattern.Code
import Highlight.Text.Indexed

/-!
# The machine that matches codes

The machine has tasks to carry out and a stack of what to do when they fail: choices that are left
and changes that have to be undone. A match is complete when no task is left.

- `Task`, `Entry`: what is to be done, and what to go back to.
- `Taken`: what a group took.
- `State`: the machine at a moment.
- `State.goBack`: going back to the last choice.
- `State.cutTo`, `State.undoTo`: dropping the choices above a height of the stack, or all of it.
-/

namespace Highlight

namespace Pattern

/-- What a group took: the places where it began and ended last. -/
structure Taken where
  start : Option Nat
  stop : Option Nat
deriving DecidableEq

namespace Taken

/-- A group that has not been entered. -/
def nothing : Taken := ⟨none, none⟩

/-- The places where the group began and ended, if it was left. -/
def places? (t : Taken) : Option (Nat × Nat) := do return (← t.start, ← t.stop)

end Taken

/-- Something that is to be done. -/
inductive Task where
  | code (c : Code)
  /-- A round of a loop. -/
  | startRound (isLazy : Bool) (check : EmptyCheck) (body : Code)
  /-- The end of a round that began at a place, at a height of the stack. -/
  | endRound (isLazy : Bool) (check : EmptyCheck) (body : Code) (place height : Nat)
  /-- A round of counted ones, of which a number are done. -/
  | startCount (times : Repetition) (check : EmptyCheck) (body : Code) (done : Nat)
  /-- The end of a counted round. -/
  | endCount (times : Repetition) (check : EmptyCheck) (body : Code) (done place height : Nat)
  /-- A group that began at a place ends. -/
  | close (group : Nat) (journal : Journal) (start : Nat)
  /-- The choices above a height are dropped. -/
  | cut (height : Nat)
  /-- The same, and the match goes on from a place. -/
  | resume (height place : Nat)
  /-- The stack above a height is undone, and the match fails. -/
  | refuse (height : Nat)
  /-- The match fails unless it is where the text ends for now. -/
  | atLimit
  /-- The text ends at a place. -/
  | limit (place : Nat)
  /-- The end of a call. -/
  | comeBack

/-- What the stack holds. -/
inductive Entry where
  /-- Other tasks from a place on. -/
  | choice (tasks : List Task) (place : Nat)
  /-- The tasks from the last of several places on, or from one before it. -/
  | shorter (tasks : List Task) (least most : Nat)
  /-- The tasks after one more character of a set, or after any of the characters that are left. -/
  | longer (tasks : List Task) (set : CharSet) (place : Nat) (left : Option Nat)
  /-- The tasks from one character farther back, or from any of the characters that are left. -/
  | farther (tasks : List Task) (place : Nat) (left : Option Nat)
  /-- The text ends at a place again. -/
  | unlimit (place : Nat)
  /-- A group began at a place. -/
  | opened (group place : Nat) (before : Taken)
  /-- A group ended at a place. -/
  | closed (group place : Nat) (before : Taken)
  /-- A place was saved in a slot. -/
  | saved (slot place : Nat)
  /-- The match began at a place before it was made to begin later. -/
  | kept (before : Nat)
  | called
  | returned

namespace Entry

/-- Whether an entry is to be dropped where no other way is to be tried. -/
def isChoice : Entry → Bool
  | .choice _ _ | .shorter _ _ _ | .longer _ _ _ _ | .farther _ _ _ | .unlimit _ => true
  | _ => false

end Entry

/-- The machine at a moment. -/
structure State where
  tasks : List Task
  /-- The place that the match has come to. -/
  place : Nat
  /-- Where the text ends for now. -/
  limit : Nat
  /-- Where the match begins. -/
  keep : Nat
  /-- How many calls there are one in the other. -/
  level : Nat
  taken : Array Taken
  stack : List Entry
  /-- The number of entries of the stack. -/
  height : Nat

namespace State

/-- The machine at a place of a text. -/
def initial (code : Code) (groupCount size place : Nat) : State :=
  ⟨[.code code], place, size, place, 0, Array.replicate (groupCount + 1) .nothing, [], 0⟩

/-- What a group took. -/
def takenBy (s : State) (group : Nat) : Taken := s.taken.getD group .nothing

/-- The state with an entry more. -/
def push (s : State) (e : Entry) : State :=
  { s with stack := e :: s.stack, height := s.height + 1 }

/-- The state with a group having taken something else. -/
def setTaken (s : State) (group : Nat) (t : Taken) : State :=
  { s with taken := s.taken.setIfInBounds group t }

/-- The state before the change that an entry tells of. -/
def undo (s : State) : Entry → State
  | .opened group _ before => s.setTaken group before
  | .closed group _ before => s.setTaken group before
  | .kept before => { s with keep := before }
  | .called => { s with level := s.level - 1 }
  | .returned => { s with level := s.level + 1 }
  | _ => s

/-- Goes back to the last of the choices on a stack. -/
def backThrough (text : IndexedText) : List Entry → State → Option State
  | [], _ => none
  | e :: stack, s =>
    let s := { s with height := s.height - 1 }
    match e with
    | .choice tasks place => some { s with tasks := tasks, place := place, stack := stack }
    | .shorter tasks least most =>
      let s := { s with tasks := tasks, place := most, stack := stack }
      some (if least < most then s.push (.shorter tasks least (most - 1)) else s)
    | .longer tasks set place left =>
      if h : place < text.chars.size then
        if place < s.limit && set.contains text.chars[place] then
          let s := { s with tasks := tasks, place := place + 1, stack := stack }
          match left with
          | some 1 => some s
          | left => some (s.push (.longer tasks set (place + 1) (left.map (· - 1))))
        else backThrough text stack s
      else backThrough text stack s
    | .farther tasks place left =>
      if place = 0 then backThrough text stack s
      else
        let s := { s with tasks := tasks, place := place - 1, stack := stack }
        match left with
        | some 1 => some s
        | left => some (s.push (.farther tasks (place - 1) (left.map (· - 1))))
    | .unlimit place => backThrough text stack { s with limit := place }
    | e => backThrough text stack (s.undo e)

/-- Goes back to the last choice; none if there is none left. -/
def goBack (s : State) (text : IndexedText) : Option State := backThrough text s.stack s

/-- Drops the choices above a height of the stack. -/
def cutTo (s : State) (height : Nat) : State :=
  if s.height ≤ height then s
  else
    let above := s.height - height
    let kept := (s.stack.take above).filter fun e => !e.isChoice
    { s with stack := kept ++ s.stack.drop above, height := height + kept.length }

/-- Undoes the given number of entries. -/
def undoEntries : Nat → State → State
  | 0, s => s
  | n + 1, s =>
    match s.stack with
    | [] => s
    | e :: stack => undoEntries n ({ s with stack := stack, height := s.height - 1 }.undo e)

/-- Undoes the stack above a height. -/
def undoTo (s : State) (height : Nat) : State := undoEntries (s.height - height) s

/-- The place last kept in a slot. -/
def savedIn (slot : Nat) : List Entry → Option Nat
  | [] => none
  | .saved other place :: stack => if other = slot then some place else savedIn slot stack
  | _ :: stack => savedIn slot stack

end State

end Pattern

end Highlight
