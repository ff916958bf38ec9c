import Highlight.Entries
import Highlight.Text.Pieces

/-!
# Trees of dotted paths

Values are kept at dotted paths such as `source.js`, which lies below `source`. A node without a
value is there for the sake of the nodes below it.

- `segments`: the parts of a path.
- `Tree`: the trees.
- `Tree.node?`, `Tree.get?`, `Tree.insert`, `Tree.clear`, `Tree.remove?`: the operations on a path.
  Clearing takes the value and leaves the node. Removing prunes the node when nothing is below it, and
  leaves the nodes above as they are.
- `Tree.toList`: the values with their paths, in the order of the paths.
-/

namespace Highlight

/-- The parts of a dotted path. -/
def segments (path : String) : List String :=
  (Text.pieces '.' path.toList).map String.ofList

/-- A tree of values at paths. -/
structure Tree (α : Type) where
  value : Option α
  children : List (String × Tree α)

namespace Tree

variable {α : Type}

/-- The tree without values. -/
def empty : Tree α := ⟨none, []⟩

/-- The node at a path. -/
def node? : List String → Tree α → Option (Tree α)
  | [], t => some t
  | s :: rest, t =>
    match Entries.get? s t.children with
    | some child => node? rest child
    | none => none

/-- The value at a path. -/
def get? (path : List String) (t : Tree α) : Option α := (node? path t).bind Tree.value

/-- The tree with a value at a path, in place of the one that may have been there. -/
def insert (value : α) : List String → Tree α → Tree α
  | [], t => ⟨some value, t.children⟩
  | s :: rest, t =>
    let child := (Entries.get? s t.children).getD empty
    ⟨t.value, Entries.put s (insert value rest child) t.children⟩

/-- The tree with no value at a path. -/
def clear : List String → Tree α → Tree α
  | [], t => ⟨none, t.children⟩
  | s :: rest, t =>
    match Entries.get? s t.children with
    | some child => ⟨t.value, Entries.put s (clear rest child) t.children⟩
    | none => t

/-- The tree without the value at a path; none if there is no value. -/
def remove? : List String → Tree α → Option (Tree α)
  | [], _ => none
  | [s], t =>
    match Entries.get? s t.children with
    | none => none
    | some child =>
      match child.value with
      | none => none
      | some _ =>
        -- a node stays for the sake of those below it
        if child.children.isEmpty then some ⟨t.value, Entries.erase s t.children⟩
        else some ⟨t.value, Entries.put s ⟨none, child.children⟩ t.children⟩
  | s :: rest, t =>
    match Entries.get? s t.children with
    | none => none
    | some child =>
      match remove? rest child with
      | none => none
      | some child => some ⟨t.value, Entries.put s child t.children⟩

mutual

/-- The values below a node, whose path is given, with their paths. -/
def listFrom (path : String) : Tree α → List (String × α)
  | ⟨_, children⟩ => listEntries path children
termination_by structural t => t

/-- The values at and below the entries of a node. -/
def listEntries (path : String) : List (String × Tree α) → List (String × α)
  | [] => []
  | (s, child) :: rest =>
    let here := if path = "" then s else path ++ "." ++ s
    (child.value.toList.map (here, ·)) ++ listFrom here child ++ listEntries path rest
termination_by structural entries => entries

end

/-- The values with their paths, in the order of the paths. -/
def toList (t : Tree α) : List (String × α) := listFrom "" t

end Tree

end Highlight
