import Highlight.Text.Bytes
import Highlight.Text.Pieces

/-!
# Directories

The files below a directory, each by the parts of its path. The parts are separated by slashes. A path
is followed part by part, and each part but the last has to lead to a directory. A dot by itself as a
part, and an empty part, add nothing to a path.

- `FileFault`: why the content of a file cannot be read, with its wording.
- `Directory`, `Directory.follow`, `Directory.read`: the files, and the content at a path.
- `Text.fileName?`: the last part of a path.
- `Text.fileExtension?`: what follows the last dot of a file name. A dot at the front begins a name
  and not an extension.
-/

namespace Highlight

/-- Why the content of a file cannot be read. -/
inductive FileFault where
  | missing
  /-- The path goes on behind a file. -/
  | throughFile
  /-- The path leads to a directory. -/
  | directory
  | nameTooLong
deriving DecidableEq

/-- The wording of a fault. -/
def FileFault.message : FileFault → String
  | .missing => "No such file or directory (os error 2)"
  | .throughFile => "Not a directory (os error 20)"
  | .directory => "Is a directory (os error 21)"
  | .nameTooLong => "File name too long (os error 36)"

/-- The files below a directory, by the parts of their paths. -/
structure Directory where
  files : List (List (List Char) × String)

/-- What a part of a path leads to. -/
inductive Located where
  /-- A directory above the one with the files, by the number of steps. -/
  | above (steps : Nat)
  /-- The directory with the files, or one below it. -/
  | within (path : List (List Char))
  | file (content : String)
deriving DecidableEq

namespace Directory

/-- The most bytes of a name. -/
def longestName : Nat := 255

/-- What a name in a directory leads to. -/
def enter (d : Directory) (path : List (List Char)) (name : List Char) : Except FileFault Located :=
  let path := path ++ [name]
  if longestName < Text.byteLength name then .error .nameTooLong
  else
    match d.files.lookup path with
    | some content => .ok (.file content)
    | none =>
      if d.files.any fun (other, _) => path.isPrefixOf other then .ok (.within path)
      else .error .missing

/-- What the parts of a path lead to. Empty parts and single dots lead nowhere else, and two dots one
directory up. -/
def follow (d : Directory) : List (List Char) → Located → Except FileFault Located
  | [], located => .ok located
  | _ :: _, .file _ => .error .throughFile
  | name :: rest, .above steps =>
    if name = [] || name = ['.'] then d.follow rest (.above steps)
    else if name = ['.', '.'] then d.follow rest (.above (steps + 1))
    else .error .missing
  | name :: rest, .within path =>
    if name = [] || name = ['.'] then d.follow rest (.within path)
    else if name = ['.', '.'] then
      d.follow rest (if path.isEmpty then .above 1 else .within path.dropLast)
    else
      match d.enter path name with
      | .ok located => d.follow rest located
      | .error fault => .error fault

/-- The content of the file at a path. A path that begins with a slash begins outside. -/
def read (d : Directory) (path : String) : Except FileFault String :=
  match path.toList with
  | [] => .error .missing
  | c :: cs =>
    match d.follow (Text.pieces '/' (c :: cs)) (if c = '/' then .above 0 else .within []) with
    | .ok (.file content) => .ok content
    | .ok _ => .error .directory
    | .error fault => .error fault

end Directory

/-! ## File names -/

namespace Text

/-- The parts of a path that say something. -/
def pathParts (path : List Char) : List (List Char) :=
  (pieces '/' path).filter fun part => !(part.isEmpty || part == ['.'])

/-- The last part of a path; none for a path that ends in a step upwards. -/
def fileName? (path : List Char) : Option (List Char) :=
  match (pathParts path).getLast? with
  | some name => if name = ['.', '.'] then none else some name
  | none => none

/-- What follows the last dot of the file name that a path ends in. -/
def fileExtension? (path : List Char) : Option (List Char) :=
  match fileName? path with
  | none => none
  | some name =>
    match pieces '.' name with
    | [] | [_] | [[], _] => none
    | parts => parts.getLast?

end Text

end Highlight
