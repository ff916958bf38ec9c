import Highlight.CommandLine

/-!
# The program

Reads the files that a command names and the standard input, and writes the answer. All else is
decided by `respond`.
-/

namespace Highlight

/-- The fault that an error of the system is. -/
def faultOf : IO.Error → FileFault
  | .inappropriateType _ 21 _ => .directory
  | .inappropriateType _ _ _ => .throughFile
  | .invalidArgument _ _ _ => .nameTooLong
  | _ => .missing

/-- The content of a file. -/
def readFile (name : String) : IO (Except FileFault String) :=
  tryCatch (.ok <$> IO.FS.readFile name) fun e => pure (.error (faultOf e))

/-- The contents of files. -/
def readFiles (names : List String) : IO Files := do
  let contents ← names.mapM fun name => do
    let content ← readFile name
    return (name, content)
  return ⟨fun name => (contents.lookup name).getD (.error .missing)⟩

/-- The standard input, if a command needs it. -/
def readInput (command : Option Command) : IO String := do
  if command.any Command.readsInput then (← IO.getStdin).readToEnd else return ""

end Highlight

open Highlight in
/-- Runs the program. -/
def main (arguments : List String) : IO UInt32 := do
  let command := Command.ofArguments? arguments
  let files ← readFiles ((command.map Command.fileNames).getD [])
  let outcome := respond files (← readInput command) arguments
  (← IO.getStdout).putStr outcome.output
  (← IO.getStderr).putStr outcome.errors
  return outcome.code
