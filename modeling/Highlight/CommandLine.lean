import Highlight.CommandLine.Arguments
import Highlight.Json.Writer
import Highlight.Pattern.Literal
import Highlight.Text.Property
import Highlight.Tokenizer

/-!
# The command line

What the program answers to its arguments, given the files that it can read and its standard input.

- `Files`: the files that can be read.
- `Failure`: why a command fails, with its wording.
- `Files.load`, `Files.register`: the grammars in files.
- `Files.check`, `Files.scopes`, `Files.tokenize`: the commands.
- `Outcome`, `respond`: the exit code and what is written.
-/

namespace Highlight

variable [Engine]

/-- The contents of the files that can be read. -/
structure Files where
  read : String → Except FileFault String

/-- Why a command fails. -/
inductive Failure where
  | error (e : Error)
  /-- An error that concerns the grammar in a file. -/
  | grammarFile (name : String) (e : Error)
  /-- The text to tokenize could not be read. -/
  | unreadableText (fault : FileFault)
deriving DecidableEq

/-- The wording of a failure. -/
def Failure.message : Failure → String
  | .error e => e.message
  | .grammarFile name e => name ++ ": " ++ e.message
  | .unreadableText fault => fault.message

namespace Files

/-- Loads the grammar in a file. A directory can be opened like a file, but what it holds is no
JSON. -/
def load (files : Files) (name : String) : Except Error Grammar :=
  match files.read name with
  | .ok text => Grammar.ofJsonText text
  | .error .directory => .error .unreadableJson
  | .error fault => .error (.unreadableFile fault)

/-- Places the grammars in some files in a registry, each where its scope says. Answers also with
the scopes, in the order of the files. -/
def register (files : Files) : List String → Registry → Except Failure (List Scope × Registry)
  | [], registry => .ok ([], registry)
  | name :: rest, registry => do
    let grammar ← (files.load name).mapError (.grammarFile name)
    let registry ← (registry.registerByScope grammar).mapError (.grammarFile name)
    let (scopes, registry) ← files.register rest registry
    return (grammar.scopeName :: scopes, registry)

end Files

/-- What was found about the grammar in a file. -/
structure CheckedFile where
  name : String
  scope : Scope
  /-- The number of the grammar's rules. -/
  rules : Nat
  diagnostics : List Diagnostic

/-- A line for the file and one for each diagnostic. -/
def CheckedFile.lines (f : CheckedFile) : List String :=
  (f.name ++ " (" ++ f.scope.text ++ "): " ++ toString f.rules ++ " rules, "
      ++ toString f.diagnostics.length ++ " diagnostics")
    :: f.diagnostics.map fun d => "  " ++ d.message

namespace Files

/-- Checks the grammars in some files, after all of them have been placed in a registry. Each file
answers for the grammar that stands where its scope says. -/
def check (files : Files) (names : List String) : Except Failure (List CheckedFile) := do
  let (scopes, registry) ← files.register names .empty
  return (names.zip scopes).filterMap fun (name, scope) =>
    (registry.find? scope.text).map fun g =>
      ⟨name, scope, g.grammar.rules.size, g.diagnostics⟩

/-- The scopes that the rules of the grammar in a file list. -/
def scopes (files : Files) (name : String) : Except Failure (List Scope) :=
  match files.load name with
  | .ok grammar => .ok grammar.scopeNames
  | .error e => .error (.error e)

/-- The path of the grammar that a text is in: the one asked for, or else the one for files named
like the text's, or else the first one loaded. -/
def grammarFor (t : TokenizeCommand) (scopes : List Scope) (registry : Registry) : String :=
  let byFileType :=
    ((t.input.bind fun name => Text.fileExtension? name.toList).bind fun extension =>
      registry.findByFileType? (String.ofList extension)).map (·.1)
  match t.scope, byFileType, scopes with
  | some path, _, _ => path
  | none, some path, _ => path
  | none, none, scope :: _ => scope.text
  | none, none, [] => ""

/-- Tokenizes a text, and answers with its lines and their tokens. -/
def tokenize (files : Files) (input : String) (t : TokenizeCommand) :
    Except Failure (List (List Char × List Token)) := do
  let (scopes, registry) ← files.register t.grammars .empty
  let text ←
    match t.input with
    | none => .ok input
    | some name =>
      match files.read name with
      | .ok text => .ok text
      | .error fault => .error (.unreadableText fault)
  let options := Options.standard.withStackDepth t.maxStackDepth
  let tokenizer ←
    (registry.tokenizer (grammarFor t scopes registry) options).mapError Failure.error
  let lines := Text.fileLines text.toList
  return lines.zip ((tokenizer.tokenizeLines lines tokenizer.initialStack).map (·.1))

end Files

/-- A line about a token of a line. -/
def Token.line (line : List Char) (t : Token) : String :=
  "  [" ++ toString t.span.start ++ ".." ++ toString t.span.stop ++ "] "
    ++ String.ofList (Text.quoted ((t.span.text? line).getD [])) ++ " "
    ++ " ".intercalate (t.scopes.map Scope.text)

/-- The lines about the tokens of lines, which are numbered from the given number on. -/
def tokenLines : Nat → List (List Char × List Token) → List String
  | _, [] => []
  | number, (line, tokens) :: rest =>
    (toString number ++ ": " ++ String.ofList (Text.quoted line)) :: tokens.map (Token.line line)
      ++ tokenLines (number + 1) rest

/-- The tokens of a line in their form for other programs. -/
def jsonLine : List Char × List Token → String
  | (_, tokens) => (Json.array (tokens.map Token.toJson)).text

/-- How the program ends. -/
structure Outcome where
  /-- Zero for success, two for arguments that ask for nothing, and one for all else. -/
  code : UInt32
  output : String
  errors : String
deriving DecidableEq

namespace Outcome

/-- Lines with a newline at the end of each. -/
def ofLines (code : UInt32) (lines : List String) : Outcome :=
  ⟨code, String.join (lines.map (· ++ "\n")), ""⟩

/-- The outcome of a command that failed. -/
def ofFailure (f : Failure) : Outcome := ⟨1, "", "error: " ++ f.message ++ "\n"⟩

/-- The outcome of a command that failed or answers with lines. -/
def ofExcept {α : Type} (present : α → Outcome) : Except Failure α → Outcome
  | .ok a => present a
  | .error f => ofFailure f

end Outcome

/-- How the arguments are written. -/
def usage : List String :=
  ["usage: check FILE...", "       scopes FILE",
    "       tokenize (-g FILE)... [-s SCOPE] [--json] [--max-stack-depth N] [INPUT]"]

/-- Carries out a command. -/
def Command.run (files : Files) (input : String) : Command → Outcome
  | .check names =>
    .ofExcept (fun checked =>
      .ofLines (if checked.all (·.diagnostics.isEmpty) then 0 else 1)
        (checked.flatMap CheckedFile.lines)) (files.check names)
  | .scopes name =>
    .ofExcept (fun scopes => .ofLines 0 (scopes.map Scope.text)) (files.scopes name)
  | .tokenize t =>
    .ofExcept (fun lines =>
      .ofLines 0 (if t.json then lines.map jsonLine else tokenLines 1 lines)) (files.tokenize input t)

/-- What the program answers to its arguments. -/
def respond (files : Files) (input : String) (arguments : List String) : Outcome :=
  match Command.ofArguments? arguments with
  | some command => command.run files input
  | none => ⟨2, "", String.join (usage.map (· ++ "\n"))⟩

end Highlight
