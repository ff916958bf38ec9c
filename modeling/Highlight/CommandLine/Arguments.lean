import Highlight.Text.Decimal

/-!
# Arguments

The words after the name of the program say what to do. The first is a command. The others are its
operands and options, in any order; behind `--` they are all operands. An option can have its value
attached, as in `-gFILE`, `-g=FILE` and `--grammar=FILE`, or as the next word.

- `Command`: what the program can be asked to do.
- `Word`, `readWords`: the words behind the command, options put together with their values.
- `Command.ofArguments?`: reads the words; none for words that ask for nothing that can be done.
- `Command.fileNames`, `Command.readsInput`: what a command needs.
-/

namespace Highlight

/-- What to tokenize, and how to show the tokens. -/
structure TokenizeCommand where
  /-- The files of the grammars, at least one. -/
  grammars : List String
  /-- The path of the grammar that the text is in. -/
  scope : Option String
  /-- The file of the text; none for the standard input. -/
  input : Option String
  /-- Whether tokens are shown in their form for other programs. -/
  json : Bool
  maxStackDepth : UInt64
deriving DecidableEq

/-- What the program can be asked to do. -/
inductive Command where
  /-- Shows what is wrong with the grammars in some files. -/
  | check (grammars : List String)
  /-- Shows the scopes that the rules of a grammar list. -/
  | scopes (grammar : String)
  | tokenize (t : TokenizeCommand)
deriving DecidableEq

/-- The options that take a value. -/
inductive ValueOption where
  | grammar
  | scope
  | maxStackDepth
deriving DecidableEq

/-- A word behind the command. -/
inductive Word where
  | operand (text : String)
  /-- The option that asks for tokens in their form for other programs. -/
  | json
  | value (option : ValueOption) (text : String)
deriving DecidableEq

namespace ValueOption

/-- The options whose long name a text is. -/
def ofLongName? (name : List Char) : Option ValueOption :=
  if name = "grammar".toList then some .grammar
  else if name = "scope".toList then some .scope
  else if name = "max-stack-depth".toList then some .maxStackDepth
  else none

/-- The options whose short name a character is. -/
def ofShortName? (name : Char) : Option ValueOption :=
  if name = 'g' then some .grammar
  else if name = 's' then some .scope
  else none

end ValueOption

/-- Whether a word is an operand if no option takes it as its value. A dash by itself is one. -/
def isOperand (word : List Char) : Bool :=
  match word with
  | [] | ['-'] => true
  | c :: _ => c != '-'

/-- Reads an option that can take a value: the option, and its value if that is attached. None for a
word that is no such option. -/
def valueOption? : List Char → Option (ValueOption × Option (List Char))
  | '-' :: '-' :: rest =>
    let value :=
      match rest.dropWhile (· != '=') with
      | _ :: value => some value
      | [] => none
    (ValueOption.ofLongName? (rest.takeWhile (· != '='))).map (·, value)
  | '-' :: name :: rest =>
    let value :=
      match rest with
      | [] => none
      | '=' :: value => some value
      | value => some value
    (ValueOption.ofShortName? name).map (·, value)
  | _ => none

/-- Reads the words behind the command. -/
def readWords : List String → Option (List Word)
  | [] => some []
  | word :: rest =>
    if word = "--" then some (rest.map .operand)
    else if isOperand word.toList then (readWords rest).map (.operand word :: ·)
    else if word = "--json" then (readWords rest).map (.json :: ·)
    else
      match valueOption? word.toList with
      | none => none
      | some (option, some value) =>
        (readWords rest).map (.value option (String.ofList value) :: ·)
      | some (option, none) =>
        match rest with
        | [] => none
        | value :: rest =>
          if isOperand value.toList then (readWords rest).map (.value option value :: ·)
          else none

namespace Word

/-- The operands among some words. -/
def operands (words : List Word) : List String :=
  words.filterMap fun
    | .operand text => some text
    | _ => none

/-- The operands, when there is nothing else among some words. -/
def onlyOperands? (words : List Word) : Option (List String) :=
  words.mapM fun
    | .operand text => some text
    | _ => none

/-- The values of an option among some words. -/
def values (option : ValueOption) (words : List Word) : List String :=
  words.filterMap fun
    | .value o text => if o = option then some text else none
    | _ => none

/-- The value of an option that can be given once. -/
def single? (option : ValueOption) (words : List Word) : Option (Option String) :=
  match values option words with
  | [] => some none
  | [text] => some (some text)
  | _ => none

end Word

namespace Command

/-- The files that a command reads. -/
def fileNames : Command → List String
  | .check grammars => grammars
  | .scopes grammar => [grammar]
  | .tokenize t => t.grammars ++ t.input.toList

/-- Whether a command reads the standard input. -/
def readsInput : Command → Bool
  | .check _ => false
  | .scopes _ => false
  | .tokenize t => t.input.isNone

/-- The limit on open frames that a text asks for. It has 64 bits. -/
def stackDepth? (text : String) : Option UInt64 :=
  match Text.count? text.toList with
  | some n => if n < UInt64.size then some (UInt64.ofNat n) else none
  | none => none

/-- The limit on open frames when none is asked for. -/
def standardStackDepth : UInt64 := 256

/-- The files that are named, if there is at least one and none of the names is empty. -/
def files? (names : List String) : Option (List String) :=
  if names.isEmpty || names.contains "" then none else some names

/-- Reads the words behind `tokenize`. -/
def tokenize? (words : List Word) : Option TokenizeCommand := do
  let grammars ← files? (Word.values .grammar words)
  let scope ← Word.single? .scope words
  let depth ← Word.single? .maxStackDepth words
  let maxStackDepth ←
    match depth with
    | some text => stackDepth? text
    | none => some standardStackDepth
  let input ←
    match Word.operands words with
    | [] => some none
    | [name] => if name.isEmpty then none else some (some name)
    | _ => none
  if 1 < words.count .json then none
  else return ⟨grammars, scope, input, words.contains .json, maxStackDepth⟩

/-- Reads the words after the name of the program. -/
def ofArguments? : List String → Option Command
  | [] => none
  | command :: rest => do
    let words ← readWords rest
    if command = "check" then return .check (← files? (← Word.onlyOperands? words))
    else if command = "scopes" then
      match ← files? (← Word.onlyOperands? words) with
      | [name] => some (.scopes name)
      | _ => none
    else if command = "tokenize" then (tokenize? words).map .tokenize
    else none

end Command

end Highlight
