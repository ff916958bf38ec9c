import Highlight.Text.Pieces
import Highlight.Tokenizer.Line

/-!
# Tokenizing documents

A document is tokenized line by line. All that one line has to do with the next is the stack, so
tokenizing can start over from any line whose stack was kept. The tables that a tokenizer keeps only
spare it work.

- `Registry.tokenizer`: a tokenizer for documents in a grammar. It sees the registry as it was then.
- `Tokenizer.tokenizeLineWith`, `Tokenizer.tokenizeLinesWith`: tokenizing with tables.
- `Tokenizer.tokenizeLine`: the tokens of a line and the stack for the next one.
- `Tokenizer.tokenizeLines`, `Tokenizer.tokenizeDocument`: the tokens of several lines.
-/

namespace Highlight

variable [Engine]

namespace Registry

/-- A tokenizer for documents in the grammar at a path. -/
def tokenizer (r : Registry) (path : String) (options : Options) : Except Error Tokenizer :=
  match r.find? path with
  | some g => .ok ⟨r, path, g.grammar.scopeName, options⟩
  | none => .error (.grammarNotFound path)

end Registry

namespace Tokenizer

/-- The stack in front of a document. -/
def initialStack (t : Tokenizer) : Stack := .initial t.base t.baseScope

/-- Tokenizes a line with what the tokenizer has worked out so far. Patterns see a newline at the
line's end, which belongs to no token. -/
def tokenizeLineWith (t : Tokenizer) (line : List Char) (stack : Stack) (tables : Tables) :
    (List Token × Stack) × Tables :=
  let s := t.tokenizeText Searching.remembering.keeping (line ++ ['\n']) stack (.empty, tables)
  ((s.tokens.clip (Text.byteLength line), s.stack.endLine), s.memory.2)

/-- Tokenizes lines one after the other, and answers with the tokens and the stack behind each. -/
def tokenizeLinesWith (t : Tokenizer) :
    List (List Char) → Stack → Tables → List (List Token × Stack) × Tables
  | [], _, tables => ([], tables)
  | line :: rest, stack, tables =>
    let here := t.tokenizeLineWith line stack tables
    let below := tokenizeLinesWith t rest here.1.2 here.2
    (here.1 :: below.1, below.2)

/-- The tokens of a line and the stack behind it. -/
def tokenizeLine (t : Tokenizer) (line : List Char) (stack : Stack) : List Token × Stack :=
  (t.tokenizeLineWith line stack .empty).1

/-- The tokens of several lines and the stack behind each. -/
def tokenizeLines (t : Tokenizer) (lines : List (List Char)) (stack : Stack) :
    List (List Token × Stack) :=
  (t.tokenizeLinesWith lines stack .empty).1

/-- Tokenizes a document from its first line on. -/
def tokenizeDocument (t : Tokenizer) (text : List Char) : List (List Token) :=
  (t.tokenizeLines (Text.documentLines text) t.initialStack).map (·.1)

end Tokenizer

end Highlight
