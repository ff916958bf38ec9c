import Highlight.Directory
import Highlight.Pattern.Fault
import Highlight.Scope.Parse

/-!
# Errors and diagnostics

The reasons for which an operation gives up. What is wrong inside a grammar is no error: it is
noted beside the grammar as a diagnostic and the rest of the grammar is used.

- `Error`, `Error.message`: why an operation gave up, with the wording.
- `DiagnosticKind`: what is wrong with a part of a grammar, with the wording.
- `Diagnostic`: a cause and the place in the definition that it concerns, such as
  `repository.string.patterns[1]`.
-/

namespace Highlight

/-- Why an operation gave up. -/
inductive Error where
  /-- A file could not be read. -/
  | unreadableFile (fault : FileFault)
  /-- A text is no JSON, or JSON of another form than asked for. -/
  | unreadableJson
  /-- A grammar does not say which scope it is for. -/
  | missingScopeName
  | invalidScopeName (refused : InvalidScopeName)
  | invalidReference (value : String)
  | grammarNotFound (path : String)
deriving DecidableEq

/-- The wording of an error. -/
def Error.message : Error → String
  | .unreadableFile fault => "I/O error: " ++ fault.message
  | .unreadableJson => "JSON parsing error"
  | .missingScopeName => "malformed grammar definition: missing required `scopeName`"
  | .invalidScopeName refused => refused.message
  | .invalidReference value => "invalid include reference '" ++ value ++ "'"
  | .grammarNotFound path => "grammar '" ++ path ++ "' not found"

/-! ## Diagnostics -/

/-- What is wrong with a part of a grammar. -/
inductive DiagnosticKind where
  /-- A name is no scope name; the rule is kept without it. -/
  | invalidScopeName (refused : InvalidScopeName)
  /-- An include is no reference; the rule is dropped. -/
  | invalidReference (value : String)
  /-- A rule has the keys of several kinds of rules; it is dropped. -/
  | ambiguousShape (keys : List String)
  /-- A rule has the keys of no kind of rules; it is dropped. -/
  | emptyRule
  /-- A key of a capture map is no number of a group; the entry is skipped. -/
  | invalidCaptureKey (key : String)
  /-- A text is no pattern; the rule is disabled. -/
  | brokenPattern (pattern : String) (fault : PatternFault)
  /-- An include names nothing that exists; it stands for nothing. -/
  | unresolvedReference (reference : String)
deriving DecidableEq

/-- The name of a cause. -/
def DiagnosticKind.label : DiagnosticKind → String
  | .invalidScopeName _ => "InvalidScopeName"
  | .invalidReference _ => "InvalidReference"
  | .ambiguousShape _ => "AmbiguousRuleShape"
  | .emptyRule => "EmptyRule"
  | .invalidCaptureKey _ => "InvalidCaptureKey"
  | .brokenPattern _ _ => "RegexCompile"
  | .unresolvedReference _ => "UnresolvedReference"

/-- What a fault of a pattern is reported as. -/
def PatternFault.report (fault : PatternFault) : String := "Oniguruma error: " ++ fault.message

/-- The wording of a cause. -/
def DiagnosticKind.message : DiagnosticKind → String
  | .invalidScopeName refused => refused.message
  | .invalidReference value => "invalid include reference '" ++ value ++ "'"
  | .ambiguousShape keys => "rule matches several shapes (" ++ ", ".intercalate keys ++ ")"
  | .emptyRule => "rule has no match, begin, include or patterns"
  | .invalidCaptureKey key => "invalid capture key '" ++ key ++ "'"
  | .brokenPattern pattern fault =>
    "regex '" ++ pattern ++ "' failed to compile: " ++ fault.report
  | .unresolvedReference reference => "include '" ++ reference ++ "' could not be resolved"

/-- A cause and the place that it concerns. The grammar as a whole is the empty place. -/
structure Diagnostic where
  location : String
  kind : DiagnosticKind
deriving DecidableEq

/-- The wording of a diagnostic. -/
def Diagnostic.message (d : Diagnostic) : String :=
  if d.location = "" then d.kind.message else d.location ++ ": " ++ d.kind.message

end Highlight
