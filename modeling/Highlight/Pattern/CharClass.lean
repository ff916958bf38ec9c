import Highlight.Text.Block
import Highlight.Text.Property
import Highlight.Text.Script

/-!
# Classes of characters with a name

Patterns name classes of characters in brackets, such as `[:alpha:]`, and as properties, such as
`Alpha` or `Script=Greek` by its short name.

- `CharClass`: the classes.
- `CharClass.contains`: which characters are in a class.
- `CharClass.bracketNames`: the names that can stand in brackets.
- `CharClass.ofPropertyName?`: the class that the name of a property stands for.
-/

namespace Highlight

/-- A class of characters with a name. -/
inductive CharClass where
  | any
  | assigned
  | newline
  | alphanumeric
  | alphabetic
  | ascii
  | inlineSpace
  | control
  | decimal
  | graphic
  | lowercase
  | printed
  | punctuation
  /-- Punctuation and symbols. -/
  | punctuationOrSymbol
  | space
  | uppercase
  | hexDigit
  | word
  | nameStart
  | namePart
  | stableNameStart
  | stableNamePart
  | cased
  | caseIgnorable
  | changedByLower
  | changedByUpper
  | changedByTitle
  | changedByFolding
  | changedByCase
  | math
  | ignorable
  | clusterBase
  | extending
  | outsideBlocks
  | oneOf (categories : List Category)
  | writtenIn (script : Script)
  | listed (codes : Runs)
deriving DecidableEq

namespace CharClass

/-- Whether a character is in a class. -/
def contains (cls : CharClass) (c : Char) : Bool :=
  match cls with
  | .any => true
  | .assigned => Category.of c != .unassigned
  | .newline => c == '\n'
  | .alphanumeric => Text.isAlphabetic c || Text.isDecimal c
  | .alphabetic => Text.isAlphabetic c
  | .ascii => Text.isAscii c
  | .inlineSpace => Text.isInlineSpace c
  | .control => Text.isControl c
  | .decimal => Text.isDecimal c
  | .graphic => Text.isGraphic c
  | .lowercase => Text.isLowercase c
  | .printed => Text.isPrinted c
  | .punctuation => Text.isPunctuation c
  | .punctuationOrSymbol => Text.isPunctuation c || Text.isSymbol c
  | .space => Text.isBlank c
  | .uppercase => Text.isUppercase c
  | .hexDigit => Text.isHexDigit c
  | .word => Text.isWord c
  | .nameStart => Text.isNameStart c
  | .namePart => Text.isNamePart c
  | .stableNameStart => Text.isStableNameStart c
  | .stableNamePart => Text.isStableNamePart c
  | .cased => Text.isCased c
  | .caseIgnorable => Text.isCaseIgnorable c
  | .changedByLower => Text.hasLower c
  | .changedByUpper => Text.hasUpper c
  | .changedByTitle => Text.hasTitle c
  | .changedByFolding => Text.isFolded c
  | .changedByCase => Text.hasLower c || Text.hasUpper c || Text.hasTitle c
  | .math => Text.isMath c
  | .ignorable => Text.isIgnorable c
  | .clusterBase => Text.isClusterBase c
  | .extending => Text.isExtending c
  | .outsideBlocks =>
    !Text.blocks.any fun (first, last, _) => first ≤ c.toNat && c.toNat ≤ last
  | .oneOf categories => categories.contains (Category.of c)
  | .writtenIn script => Script.of c == script
  | .listed codes => codes.contains c.toNat

/-- The classes that can stand in a bracket expression such as `[:alpha:]`, with their names. -/
def bracketNames : List (String × CharClass) :=
  [("alnum", .alphanumeric), ("alpha", .alphabetic), ("blank", .inlineSpace), ("cntrl", .control),
    ("digit", .decimal), ("graph", .graphic), ("lower", .lowercase), ("print", .printed),
    ("punct", .punctuationOrSymbol), ("space", .space), ("upper", .uppercase),
    ("xdigit", .hexDigit), ("ascii", .ascii), ("word", .word)]

/-- The groups of general categories, with their names. -/
def categoryGroups : List (String × List Category) :=
  [("l", [.uppercaseLetter, .lowercaseLetter, .titlecaseLetter, .modifierLetter, .otherLetter]),
    ("lc", [.uppercaseLetter, .lowercaseLetter, .titlecaseLetter]),
    ("m", [.nonspacingMark, .spacingMark, .enclosingMark]),
    ("n", [.decimalNumber, .letterNumber, .otherNumber]),
    ("p", [.connectorPunctuation, .dashPunctuation, .openPunctuation, .closePunctuation,
      .initialPunctuation, .finalPunctuation, .otherPunctuation]),
    ("s", [.mathSymbol, .currencySymbol, .modifierSymbol, .otherSymbol]),
    ("z", [.spaceSeparator, .lineSeparator, .paragraphSeparator]),
    ("c", [.control, .format, .surrogate, .privateUse, .unassigned])]

/-- The abbreviations behind the long names of categories and their groups. -/
def longNames : List (String × String) :=
  [("letter", "l"), ("casedletter", "lc"), ("uppercaseletter", "lu"), ("lowercaseletter", "ll"),
    ("titlecaseletter", "lt"), ("modifierletter", "lm"), ("otherletter", "lo"), ("mark", "m"),
    ("combiningmark", "m"), ("nonspacingmark", "mn"), ("spacingmark", "mc"),
    ("enclosingmark", "me"), ("number", "n"), ("decimalnumber", "nd"), ("letternumber", "nl"),
    ("othernumber", "no"), ("punctuation", "p"), ("connectorpunctuation", "pc"),
    ("dashpunctuation", "pd"), ("openpunctuation", "ps"), ("closepunctuation", "pe"),
    ("initialpunctuation", "pi"), ("finalpunctuation", "pf"), ("otherpunctuation", "po"),
    ("symbol", "s"), ("mathsymbol", "sm"), ("currencysymbol", "sc"), ("modifiersymbol", "sk"),
    ("othersymbol", "so"), ("separator", "z"), ("spaceseparator", "zs"), ("lineseparator", "zl"),
    ("paragraphseparator", "zp"), ("other", "c"), ("control", "cc"), ("format", "cf"),
    ("surrogate", "cs"), ("privateuse", "co"), ("unassigned", "cn")]

/-- The other names of properties, with the classes that they stand for. -/
def propertyNames : List (String × CharClass) :=
  [("alnum", .alphanumeric), ("alpha", .alphabetic), ("alphabetic", .alphabetic), ("any", .any),
    ("ascii", .ascii), ("assigned", .assigned), ("blank", .inlineSpace), ("cntrl", .control),
    ("digit", .decimal), ("graph", .graphic), ("lower", .lowercase), ("lowercase", .lowercase),
    ("newline", .newline), ("posixpunct", .punctuationOrSymbol), ("print", .printed),
    ("punct", .punctuation), ("space", .space), ("upper", .uppercase), ("uppercase", .uppercase),
    ("whitespace", .space), ("word", .word), ("wspace", .space), ("xdigit", .hexDigit),
    ("asciihexdigit", .hexDigit), ("ahex", .hexDigit), ("cased", .cased), ("caseignorable", .caseIgnorable), ("ci", .caseIgnorable),
    ("changeswhencasefolded", .changedByFolding), ("cwcf", .changedByFolding),
    ("changeswhencasemapped", .changedByCase), ("cwcm", .changedByCase),
    ("changeswhenlowercased", .changedByLower), ("cwl", .changedByLower),
    ("changeswhentitlecased", .changedByTitle), ("cwt", .changedByTitle),
    ("changeswhenuppercased", .changedByUpper), ("cwu", .changedByUpper),
    ("defaultignorablecodepoint", .ignorable), ("di", .ignorable),
    ("graphemebase", .clusterBase), ("grbase", .clusterBase), ("graphemeextend", .extending),
    ("grext", .extending), ("idcontinue", .namePart), ("idc", .namePart), ("idstart", .nameStart),
    ("ids", .nameStart), ("math", .math), ("xidcontinue", .stableNamePart),
    ("xidc", .stableNamePart), ("xidstart", .stableNameStart), ("xids", .stableNameStart),
    ("innoblock", .outsideBlocks)]

/-- The names of properties that are listed code by code. -/
def listNames : List (String × Runs) :=
  [("bidicontrol", Text.bidiControl), ("bidic", Text.bidiControl), ("dash", Text.dash),
    ("deprecated", Text.deprecated), ("dep", Text.deprecated), ("diacritic", Text.diacritic),
    ("dia", Text.diacritic), ("emoji", Text.emoji), ("emojicomponent", Text.emojiComponent),
    ("ecomp", Text.emojiComponent), ("emojimodifier", Text.emojiModifier),
    ("emod", Text.emojiModifier), ("emojimodifierbase", Text.emojiBase), ("ebase", Text.emojiBase),
    ("emojipresentation", Text.emojiPresentation), ("epres", Text.emojiPresentation),
    ("extendedpictographic", Text.pictographic), ("extpict", Text.pictographic),
    ("extender", Text.extender), ("ext", Text.extender), ("graphemelink", Text.clusterLink),
    ("grlink", Text.clusterLink), ("hexdigit", Text.wideHexDigit), ("hex", Text.wideHexDigit),
    ("hyphen", Text.hyphen), ("idcompatmathcontinue", Text.compatibleMathPart),
    ("idcompatmathstart", Text.compatibleMathStart), ("ideographic", Text.ideographic),
    ("ideo", Text.ideographic), ("idsbinaryoperator", Text.binaryDescription),
    ("idsb", Text.binaryDescription), ("idstrinaryoperator", Text.ternaryDescription),
    ("idst", Text.ternaryDescription), ("idsunaryoperator", Text.unaryDescription),
    ("idsu", Text.unaryDescription), ("joincontrol", Text.joinControl),
    ("joinc", Text.joinControl), ("logicalorderexception", Text.logicalOrderException),
    ("loe", Text.logicalOrderException), ("modifiercombiningmark", Text.modifierCombiningMark),
    ("mcm", Text.modifierCombiningMark), ("noncharactercodepoint", Text.noncharacter),
    ("nchar", Text.noncharacter), ("otheralphabetic", Text.otherAlphabetic),
    ("oalpha", Text.otherAlphabetic), ("otherdefaultignorablecodepoint", Text.otherIgnorable),
    ("odi", Text.otherIgnorable), ("othergraphemeextend", Text.otherExtending),
    ("ogrext", Text.otherExtending), ("otheridcontinue", Text.otherNamePart),
    ("oidc", Text.otherNamePart), ("otheridstart", Text.otherNameStart),
    ("oids", Text.otherNameStart), ("otherlowercase", Text.otherLowercase),
    ("olower", Text.otherLowercase), ("othermath", Text.otherMath), ("omath", Text.otherMath),
    ("otheruppercase", Text.otherUppercase), ("oupper", Text.otherUppercase),
    ("patternsyntax", Text.patternSyntax), ("patsyn", Text.patternSyntax),
    ("patternwhitespace", Text.patternBlank), ("patws", Text.patternBlank),
    ("prependedconcatenationmark", Text.prepended), ("pcm", Text.prepended),
    ("quotationmark", Text.quotationMark), ("qmark", Text.quotationMark),
    ("radical", Text.radical), ("regionalindicator", Text.regionalIndicator),
    ("ri", Text.regionalIndicator), ("sentenceterminal", Text.sentenceEnd),
    ("sterm", Text.sentenceEnd), ("softdotted", Text.softDotted), ("sd", Text.softDotted),
    ("terminalpunctuation", Text.terminal), ("term", Text.terminal),
    ("unifiedideograph", Text.unifiedIdeograph), ("uideo", Text.unifiedIdeograph),
    ("variationselector", Text.variationSelector), ("vs", Text.variationSelector)]

/-- The name of a property without what does not count in it: case, spaces, hyphens and
underscores. -/
def plainName (name : List Char) : String :=
  String.ofList ((name.filter fun c => !(c == ' ' || c == '-' || c == '_')).map Char.toLower)

/-- The codes of the block that a name stands for. The name of a block has two letters in front. -/
def ofBlockName? (plain : String) : Option CharClass :=
  match plain.toList with
  | 'i' :: 'n' :: name =>
    (Text.blocks.find? fun (_, _, block) => (plainName block.toList).toList == name).map
      fun (first, last, _) => .listed #[⟨first, last, 1⟩]
  | _ => none

/-- The class that a category or a group of categories stands for. -/
def ofCategoryName? (plain : String) : Option CharClass :=
  let short := (longNames.lookup plain).getD plain
  match categoryGroups.lookup short with
  | some categories => some (.oneOf categories)
  | none =>
    (Category.abbreviations.find? fun (abbreviation, _) =>
      plainName abbreviation.toList == short).map fun (_, category) => .oneOf [category]

/-- The class that a property name stands for. -/
def ofPropertyName? (name : List Char) : Option CharClass :=
  let plain := plainName name
  (propertyNames.lookup plain).or <|
    ((listNames.lookup plain).map .listed).or <|
    (ofCategoryName? plain).or <|
    ((Script.ofName? plain).map .writtenIn).or (ofBlockName? plain)

end CharClass

end Highlight
