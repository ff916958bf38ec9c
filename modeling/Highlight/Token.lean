import Highlight.Match
import Highlight.Json.Basic
import Highlight.Scope.Basic

/-!
# Tokens

A token is a part of a line with the scopes that apply to it. The tokens of a line are produced from
left to right, each from where the one before ended.

- `Token`: a span of a line and its scopes.
- `Token.toJson`: the form of a token for other programs.
- `TokenList`: the tokens produced so far.
- `TokenList.produce`: produces the next token, unless it would be empty.
- `TokenList.position_produce`, `TokenList.toList_produce_of_lt`: what producing does.
- `TokenList.clip`: keeps what lies within the first bytes of the line.
-/

namespace Highlight

/-- A part of a line with its scopes, the outermost first. -/
structure Token where
  span : Span
  scopes : List Scope
deriving DecidableEq

namespace Token

/-- The form of a token for other programs. -/
def toJson (t : Token) : Json :=
  .ofFields [("span", .ofFields [("start", .ofNat t.span.start), ("end", .ofNat t.span.stop)]),
    ("scopes", .ofStrings (t.scopes.map Scope.text))]

end Token

/-- The tokens produced so far, last first, and the offset that the next one begins at. -/
structure TokenList where
  reversed : List Token
  position : Nat

namespace TokenList

/-- No tokens yet, the first one to begin at an offset. -/
def startingAt (offset : Nat) : TokenList := ⟨[], offset⟩

/-- The tokens from left to right. -/
def toList (t : TokenList) : List Token := t.reversed.reverse

/-- The tokens with another one up to an offset. There are no empty tokens, so nothing is produced
up to an offset that has been passed. -/
def produce (t : TokenList) (stop : Nat) (scopes : List Scope) : TokenList :=
  if t.position < stop then ⟨⟨⟨t.position, stop⟩, scopes⟩ :: t.reversed, stop⟩ else t

/-- Producing never goes back. -/
@[simp] theorem position_produce (t : TokenList) (stop : Nat) (scopes : List Scope) :
    (t.produce stop scopes).position = max t.position stop := by
  unfold produce
  split
  · exact (Nat.max_eq_right (Nat.le_of_lt ‹_›)).symm
  · exact (Nat.max_eq_left (Nat.le_of_not_lt ‹_›)).symm

/-- A token with text is put behind the others. -/
theorem toList_produce_of_lt {t : TokenList} {stop : Nat} (h : t.position < stop)
    (scopes : List Scope) :
    (t.produce stop scopes).toList = t.toList ++ [⟨⟨t.position, stop⟩, scopes⟩] := by
  simp [produce, toList, h]

/-- No token is produced for text that has been reached. -/
theorem produce_of_le {t : TokenList} {stop : Nat} (h : stop ≤ t.position)
    (scopes : List Scope) : t.produce stop scopes = t := by
  simp [produce, Nat.not_lt.2 h]

/-- The tokens with others up to where those end. -/
def produceAll (t : TokenList) (tokens : List Token) : TokenList :=
  tokens.foldl (fun t token => t.produce token.span.stop token.scopes) t

/-- The tokens that begin within the first bytes of the line, the last of them cut off there. -/
def clip (t : TokenList) (size : Nat) : List Token :=
  match t.reversed.filter fun token => token.span.start < size with
  | [] => []
  | last :: rest => (⟨⟨last.span.start, min last.span.stop size⟩, last.scopes⟩ :: rest).reverse

end TokenList

end Highlight
