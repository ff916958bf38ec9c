/-!
# Pieces of a text

A text is cut at each occurrence of a separator. There is always one piece more than there are
separators, so the empty text has one piece, which is empty.

The words of a text are what it has between blanks, which are the characters with the Unicode property
*White_Space*. The list of them is closed by the standard's stability rules, so it is written out.

A text is cut into lines in two ways. A document ends its lines with a newline, a carriage return or
both in this order; a file ends them with a newline and drops one carriage return in front of it.

- `pieces`: the cut.
- `joined`: the pieces put together again with the separator between them.
- `joined_pieces`: nothing is lost by the cut.
- `pieces_joined`: pieces that do not hold the separator are found again.
- `isBlank`, `trim`: which characters are blanks, and a text without those at its two ends.
- `words`: the runs of characters between blanks; none of them is empty or holds a blank.
- `unifiedNewlines`, `documentLines`: the lines of a document, which has one more line than it has
  ends of lines.
- `fileLines`: the lines of a file, in which the end of the last line may be missing.
-/

namespace Highlight

namespace Text

/-- The texts between the occurrences of a separator. -/
def pieces (sep : Char) : List Char → List (List Char)
  | [] => [[]]
  | c :: cs =>
    if c = sep then [] :: pieces sep cs
    else
      match pieces sep cs with
      | [] => [[c]]
      | p :: ps => (c :: p) :: ps

/-- The texts one after the other with a separator between neighbours. -/
def joined (sep : Char) : List (List Char) → List Char
  | [] => []
  | [p] => p
  | p :: q :: ps => p ++ sep :: joined sep (q :: ps)

theorem pieces_ne_nil (sep : Char) (cs : List Char) : pieces sep cs ≠ [] := by
  cases cs with
  | nil => simp [pieces]
  | cons c cs =>
    simp only [pieces]
    split
    · simp
    · split <;> simp

/-- **Nothing is lost by the cut.** -/
theorem joined_pieces (sep : Char) (cs : List Char) : joined sep (pieces sep cs) = cs := by
  induction cs with
  | nil => rfl
  | cons c cs ih =>
    obtain ⟨p, ps, hp⟩ := List.exists_cons_of_ne_nil (pieces_ne_nil sep cs)
    by_cases h : c = sep
    · subst h
      rw [hp] at ih
      simp [pieces, hp, joined, ih]
    · rw [hp] at ih
      cases ps with
      | nil => simp_all [pieces, joined]
      | cons q ps => simp_all [pieces, joined]

theorem pieces_of_not_mem {sep : Char} {p : List Char} (h : sep ∉ p) : pieces sep p = [p] := by
  induction p with
  | nil => rfl
  | cons c p ih =>
    simp only [List.mem_cons, not_or] at h
    simp [pieces, Ne.symm h.1, ih h.2]

/-- A text up to the first separator is the first piece. -/
theorem pieces_append {sep : Char} {p : List Char} (h : sep ∉ p) (cs : List Char) :
    pieces sep (p ++ sep :: cs) = p :: pieces sep cs := by
  induction p with
  | nil => simp [pieces]
  | cons c p ih =>
    simp only [List.mem_cons, not_or] at h
    simp [pieces, Ne.symm h.1, ih h.2]

/-- **Pieces without separators are found again**, if there is one at least. -/
theorem pieces_joined {sep : Char} {ps : List (List Char)} (hne : ps ≠ [])
    (h : ∀ p ∈ ps, sep ∉ p) : pieces sep (joined sep ps) = ps := by
  induction ps with
  | nil => exact absurd rfl hne
  | cons p ps ih =>
    cases ps with
    | nil => exact pieces_of_not_mem (h p (by simp))
    | cons q ps =>
      have hq : ∀ r ∈ q :: ps, sep ∉ r := fun r hr => h r (List.mem_cons_of_mem _ hr)
      rw [joined, pieces_append (h p (by simp)), ih (by simp) hq]

/-! ## Words -/

/-- Whether a character has the Unicode property *White_Space*. -/
def isBlank (c : Char) : Bool :=
  let n := c.toNat
  (9 ≤ n && n ≤ 13) || n == 0x20 || n == 0x85 || n == 0xA0 || n == 0x1680
    || (0x2000 ≤ n && n ≤ 0x200A) || n == 0x2028 || n == 0x2029 || n == 0x202F || n == 0x205F
    || n == 0x3000

/-- A text without the blanks in front. -/
def trimLeft (cs : List Char) : List Char := cs.dropWhile isBlank

/-- A text without the blanks at its two ends. -/
def trim (cs : List Char) : List Char := (trimLeft (trimLeft cs).reverse).reverse

/-- Splits off the words of a text, with `word` holding the characters, last first, of the word
that the text continues. -/
def wordsFrom (word : List Char) : List Char → List (List Char)
  | [] => if word.isEmpty then [] else [word.reverse]
  | c :: cs =>
    if isBlank c then
      if word.isEmpty then wordsFrom [] cs else word.reverse :: wordsFrom [] cs
    else wordsFrom (c :: word) cs

/-- The runs of characters between blanks. -/
def words (cs : List Char) : List (List Char) := wordsFrom [] cs

/-! ## Lines -/

/-- The text with each carriage return in front of a newline left out. -/
def dropReturns : List Char → List Char
  | [] => []
  | '\r' :: '\n' :: rest => '\n' :: dropReturns rest
  | c :: rest => c :: dropReturns rest

/-- The text with newlines as its only ends of lines. -/
def unifiedNewlines (cs : List Char) : List Char :=
  (dropReturns cs).map fun c => if c = '\r' then '\n' else c

/-- The lines of a document. A text without characters has none. -/
def documentLines (cs : List Char) : List (List Char) :=
  if cs.isEmpty then [] else pieces '\n' (unifiedNewlines cs)

/-- A line of a file without the carriage return at its end. -/
def withoutReturn (line : List Char) : List Char :=
  if line.getLast? = some '\r' then line.dropLast else line

/-- The lines of a file. A carriage return counts as the end of a line only before a newline. -/
def fileLines (cs : List Char) : List (List Char) :=
  let parts := pieces '\n' cs
  let ended := parts.dropLast.map withoutReturn
  match parts.getLast? with
  | some [] => ended
  | some last => ended ++ [last]
  | none => ended

end Text

end Highlight
