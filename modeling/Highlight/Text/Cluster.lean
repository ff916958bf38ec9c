import Highlight.Text.Property

/-!
# Clusters of characters

What a reader takes for one character can be written by several: a letter with its marks, the parts
of a syllable, two letters of a region that make a flag, pictographs that are joined. The Unicode
standard gives each character a role in such a cluster and says between which roles there is no
boundary.

- `ClusterRole`: the roles.
- `isClusterBoundary`: whether a cluster ends between the characters on both sides of a place.
-/

namespace Highlight

namespace Text

/-- The role of a character in a cluster. -/
inductive ClusterRole where
  | other
  | carriageReturn
  | lineFeed
  | control
  | extend
  | joiner
  | regionalIndicator
  | spacingMark
  | leading
  /-- The consonant that begins a syllable. -/
  | initialJamo
  /-- The vowel of a syllable. -/
  | vowelJamo
  /-- The consonant that ends a syllable. -/
  | finalJamo
  /-- A syllable that ends with its vowel. -/
  | openSyllable
  /-- A syllable that ends with a consonant. -/
  | closedSyllable
deriving DecidableEq

namespace ClusterRole

/-- The role of a character in the writing of Korean. -/
def ofJamo? (code : Nat) : Option ClusterRole :=
  if (0x1100 ≤ code && code ≤ 0x115F) || (0xA960 ≤ code && code ≤ 0xA97C) then some .initialJamo
  else if (0x1160 ≤ code && code ≤ 0x11A7) || (0xD7B0 ≤ code && code ≤ 0xD7C6)
      || code == 0x16D63 || (0x16D67 ≤ code && code ≤ 0x16D6A) then some .vowelJamo
  else if (0x11A8 ≤ code && code ≤ 0x11FF) || (0xD7CB ≤ code && code ≤ 0xD7FB) then
    some .finalJamo
  else if 0xAC00 ≤ code && code ≤ 0xD7A3 then
    some (if (code - 0xAC00) % 28 == 0 then .openSyllable else .closedSyllable)
  else none

/-- The role of a character. -/
def of (c : Char) : ClusterRole :=
  let code := c.toNat
  if code == 13 then .carriageReturn
  else if code == 10 then .lineFeed
  else if code == 0x200D then .joiner
  else if Text.regionalIndicator.contains code then .regionalIndicator
  else if prepended.contains code || clusterPrefix.contains code then .leading
  else if isExtending c || emojiModifier.contains code then .extend
  else
    match ofJamo? code with
    | some role => role
    | none =>
      match Category.of c with
      | .control | .format | .lineSeparator | .paragraphSeparator => .control
      | .unassigned => if isIgnorable c then .control else .other
      | .spacingMark => if looseMark.contains code then .other else .spacingMark
      | _ => if code == 0xE33 || code == 0xEB3 then .spacingMark else .other

/-- Whether a character is a control or ends a line. -/
def isControl (role : ClusterRole) : Bool :=
  role == .control || role == .carriageReturn || role == .lineFeed

/-- Whether two parts of Korean syllables stand in one syllable. -/
def joinsSyllable : ClusterRole → ClusterRole → Bool
  | .initialJamo, .initialJamo | .initialJamo, .vowelJamo | .initialJamo, .openSyllable
  | .initialJamo, .closedSyllable => true
  | .openSyllable, .vowelJamo | .openSyllable, .finalJamo => true
  | .vowelJamo, .vowelJamo | .vowelJamo, .finalJamo => true
  | .closedSyllable, .finalJamo | .finalJamo, .finalJamo => true
  | _, _ => false

end ClusterRole

/-- Whether a pictograph with characters that extend it ends a text, which is given last character
first. -/
def endsPictograph : List Char → Bool
  | [] => false
  | c :: rest =>
    pictographic.contains c.toNat || (ClusterRole.of c == .extend && endsPictograph rest)

/-- Whether a cluster ends between the characters before a place, the nearest first, and those after
it. -/
def isClusterBoundary : List Char → List Char → Bool
  | a :: before, b :: _ =>
    let left := ClusterRole.of a
    let right := ClusterRole.of b
    if left == .carriageReturn && right == .lineFeed then false
    else if left.isControl || right.isControl then true
    else if ClusterRole.joinsSyllable left right then false
    else if right == .extend || right == .joiner || right == .spacingMark then false
    else if left == .leading then false
    else if left == .joiner && pictographic.contains b.toNat then !endsPictograph before
    else if left == .regionalIndicator && right == .regionalIndicator then
      (before.takeWhile fun c => ClusterRole.of c == .regionalIndicator).length % 2 == 1
    else true
  | _, _ => true

end Text

end Highlight
