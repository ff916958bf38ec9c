import Highlight.Proofs.ScopeText
import Highlight.Proofs.Words
import Mathlib.Data.List.Induction

/-!
# Spellings of scopes

A name can be spelled in one way, but a placeholder in several: with or without braces, and with any
number of leading zeros. The texts that are read as scopes are the spelled parts with dots between them,
and the texts that are read as scope names are such scopes with blanks between them. What is written for
a scope is its spelling with the placeholders made plain.

- `Text.ofNat_digitsValue`: the digits of a number, apart from leading zeros.
- `Spelling`: a part as it can be spelled.
- `Part.read_eq_ok_iff`, `Scope.read_eq_ok_iff`, `ScopeName.ofText_eq_ok_iff`: what is read, and as what.
- `ScopeName.ofText_text`: a scope name is read back from its written form.
- `ScopeName.scope_names_spelled_exactly`: all of it.
-/

namespace Highlight

/-! ## Digits -/

namespace Text

/-- Digits without the zeros in front, of which one is kept if there is no other digit. -/
def withoutZeros : List Char → List Char
  | '0' :: d :: rest => withoutZeros (d :: rest)
  | digits => digits

theorem digitsValue_append_singleton (digits : List Char) (d : Char) :
    digitsValue (digits ++ [d]) = 10 * digitsValue digits + digitValue d := by
  unfold digitsValue
  rw [List.foldl_append]
  rfl

/-- A digit is what is written for its value. -/
theorem digitChar_digitValue {d : Char} (h : isDigit d = true) :
    digitValue d < 10 ∧ (digitValue d).digitChar = d := by
  have hrange : 48 ≤ d.toNat ∧ d.toNat ≤ 57 := by
    obtain ⟨hlow, hhigh⟩ := Bool.and_eq_true_iff.1 h
    exact ⟨of_decide_eq_true hlow, of_decide_eq_true hhigh⟩
  have hvalue : digitValue d = d.toNat - 48 := rfl
  have hchars : ∀ n < 10, n.digitChar = Char.ofNat (n + 48) := by decide
  have hlt : digitValue d < 10 := by omega
  refine ⟨hlt, ?_⟩
  rw [hchars _ hlt, hvalue, Nat.sub_add_cancel hrange.1, Char.ofNat_toNat]

/-- Digits that do not begin with a zero are what is written for their number. -/
theorem ofNat_digitsValue_of_head {digits : List Char} (hne : digits ≠ [])
    (hdigits : ∀ d ∈ digits, isDigit d = true) (hhead : digits.head? ≠ some '0') :
    ofNat (digitsValue digits) = digits ∧ 0 < digitsValue digits := by
  induction digits using List.reverseRecOn with
  | nil => exact absurd rfl hne
  | append_singleton digits d ih =>
    obtain ⟨hlt, hchar⟩ := digitChar_digitValue (hdigits d (by simp))
    rw [digitsValue_append_singleton]
    cases digits with
    | nil =>
      have hpos : 0 < digitValue d := by
        rcases Nat.eq_zero_or_pos (digitValue d) with hzero | hpos
        · rw [hzero] at hchar
          subst hchar
          exact absurd rfl hhead
        · exact hpos
      have hvalue : 10 * digitsValue [] + digitValue d = digitValue d := Nat.zero_add _
      rw [hvalue, ofNat, Nat.toDigits_of_lt_base hlt, hchar]
      exact ⟨rfl, hpos⟩
    | cons c digits =>
      obtain ⟨hwritten, hpos⟩ := ih (by simp)
        (fun e he => hdigits e (List.mem_append_left _ he)) hhead
      refine ⟨?_, by omega⟩
      rw [ofNat, ← Nat.toDigits_append_toDigits (by decide) hpos hlt,
        Nat.toDigits_of_lt_base hlt, hchar]
      exact congrArg (· ++ [d]) hwritten

/-- **What is written for a number** are its digits without leading zeros, however it was spelled. -/
theorem ofNat_digitsValue {digits : List Char} (hne : digits ≠ [])
    (hdigits : ∀ d ∈ digits, isDigit d = true) :
    ofNat (digitsValue digits) = withoutZeros digits := by
  induction digits using withoutZeros.induct with
  | case1 d rest ih =>
    rw [withoutZeros, ← ih (by simp) fun e he => hdigits e (List.mem_cons_of_mem _ he)]
    rfl
  | case2 digits hother =>
    rw [withoutZeros.eq_2 _ hother]
    by_cases hhead : digits.head? = some '0'
    · -- a zero by itself
      obtain ⟨rest, rfl⟩ := List.head?_eq_some_iff.1 hhead
      cases rest with
      | nil => rfl
      | cons d rest => exact absurd rfl (hother d rest)
    · exact (ofNat_digitsValue_of_head hne hdigits hhead).1

/-- The numerals are the texts of one or more digits. -/
theorem numeral?_eq_some_iff {cs : List Char} {n : Nat} :
    numeral? cs = some n ↔ cs ≠ [] ∧ (∀ c ∈ cs, isDigit c = true) ∧ digitsValue cs = n := by
  unfold numeral?
  rw [← List.all_eq_true]
  cases hempty : cs.isEmpty with
  | true => simp [List.isEmpty_iff.1 hempty]
  | false =>
    have hne : cs ≠ [] := List.isEmpty_eq_false_iff.1 hempty
    cases hall : cs.all isDigit with
    | false => simp
    | true => simp [hne]

end Text

/-! ## Reading lists -/

/-- When reading one thing is accepting its spellings, reading a list is accepting lists of them. -/
theorem mapM_eq_ok_iff {α β ε σ : Type} {read : α → Except ε β} {spell : σ → α} {mean : σ → β}
    (h : ∀ x y, read x = .ok y ↔ ∃ s, spell s = x ∧ mean s = y) {xs : List α} {ys : List β} :
    xs.mapM read = .ok ys ↔ ∃ ss : List σ, ss.map spell = xs ∧ ss.map mean = ys := by
  induction xs generalizing ys with
  | nil =>
    rw [List.mapM_nil]
    constructor
    · rintro ⟨⟩
      exact ⟨[], rfl, rfl⟩
    · rintro ⟨ss, hspell, rfl⟩
      rw [List.map_eq_nil_iff.1 hspell]
      rfl
  | cons x xs ih =>
    rw [List.mapM_cons]
    constructor
    · intro hread
      cases hx : read x with
      | error e =>
        rw [hx] at hread
        cases hread
      | ok y =>
        cases hxs : xs.mapM read with
        | error e =>
          rw [hx, hxs] at hread
          cases hread
        | ok ys =>
          rw [hx, hxs] at hread
          cases hread
          obtain ⟨s, rfl, rfl⟩ := (h x y).1 hx
          obtain ⟨ss, rfl, rfl⟩ := ih.1 hxs
          exact ⟨s :: ss, rfl, rfl⟩
    · rintro ⟨ss, hspell, rfl⟩
      obtain ⟨s, ss, rfl, rfl, rfl⟩ := List.map_eq_cons_iff.1 hspell
      rw [(h _ _).2 ⟨s, rfl, rfl⟩, ih.2 ⟨ss, rfl, rfl⟩]
      rfl

/-! ## Parts -/

/-- The digits of the number of a group, as they can stand in a placeholder. -/
structure GroupDigits where
  digits : List Char
  nonempty : digits ≠ []
  valid : ∀ d ∈ digits, Text.isDigit d = true
  fits : Text.digitsValue digits < UInt64.size

/-- A part of a scope as it can be spelled. -/
inductive Spelling where
  | name (n : Name)
  | plain (g : GroupDigits)
  | braced (g : GroupDigits)

namespace Spelling

/-- The characters of a spelling. -/
def chars : Spelling → List Char
  | .name n => n.chars
  | .plain g => '$' :: g.digits
  | .braced g => '$' :: '{' :: (g.digits ++ ['}'])

/-- The part that is spelled. -/
def part : Spelling → Part
  | .name n => .name n
  | .plain g | .braced g => .capture (UInt64.ofNat (Text.digitsValue g.digits))

/-- The spelling without braces and without leading zeros. -/
def tidy : Spelling → List Char
  | .name n => n.chars
  | .plain g | .braced g => '$' :: Text.withoutZeros g.digits

/-- What is written for a part is its spelling with a placeholder made plain. -/
theorem chars_part (sp : Spelling) : sp.part.chars = sp.tidy := by
  have hcapture : ∀ g : GroupDigits,
      Part.chars (.capture (UInt64.ofNat (Text.digitsValue g.digits))) =
        '$' :: Text.withoutZeros g.digits := by
    intro g
    rw [Part.chars, UInt64.toNat_ofNat_of_lt' g.fits, Text.ofNat_digitsValue g.nonempty g.valid]
  cases sp with
  | name n => rfl
  | plain g => exact hcapture g
  | braced g => exact hcapture g

theorem chars_ne_nil (sp : Spelling) : sp.chars ≠ [] := by
  cases sp with
  | name n => exact n.nonempty
  | plain g => exact List.cons_ne_nil _ _
  | braced g => exact List.cons_ne_nil _ _

/-- The characters of a spelling are those of names and those around the number of a group. -/
theorem mem_chars {sp : Spelling} {c : Char} (h : c ∈ sp.chars) :
    isNameChar c = true ∨ c ∈ ['$', '{', '}'] := by
  cases sp with
  | name n => exact .inl (List.all_eq_true.1 n.valid c h)
  | plain g =>
    rcases List.mem_cons.1 h with rfl | h
    · exact .inr (by decide)
    · exact .inl (isNameChar_of_isDigit (g.valid c h))
  | braced g =>
    simp only [chars, List.mem_cons, List.mem_append, List.not_mem_nil, or_false] at h
    rcases h with rfl | rfl | h | rfl
    · exact .inr (by decide)
    · exact .inr (by decide)
    · exact .inl (isNameChar_of_isDigit (g.valid c h))
    · exact .inr (by decide)

theorem dot_not_mem_chars (sp : Spelling) : '.' ∉ sp.chars := by
  intro h
  rcases mem_chars h with hname | hother
  · exact absurd hname (by decide)
  · exact absurd hother (by decide)

end Spelling

namespace Part

/-- A text is between braces, or its braces are left alone. -/
theorem withoutBraces_cases (cs : List Char) :
    withoutBraces cs = cs ∨ cs = '{' :: (withoutBraces cs ++ ['}']) := by
  unfold withoutBraces
  split
  · rename_i rest
    split
    · rename_i hlast
      obtain ⟨inner, rfl⟩ := List.getLast?_eq_some_iff.1 hlast
      rw [List.dropLast_concat]
      exact .inr rfl
    · exact .inl rfl
  · exact .inl rfl

theorem withoutBraces_digits {digits : List Char} (h : ∀ d ∈ digits, Text.isDigit d = true) :
    withoutBraces digits = digits := by
  unfold withoutBraces
  split
  · exact absurd (h '{' List.mem_cons_self) (by decide)
  · rfl

theorem withoutBraces_braced (cs : List Char) : withoutBraces ('{' :: (cs ++ ['}'])) = cs := by
  rw [withoutBraces, List.getLast?_concat, List.dropLast_concat, if_pos rfl]

/-- A placeholder is read if its number fits. -/
theorem readCapture_digits (part rest : List Char) (g : GroupDigits)
    (h : withoutBraces rest = g.digits) :
    readCapture part rest = .ok (.capture (UInt64.ofNat (Text.digitsValue g.digits))) := by
  unfold readCapture
  rw [h, Text.numeral?_eq_some_iff.2 ⟨g.nonempty, g.valid, rfl⟩]
  exact if_pos g.fits

/-- **What is read as a part** are its spellings. -/
theorem read_eq_ok_iff {cs : List Char} {p : Part} :
    read cs = .ok p ↔ ∃ sp : Spelling, sp.chars = cs ∧ sp.part = p := by
  constructor
  · intro h
    unfold read at h
    split at h
    · cases h
    · rename_i rest
      unfold readCapture at h
      split at h
      · cases h
      · rename_i n hn
        split at h
        · rename_i hfits
          cases h
          obtain ⟨hne, hdigits, rfl⟩ := Text.numeral?_eq_some_iff.1 hn
          rcases withoutBraces_cases rest with hplain | hbraced
          · exact ⟨.plain ⟨withoutBraces rest, hne, hdigits, hfits⟩,
              congrArg ('$' :: ·) hplain, rfl⟩
          · exact ⟨.braced ⟨withoutBraces rest, hne, hdigits, hfits⟩,
              congrArg ('$' :: ·) hbraced.symm, rfl⟩
        · cases h
    · split at h
      · rename_i hvalid
        cases h
        exact ⟨.name ⟨_, List.cons_ne_nil _ _, hvalid⟩, rfl, rfl⟩
      · cases h
  · rintro ⟨sp, rfl, rfl⟩
    cases sp with
    | name n => exact read_chars (.name n)
    | plain g => exact readCapture_digits _ _ g (withoutBraces_digits g.valid)
    | braced g => exact readCapture_digits _ _ g (withoutBraces_braced g.digits)

end Part

/-! ## Scopes -/

/-- A scope as it can be spelled. -/
structure ScopeSpelling where
  parts : List Spelling
  nonempty : parts ≠ []

namespace ScopeSpelling

/-- The characters of a spelling: the spelled parts with dots between them. -/
def chars (sp : ScopeSpelling) : List Char := Text.joined '.' (sp.parts.map Spelling.chars)

/-- The scope that is spelled. -/
def scope (sp : ScopeSpelling) : Scope := ⟨sp.parts.map Spelling.part, by simpa using sp.nonempty⟩

/-- The spelling with each placeholder written without braces and leading zeros. -/
def tidy (sp : ScopeSpelling) : List Char := Text.joined '.' (sp.parts.map Spelling.tidy)

/-- **What is written for a scope** is its spelling with the placeholders made plain. -/
theorem chars_scope (sp : ScopeSpelling) : sp.scope.chars = sp.tidy := by
  have hparts : (sp.parts.map Spelling.part).map Part.chars = sp.parts.map Spelling.tidy := by
    rw [List.map_map]
    exact List.map_congr_left fun p _ => p.chars_part
  exact congrArg (Text.joined '.') hparts

theorem pieces_chars (sp : ScopeSpelling) :
    Text.pieces '.' sp.chars = sp.parts.map Spelling.chars := by
  refine Text.pieces_joined (by simpa using sp.nonempty) fun cs hcs => ?_
  obtain ⟨p, -, rfl⟩ := List.mem_map.1 hcs
  exact p.dot_not_mem_chars

theorem chars_ne_nil (sp : ScopeSpelling) : sp.chars ≠ [] := by
  intro h
  have hpieces := sp.pieces_chars
  obtain ⟨p, ps, hparts⟩ := List.exists_cons_of_ne_nil sp.nonempty
  rw [h, hparts, List.map_cons] at hpieces
  exact p.chars_ne_nil (List.cons.inj hpieces).1.symm

end ScopeSpelling

namespace Scope

/-- **What is read as a scope** are its spellings. -/
theorem read_eq_ok_iff {cs : List Char} {s : Scope} :
    read cs = .ok s ↔ ∃ sp : ScopeSpelling, sp.chars = cs ∧ sp.scope = s := by
  constructor
  · intro h
    unfold read at h
    split at h
    · cases h
    · split at h
      · cases h
      · cases h
      · rename_i p ps hparts
        cases h
        obtain ⟨sps, hchars, hmean⟩ := (mapM_eq_ok_iff fun _ _ => Part.read_eq_ok_iff).1 hparts
        refine ⟨⟨sps, ?_⟩, ?_, ?_⟩
        · rintro rfl
          cases hmean
        · rw [ScopeSpelling.chars, hchars, Text.joined_pieces]
        · simp only [ScopeSpelling.scope, hmean]
  · rintro ⟨sp, rfl, rfl⟩
    have hparts : (Text.pieces '.' sp.chars).mapM Part.read = .ok (sp.parts.map Spelling.part) :=
      (mapM_eq_ok_iff fun _ _ => Part.read_eq_ok_iff).2 ⟨sp.parts, sp.pieces_chars.symm, rfl⟩
    unfold read
    rw [List.isEmpty_eq_false_iff.2 sp.chars_ne_nil, hparts]
    obtain ⟨p, ps, hcons⟩ := List.exists_cons_of_ne_nil sp.nonempty
    simp only [ScopeSpelling.scope, hcons, List.map_cons]
    rfl

theorem ofText_eq_ok_iff {s : String} {scope : Scope} :
    ofText s = .ok scope ↔ ∃ sp : ScopeSpelling, sp.chars = s.toList ∧ sp.scope = scope := by
  rw [← read_eq_ok_iff]
  unfold ofText
  cases read s.toList with
  | ok t => simp
  | error fault => simp

end Scope

/-! ## Scope names -/

theorem isBlank_of_isNameChar {c : Char} (h : isNameChar c = true) : Text.isBlank c = false := by
  have hrange : 33 ≤ c.toNat ∧ c.toNat ≤ 122 := by
    simp only [isNameChar, Bool.or_eq_true, beq_iff_eq] at h
    rcases h with (halphanum | rfl) | rfl
    · have hcodes := Text.isAlphanum_iff.1 halphanum
      omega
    · decide
    · decide
  simp only [Text.isBlank, Bool.or_eq_false_iff, Bool.and_eq_false_iff, decide_eq_false_iff_not,
    beq_eq_false_iff_ne]
  omega

namespace ScopeSpelling

/-- A scope is a word, however it is spelled. -/
theorem isWord_chars (sp : ScopeSpelling) : Text.IsWord sp.chars := by
  refine ⟨sp.chars_ne_nil, fun c hc => ?_⟩
  rcases Text.mem_joined hc with rfl | ⟨cs, hcs, hc⟩
  · decide
  · obtain ⟨p, -, rfl⟩ := List.mem_map.1 hcs
    rcases Spelling.mem_chars hc with hname | hother
    · exact isBlank_of_isNameChar hname
    · have hothers : ∀ d ∈ ['$', '{', '}'], Text.isBlank d = false := by simp [Text.isBlank]
      exact hothers c hother

end ScopeSpelling

theorem Scope.isWord_chars (s : Scope) : Text.IsWord s.chars := by
  obtain ⟨sp, hchars, -⟩ := Scope.read_eq_ok_iff.1 s.read_chars
  exact hchars ▸ sp.isWord_chars

namespace ScopeName

/-- **What is read as a scope name** are spelled scopes with blanks between them. -/
theorem ofText_eq_ok_iff {s : String} {name : ScopeName} :
    ofText s = .ok name ↔ ∃ sps : List ScopeSpelling,
      Text.Spaced (sps.map ScopeSpelling.chars) s.toList ∧
        sps.map ScopeSpelling.scope = name.scopes := by
  have hread : ∀ scopes, ((Text.words s.toList).mapM fun w => Scope.ofText (String.ofList w)) =
      .ok scopes ↔ ∃ sps : List ScopeSpelling,
        Text.Spaced (sps.map ScopeSpelling.chars) s.toList ∧
          sps.map ScopeSpelling.scope = scopes := by
    intro scopes
    rw [mapM_eq_ok_iff fun w scope => by rw [Scope.ofText_eq_ok_iff, String.toList_ofList]]
    simp only [← Text.words_eq_iff, eq_comm (a := Text.words _)]
  rw [← hread]
  unfold ofText
  cases (Text.words s.toList).mapM fun w => Scope.ofText (String.ofList w) with
  | error e => simp
  | ok scopes =>
    cases scopes with
    | nil => simpa using name.nonempty
    | cons scope scopes =>
      obtain ⟨others, hne⟩ := name
      simp

/-- A scope name is read back from its written form. -/
theorem ofText_text (n : ScopeName) : ofText n.text = .ok n := by
  have hwords : Text.words n.chars = n.scopes.map Scope.chars := by
    refine Text.words_eq_iff.2 (Text.spaced_joined fun w hw => ?_)
    obtain ⟨s, -, rfl⟩ := List.mem_map.1 hw
    exact s.isWord_chars
  have hread : (n.scopes.map Scope.chars).mapM (fun w => Scope.ofText (String.ofList w)) =
      .ok n.scopes :=
    mapM_written (fun w => Scope.ofText (String.ofList w)) Scope.chars Scope.ofText_text n.scopes
  obtain ⟨scopes, hne⟩ := n
  obtain ⟨scope, rest, rfl⟩ := List.exists_cons_of_ne_nil hne
  unfold ofText text
  rw [String.toList_ofList, hwords, hread]

/-- **Scope names are spelled exactly.** A text is read as a scope if it is one or more spelled parts
with dots between them, and as a scope name if it is one or more such scopes with blanks between them.
What is written for a scope is what was read with each placeholder made plain, and what is written for a
scope or a scope name is read as the same once more. -/
theorem scope_names_spelled_exactly (s : String) :
    ((∃ scope, Scope.ofText s = .ok scope) ↔ ∃ sp : ScopeSpelling, sp.chars = s.toList) ∧
      (∀ sp : ScopeSpelling, sp.chars = s.toList →
        Scope.ofText s = .ok sp.scope ∧ sp.scope.text = String.ofList sp.tidy ∧
          Scope.ofText sp.scope.text = .ok sp.scope) ∧
      ((∃ name, ofText s = .ok name) ↔ ∃ sps : List ScopeSpelling,
        sps ≠ [] ∧ Text.Spaced (sps.map ScopeSpelling.chars) s.toList) ∧
      ∀ sps : List ScopeSpelling, sps ≠ [] →
        Text.Spaced (sps.map ScopeSpelling.chars) s.toList →
          ∃ name, ofText s = .ok name ∧ name.scopes = sps.map ScopeSpelling.scope ∧
            ofText name.text = .ok name := by
  have haccepted : ∀ sps : List ScopeSpelling, sps ≠ [] →
      Text.Spaced (sps.map ScopeSpelling.chars) s.toList →
        ∃ name, ofText s = .ok name ∧ name.scopes = sps.map ScopeSpelling.scope ∧
          ofText name.text = .ok name := by
    intro sps hne hspaced
    let name : ScopeName := ⟨sps.map ScopeSpelling.scope, by simpa using hne⟩
    exact ⟨name, ofText_eq_ok_iff.2 ⟨sps, hspaced, rfl⟩, rfl, name.ofText_text⟩
  refine ⟨?_, ?_, ?_, haccepted⟩
  · constructor
    · rintro ⟨scope, h⟩
      obtain ⟨sp, hchars, -⟩ := Scope.ofText_eq_ok_iff.1 h
      exact ⟨sp, hchars⟩
    · rintro ⟨sp, hchars⟩
      exact ⟨sp.scope, Scope.ofText_eq_ok_iff.2 ⟨sp, hchars, rfl⟩⟩
  · intro sp hchars
    exact ⟨Scope.ofText_eq_ok_iff.2 ⟨sp, hchars, rfl⟩, congrArg String.ofList sp.chars_scope,
      sp.scope.ofText_text⟩
  · constructor
    · rintro ⟨name, h⟩
      obtain ⟨sps, hspaced, hscopes⟩ := ofText_eq_ok_iff.1 h
      refine ⟨sps, ?_, hspaced⟩
      rintro rfl
      exact name.nonempty hscopes.symm
    · rintro ⟨sps, hne, hspaced⟩
      obtain ⟨name, hread, -⟩ := haccepted sps hne hspaced
      exact ⟨name, hread⟩

/-- Braces and a leading zero are not written again, and neither are the blanks around a scope. -/
theorem scope_names_spelled_exactly_braced :
    let sp : ScopeSpelling := ⟨[.name { chars := ['a'] },
      .braced ⟨['0', '7'], by decide, by simp [Text.isDigit], by decide⟩], by simp⟩
    sp.chars = "a.$\x7b07\x7d".toList ∧ Scope.ofText "a.$\x7b07\x7d" = .ok sp.scope ∧
      sp.scope.text = "a.$7" ∧ Scope.ofText "a.$7" = .ok sp.scope ∧
      ∃ name, ofText "  a.$\x7b07\x7d " = .ok name ∧ name.scopes = [sp.scope] ∧
        ofText name.text = .ok name := by
  intro sp
  have hchars : sp.chars = "a.$\x7b07\x7d".toList := by decide
  obtain ⟨hread, htext, hback⟩ := (scope_names_spelled_exactly "a.$\x7b07\x7d").2.1 sp hchars
  have htidy : String.ofList sp.tidy = "a.$7" := by decide
  have hspaced : Text.Spaced ([sp].map ScopeSpelling.chars) "  a.$\x7b07\x7d ".toList :=
    Text.words_eq_iff.1 (by decide)
  exact ⟨hchars, hread, htext.trans htidy, (htext.trans htidy) ▸ hback,
    (scope_names_spelled_exactly "  a.$\x7b07\x7d ").2.2.2 [sp] (by simp) hspaced⟩

end ScopeName

end Highlight
