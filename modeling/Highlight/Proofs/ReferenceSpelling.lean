import Highlight.Proofs.ScopeSpelling
import Highlight.Reference
import Highlight.Registry
import Mathlib.Data.List.TakeWhile

/-!
# Spellings of include references

What an include names is told by the number sign, by dots and by a dollar sign in front. Behind a number
sign these stand for nothing, so a key can have dots and dollar signs too if it is marked. That is how
keys are written, and why every reference is read back from its written form.

- `Text.trim_isEmpty_iff`: texts of blanks.
- `Reference.isPlainScope_iff`: a scope without placeholders has but one spelling.
- `Reference.IsKey`, `Reference.Written`: the texts that are references, and what they name.
- `Reference.read?_eq_some_iff`: these are read, and nothing else.
- `Reference.Written.text_eq`, `Reference.Written.text`: what is written for a reference.
- `Reference.references_spelled_exactly`: all of it.
-/

namespace Highlight

theorem Text.trim_isEmpty_iff {cs : List Char} :
    (trim cs).isEmpty = true ↔ ∀ c ∈ cs, isBlank c = true := by
  have hleft : ∀ c ∈ cs.takeWhile isBlank, isBlank c = true := List.all_eq_true.1 List.all_takeWhile
  have hsplit : ∀ c, c ∈ cs ↔ c ∈ cs.takeWhile isBlank ∨ c ∈ cs.dropWhile isBlank := by
    intro c
    rw [← List.mem_append, List.takeWhile_append_dropWhile]
  rw [List.isEmpty_iff, trim, List.reverse_eq_nil_iff, trimLeft, List.dropWhile_eq_nil_iff]
  constructor
  · intro h c hc
    rcases (hsplit c).1 hc with hc | hc
    · exact hleft c hc
    · exact h c (List.mem_reverse.2 hc)
  · intro h c hc
    exact h c ((hsplit c).2 (.inr (List.mem_reverse.1 hc)))

/-! ## Scopes without placeholders -/

namespace Scope

/-- The written form of a scope without placeholders has name characters and dots only. -/
theorem mem_chars_of_plain {s : Scope} (h : s.hasCaptures = false) {c : Char} (hc : c ∈ s.chars) :
    isNameChar c = true ∨ c = '.' := by
  rcases Text.mem_joined hc with rfl | ⟨cs, hcs, hc⟩
  · exact .inr rfl
  · obtain ⟨p, hp, rfl⟩ := List.mem_map.1 hcs
    cases p with
    | name n => exact .inl (List.all_eq_true.1 n.valid c hc)
    | capture group => exact absurd rfl (List.any_eq_false.1 h _ hp)

theorem not_mem_chars_of_plain {s : Scope} (h : s.hasCaptures = false) {c : Char}
    (hname : isNameChar c = false) (hdot : c ≠ '.') : c ∉ s.chars := by
  intro hc
  rcases mem_chars_of_plain h hc with hc | hc
  · rw [hname] at hc
    cases hc
  · exact hdot hc

/-- A scope without placeholders has one spelling. -/
theorem chars_of_read {cs : List Char} {s : Scope} (h : read cs = .ok s)
    (hplain : s.hasCaptures = false) : s.chars = cs := by
  obtain ⟨sp, rfl, rfl⟩ := read_eq_ok_iff.1 h
  have htidy : sp.parts.map Spelling.tidy = sp.parts.map Spelling.chars := by
    refine List.map_congr_left fun p hp => ?_
    have hname := List.any_eq_false.1 hplain p.part (List.mem_map_of_mem hp)
    cases p with
    | name n => rfl
    | plain g => exact absurd rfl hname
    | braced g => exact absurd rfl hname
  rw [ScopeSpelling.chars_scope, ScopeSpelling.tidy, htidy]
  rfl

end Scope

namespace Reference

theorem isPlainScope_iff {cs : List Char} :
    isPlainScope cs = true ↔ ∃ s : Scope, s.hasCaptures = false ∧ s.chars = cs := by
  constructor
  · intro h
    unfold isPlainScope at h
    split at h
    · rename_i s hread
      have hplain : s.hasCaptures = false := by simpa using h
      exact ⟨s, hplain, Scope.chars_of_read hread hplain⟩
    · cases h
  · rintro ⟨s, hplain, rfl⟩
    unfold isPlainScope
    rw [s.read_chars]
    simp [hplain]

/-! ## References as they are written -/

/-- A key that can stand in a reference: not blank, and without a number sign. -/
def IsKey (key : List Char) : Prop := '#' ∉ key ∧ ∃ c ∈ key, Text.isBlank c = false

/-- The texts that are references, and what they name. -/
inductive Written : List Char → Reference → Prop
  | self : Written "$self".toList .self
  | base : Written "$base".toList .base
  | marked {key : List Char} : IsKey key → Written ('#' :: key) (.entry (String.ofList key))
  | bare {key : List Char} : IsKey key → '.' ∉ key → key.head? ≠ some '$' →
    Written key (.entry (String.ofList key))
  | scope {s : Scope} : s.hasCaptures = false → '.' ∈ s.chars → Written s.chars (.external s.text none)
  | scopeKey {s : Scope} {key : List Char} : s.hasCaptures = false → IsKey key →
    Written (s.chars ++ '#' :: key) (.external s.text (some (String.ofList key)))

theorem isKey_iff {key : List Char} :
    IsKey key ↔ ¬ '#' ∈ key ∧ ¬ (Text.trim key).isEmpty = true := by
  rw [Text.trim_isEmpty_iff, IsKey]
  simp

theorem IsKey.ne_nil {key : List Char} (h : IsKey key) : key ≠ [] := by
  rintro rfl
  obtain ⟨-, c, hc, -⟩ := h
  cases hc

/-! ## Reading -/

theorem splitKey?_eq_none {cs : List Char} (h : '#' ∉ cs) : splitKey? cs = none := by
  induction cs with
  | nil => rfl
  | cons c cs ih =>
    simp only [List.mem_cons, not_or] at h
    rw [splitKey?, if_neg (Ne.symm h.1), ih h.2]
    rfl

theorem splitKey?_append {scope : List Char} (h : '#' ∉ scope) (key : List Char) :
    splitKey? (scope ++ '#' :: key) = some (scope, key) := by
  induction scope with
  | nil => exact if_pos rfl
  | cons c scope ih =>
    simp only [List.mem_cons, not_or] at h
    rw [List.cons_append, splitKey?, if_neg (Ne.symm h.1), ih h.2]
    rfl

/-- Without a number sign and without dots a text is a key. -/
theorem readNamed?_bare {key : List Char} (h : '#' ∉ key) (hdot : '.' ∉ key) {r : Reference} :
    readNamed? key = some r ↔ IsKey key ∧ r = .entry (String.ofList key) := by
  have hhalves : halves key = ([], some key) := by
    rw [halves, splitKey?_eq_none h]
    exact if_neg hdot
  have hcount : ¬ 1 < key.count '#' := by
    rw [List.count_eq_zero.2 h]
    exact Nat.not_lt_zero _
  rw [readNamed?, if_neg hcount, hhalves, isKey_iff]
  by_cases hblank : (Text.trim key).isEmpty = true
  · simp [hblank]
  · simp [hblank, h, eq_comm]

/-- Without a number sign a dotted text is a scope. -/
theorem readNamed?_dotted {cs : List Char} (h : '#' ∉ cs) (hdot : '.' ∈ cs) {r : Reference} :
    readNamed? cs = some r ↔
      isPlainScope cs = true ∧ r = .external (String.ofList cs) none := by
  have hhalves : halves cs = (cs, none) := by
    rw [halves, splitKey?_eq_none h]
    exact if_pos hdot
  have hcount : ¬ 1 < cs.count '#' := by
    rw [List.count_eq_zero.2 h]
    exact Nat.not_lt_zero _
  have hne : ¬ cs.isEmpty = true := by
    rw [List.isEmpty_iff]
    rintro rfl
    cases hdot
  rw [readNamed?, if_neg hcount, hhalves]
  by_cases hplain : isPlainScope cs = true
  · simp [hne, hplain, eq_comm]
  · simp [hne, hplain]

/-- With a number sign a text is a key, or a scope and a key. -/
theorem readNamed?_append {scope : List Char} (h : '#' ∉ scope) (key : List Char) {r : Reference} :
    readNamed? (scope ++ '#' :: key) = some r ↔
      IsKey key ∧ (scope = [] ∧ r = .entry (String.ofList key) ∨ scope ≠ [] ∧
        isPlainScope scope = true ∧
          r = .external (String.ofList scope) (some (String.ofList key))) := by
  have hhalves : halves (scope ++ '#' :: key) = (scope, some key) := by
    rw [halves, splitKey?_append h]
  have hcount : 1 < (scope ++ '#' :: key).count '#' ↔ '#' ∈ key := by
    rw [List.count_append, List.count_eq_zero.2 h, List.count_cons_self, ← List.count_pos_iff]
    omega
  rw [readNamed?, hhalves, isKey_iff]
  simp only [hcount, Option.any_some, Option.map_some, Option.getD_some]
  by_cases hsign : '#' ∈ key
  · simp [hsign]
  · by_cases hblank : (Text.trim key).isEmpty = true
    · simp [hsign, hblank]
    · by_cases hempty : scope = []
      · simp [hsign, hblank, hempty, eq_comm (a := r)]
      · by_cases hplain : isPlainScope scope = true
        · simp [hsign, hblank, hempty, hplain, eq_comm (a := r)]
        · simp [hsign, hblank, hempty, hplain]

/-- A text that begins with no dollar sign is read as a key or a scope, or both. -/
theorem readNamed?_eq_some_iff {cs : List Char} (hne : cs ≠ []) (hhead : cs.head? ≠ some '$')
    {r : Reference} : readNamed? cs = some r ↔ Written cs r := by
  constructor
  · intro h
    by_cases hsign : '#' ∈ cs
    · obtain ⟨scope, key, rfl, hscope⟩ := List.eq_append_cons_of_mem hsign
      obtain ⟨hkey, ⟨rfl, rfl⟩ | ⟨-, hplain, rfl⟩⟩ := (readNamed?_append hscope key).1 h
      · exact .marked hkey
      · obtain ⟨s, hcaptures, rfl⟩ := isPlainScope_iff.1 hplain
        exact .scopeKey hcaptures hkey
    · by_cases hdot : '.' ∈ cs
      · obtain ⟨hplain, rfl⟩ := (readNamed?_dotted hsign hdot).1 h
        obtain ⟨s, hcaptures, rfl⟩ := isPlainScope_iff.1 hplain
        exact .scope hcaptures hdot
      · obtain ⟨hkey, rfl⟩ := (readNamed?_bare hsign hdot).1 h
        exact .bare hkey hdot hhead
  · intro h
    cases h with
    | self => exact absurd rfl hhead
    | base => exact absurd rfl hhead
    | marked hkey => exact (readNamed?_append List.not_mem_nil _).2 ⟨hkey, .inl ⟨rfl, rfl⟩⟩
    | bare hkey hdot => exact (readNamed?_bare hkey.1 hdot).2 ⟨hkey, rfl⟩
    | scope hcaptures hdot =>
      exact (readNamed?_dotted (Scope.not_mem_chars_of_plain hcaptures (by decide) (by decide))
        hdot).2 ⟨isPlainScope_iff.2 ⟨_, hcaptures, rfl⟩, rfl⟩
    | @scopeKey s key hcaptures hkey =>
      exact (readNamed?_append (Scope.not_mem_chars_of_plain hcaptures (by decide) (by decide))
        _).2 ⟨hkey, .inr ⟨s.chars_ne_nil, isPlainScope_iff.2 ⟨s, hcaptures, rfl⟩, rfl⟩⟩

/-- Of the texts that begin with a dollar sign two are references. -/
theorem Written.of_dollar {rest : List Char} {r : Reference} (h : Written ('$' :: rest) r) :
    rest = "self".toList ∧ r = .self ∨ rest = "base".toList ∧ r = .base := by
  generalize hcs : '$' :: rest = cs at h
  cases h with
  | self =>
    cases hcs
    exact .inl ⟨rfl, rfl⟩
  | base =>
    cases hcs
    exact .inr ⟨rfl, rfl⟩
  | marked => cases hcs
  | bare _ _ hhead =>
    rw [← hcs] at hhead
    exact absurd rfl hhead
  | scope hcaptures =>
    have hdollar := Scope.not_mem_chars_of_plain (c := '$') hcaptures (by decide) (by decide)
    rw [← hcs] at hdollar
    exact absurd List.mem_cons_self hdollar
  | @scopeKey s key hcaptures =>
    have hdollar := Scope.not_mem_chars_of_plain (c := '$') hcaptures (by decide) (by decide)
    obtain ⟨c, chars, hchars⟩ := List.exists_cons_of_ne_nil s.chars_ne_nil
    rw [hchars] at hcs hdollar
    cases hcs
    exact absurd List.mem_cons_self hdollar

/-- **What is read as a reference** are the texts that are written so. -/
theorem read?_eq_some_iff {raw : String} {r : Reference} :
    read? raw = some r ↔ Written raw.toList r := by
  unfold read?
  split
  · rename_i hnil
    rw [hnil]
    constructor
    · rintro ⟨⟩
    · intro h
      generalize hcs : [] = cs at h
      cases h with
      | self => cases hcs
      | base => cases hcs
      | marked => cases hcs
      | bare hkey => exact absurd hcs.symm hkey.ne_nil
      | @scope s => exact absurd hcs.symm s.chars_ne_nil
      | scopeKey => simp at hcs
  · rename_i rest hdollar
    rw [hdollar]
    constructor
    · intro h
      split at h
      · rename_i hself
        cases h
        rw [hself]
        exact .self
      · split at h
        · rename_i hbase
          cases h
          rw [hbase]
          exact .base
        · cases h
    · intro h
      rcases h.of_dollar with ⟨rfl, rfl⟩ | ⟨rfl, rfl⟩
      · rfl
      · rfl
  · rename_i hne hdollar
    refine readNamed?_eq_some_iff hne fun hhead => ?_
    obtain ⟨rest, hcons⟩ := List.head?_eq_some_iff.1 hhead
    exact hdollar rest hcons

/-! ## Writing -/

theorem toList_text_entry (key : List Char) :
    (Reference.entry (String.ofList key)).text.toList = '#' :: key := by
  simp [Reference.text]

theorem toList_text_scope (s : Scope) :
    (Reference.external s.text none).text.toList = s.chars := by
  simp [Reference.text, Scope.text]

theorem toList_text_scopeKey (s : Scope) (key : List Char) :
    (Reference.external s.text (some (String.ofList key))).text.toList = s.chars ++ '#' :: key := by
  simp [Reference.text, Scope.text]

/-- What is written for a reference is what it was read from, but a key is marked. -/
theorem Written.text_eq {cs : List Char} {r : Reference} (h : Written cs r) :
    r.text.toList = cs ∨
      '#' ∉ cs ∧ r = .entry (String.ofList cs) ∧ r.text.toList = '#' :: cs := by
  cases h with
  | self => exact .inl rfl
  | base => exact .inl rfl
  | marked => exact .inl (toList_text_entry _)
  | bare hkey => exact .inr ⟨hkey.1, rfl, toList_text_entry _⟩
  | @scope s => exact .inl (toList_text_scope s)
  | @scopeKey s key => exact .inl (toList_text_scopeKey s key)

/-- What is written for a reference is a reference to the same. -/
theorem Written.text {cs : List Char} {r : Reference} (h : Written cs r) :
    Written r.text.toList r := by
  cases h with
  | self => exact .self
  | base => exact .base
  | marked hkey =>
    rw [toList_text_entry]
    exact .marked hkey
  | bare hkey =>
    rw [toList_text_entry]
    exact .marked hkey
  | scope hcaptures hdot =>
    rw [toList_text_scope]
    exact .scope hcaptures hdot
  | scopeKey hcaptures hkey =>
    rw [toList_text_scopeKey]
    exact .scopeKey hcaptures hkey

/-- A grammar can be placed where another one looks for it. -/
theorem Written.checkPath_eq_ok {cs : List Char} {r : Reference} (h : Written cs r) {path : String}
    (hpath : r.externalScope? = some path) : Registry.checkPath path = .ok () := by
  have hplain : ∀ s : Scope, s.hasCaptures = false → Registry.checkPath s.text = .ok () := by
    intro s hcaptures
    unfold Registry.checkPath
    rw [s.ofText_text]
    simp [hcaptures]
  cases h with
  | self => cases hpath
  | base => cases hpath
  | marked => cases hpath
  | bare => cases hpath
  | @scope s hcaptures =>
    cases hpath
    exact hplain s hcaptures
  | @scopeKey s _ hcaptures =>
    cases hpath
    exact hplain s hcaptures

/-- **References are spelled exactly.** A text is read as a reference if it is `$self`, `$base`, a key, or
a scope without placeholders with or without a key. A key is not blank and has no number sign. It stands
behind a number sign; it can stand by itself if it has no dot and does not begin with a dollar sign, and
a scope can if it has a dot. What is written for a reference is what was read, except that a key by
itself gets its number sign, and it is read as the same reference. A scope that a reference names is a
path at which a grammar can be placed. -/
theorem references_spelled_exactly (raw : String) :
    (∀ r, read? raw = some r ↔ Written raw.toList r) ∧
      ∀ r, read? raw = some r →
        (r.text = raw ∨ '#' ∉ raw.toList ∧ r = .entry raw ∧ r.text = "#" ++ raw) ∧
          read? r.text = some r ∧
          ∀ path, r.externalScope? = some path → Registry.checkPath path = .ok () := by
  refine ⟨fun _ => read?_eq_some_iff, fun r h => ?_⟩
  have hwritten := read?_eq_some_iff.1 h
  refine ⟨?_, read?_eq_some_iff.2 hwritten.text, fun _ => hwritten.checkPath_eq_ok⟩
  rcases hwritten.text_eq with hsame | ⟨hsign, hentry, hmarked⟩
  · exact .inl (String.toList_inj.1 hsame)
  · rw [String.ofList_toList] at hentry
    refine .inr ⟨hsign, hentry, String.toList_inj.1 ?_⟩
    rw [hmarked, String.toList_append]
    rfl

/-- A key that is marked can have dots and dollar signs. -/
theorem references_spelled_exactly_key :
    let r : Reference := .external "source.js" (some "$a.b")
    read? "source.js#$a.b" = some r ∧ read? r.text = some r ∧
      Registry.checkPath "source.js" = .ok () := by
  intro r
  have hread : read? "source.js#$a.b" = some r := by decide
  obtain ⟨-, hback, hpath⟩ := (references_spelled_exactly "source.js#$a.b").2 r hread
  exact ⟨hread, hback, hpath "source.js" rfl⟩

end Reference

end Highlight
