import Highlight.Json.Reader
import Highlight.Json.Writer
import Mathlib.Data.List.Forall2

/-!
# JSON is read back from its written form

The writer and the reader are put together value by value: a value is `Readable` if the reader takes
exactly the text that the writer wrote for it, whatever follows. Strings, natural numbers and truth
values are, and so are arrays and objects of readable values.

The reader counts its steps. Two for each character are enough, because what is read inside of a
bracket is shorter by the bracket, and each further item by a comma.

- `Json.readString_charsBefore`: a string, with all its escapes.
- `Json.Reads`, `Json.Readable`: a value and its text.
- `Json.readable_string`, `Json.readable_nat`, `Json.readable_bool`, `Json.readable_array`,
  `Json.readable_object`: the values that are readable.
- `Json.Readable.ofText?_text`: a whole text.
-/

namespace Highlight

namespace Json

/-! ## Strings -/

/-- An element that stands for a character: the character itself, or its number if it is one of the
control characters. -/
def Stands (e : Element) (c : Char) : Prop :=
  e = .char c ∨ (e = .unit c.toNat ∧ c.toNat < 32)

/-- The numeric escape of a control character stands for its number. -/
theorem hex4?_control :
    ∀ n < 32, hex4? '0' '0' (hexDigit (n / 16)) (hexDigit (n % 16)) = some n := by
  decide

/-- A character is read as one element. -/
theorem exists_element (c : Char) :
    ∃ e, Stands e c ∧ ∀ read rest,
      readElements read (escaped c ++ rest) = readElements (e :: read) rest := by
  unfold escaped
  split
  · rename_i h
    subst h
    exact ⟨_, .inl rfl, fun _ _ => rfl⟩
  split
  · rename_i h
    subst h
    exact ⟨_, .inl rfl, fun _ _ => rfl⟩
  split
  · rename_i h
    subst h
    exact ⟨_, .inl rfl, fun _ _ => rfl⟩
  split
  · rename_i h
    subst h
    exact ⟨_, .inl rfl, fun _ _ => rfl⟩
  split
  · rename_i h
    subst h
    exact ⟨_, .inl rfl, fun _ _ => rfl⟩
  split
  · rename_i h
    have hc : c = Char.ofNat 8 := by rw [← h, Char.ofNat_toNat]
    subst hc
    exact ⟨_, .inl rfl, fun _ _ => rfl⟩
  split
  · rename_i h
    have hc : c = Char.ofNat 12 := by rw [← h, Char.ofNat_toNat]
    subst hc
    exact ⟨_, .inl rfl, fun _ _ => rfl⟩
  split
  · rename_i h
    refine ⟨.unit c.toNat, .inr ⟨rfl, h⟩, fun read rest => ?_⟩
    simp only [List.cons_append, List.nil_append, readElements]
    rw [hex4?_control c.toNat h]
  · -- what is left needs no escape
    rename_i hquote hslash _ _ _ _ _ hcontrol
    refine ⟨.char c, .inl rfl, fun read rest => ?_⟩
    rw [List.singleton_append, readElements.eq_def]
    split
    · simp_all
    · simp_all
    · simp_all
    · simp_all
    · rename_i heq
      cases heq
      exact if_neg hcontrol

/-- The characters of a string are read one by one up to the quote. -/
theorem readElements_charsBefore (read : List Element) (rest cs : List Char) :
    ∃ es, List.Forall₂ Stands es cs ∧
      readElements read (charsBefore rest cs) = some (read.reverse ++ es, rest) := by
  induction cs generalizing read with
  | nil => exact ⟨[], .nil, by simp [charsBefore, readElements]⟩
  | cons c cs ih =>
    obtain ⟨e, he, hread⟩ := exists_element c
    obtain ⟨es, hes, hrest⟩ := ih (e :: read)
    refine ⟨e :: es, .cons he hes, ?_⟩
    rw [charsBefore, hread, hrest, List.reverse_cons, List.append_assoc, List.singleton_append]

/-- Elements that stand for characters stand for the text of these characters. No number of a
control character is half of a surrogate pair. -/
theorem textOfElements_of_stands {es : List Element} {cs : List Char}
    (h : List.Forall₂ Stands es cs) : textOfElements es = some cs := by
  induction h with
  | nil => rfl
  | @cons e c es cs he _ ih =>
    rcases he with rfl | ⟨rfl, hlt⟩
    · rw [textOfElements, ih]
      rfl
    · have hhigh : ¬ (0xD800 ≤ c.toNat) := by omega
      have hlow : ¬ (0xDC00 ≤ c.toNat) := by omega
      rw [textOfElements.eq_def]
      split
      · simp_all
      · simp_all
      · rename_i heq
        cases heq
        simp only [hhigh, hlow, decide_false, Bool.false_and, Bool.false_eq_true, if_false]
        rw [ih]
        simp [Char.ofNat_toNat]
      · rename_i heq
        cases heq
        simp only [hhigh, decide_false, Bool.false_and, Bool.false_eq_true, if_false]
        rw [ih]
        simp [Char.ofNat_toNat]

/-- **A string is read back**, with whatever stands behind its quote. -/
theorem readString_charsBefore (rest : List Char) (s : String) :
    readString (charsBefore rest s.toList) = some (some s, rest) := by
  obtain ⟨es, hes, hread⟩ := readElements_charsBefore [] rest s.toList
  unfold readString
  rw [hread]
  simp [textOfElements_of_stands hes]

/-! ## Values -/

/-- A text behind a value: none, or one that begins with what can follow a value inside of
another. -/
def Delimited (rest : List Char) : Prop :=
  ∀ c cs, rest = c :: cs → c = ',' ∨ c = ']' ∨ c = '\x7d'

/-- A text that the gap in front of it is not part of and that is not the end of an empty array. -/
def Begins (cs : List Char) : Prop := ∃ c tail, cs = c :: tail ∧ isGap c = false ∧ c ≠ ']'

/-- A value is written as a text, and read back from it in front of any text that can follow. -/
structure Reads (j : Json) (cs : List Char) : Prop where
  before_eq : ∀ rest, before rest j = cs ++ rest
  readValue_eq : ∀ {rest steps}, Delimited rest → 2 * cs.length < steps →
    readValue steps (cs ++ rest) = some (j, rest)
  begins : Begins cs

/-- A value that is read back from its written form. -/
def Readable (j : Json) : Prop := ∃ cs, Reads j cs

theorem delimited_nil : Delimited [] := nofun

theorem delimited_cons {c : Char} (h : c = ',' ∨ c = ']' ∨ c = '\x7d') (cs : List Char) :
    Delimited (c :: cs) := by
  intro c' cs' heq
  cases heq
  exact h

theorem skipGap_cons {c : Char} (h : isGap c = false) (cs : List Char) :
    skipGap (c :: cs) = c :: cs := by
  rw [skipGap, List.dropWhile_cons_of_neg (by simpa using h)]

/-- A text from whose first character on nothing is skipped. -/
theorem Begins.skipGap_append {cs : List Char} (h : Begins cs) (rest : List Char) :
    skipGap (cs ++ rest) = cs ++ rest := by
  obtain ⟨c, tail, rfl, hgap, -⟩ := h
  exact skipGap_cons hgap (tail ++ rest)

/-- What stands behind a string is not changed by writing it. -/
theorem charsBefore_append (rest cs : List Char) :
    charsBefore rest cs = charsBefore [] cs ++ rest := by
  induction cs with
  | nil => rfl
  | cons c cs ih => rw [charsBefore, charsBefore, ih, List.append_assoc]

/-- A string is readable: its quotes delimit it. -/
theorem readable_string (s : String) : Readable (.ofString s) := by
  refine ⟨'"' :: charsBefore [] s.toList, ?_, ?_, ⟨'"', _, rfl, by decide, by decide⟩⟩
  · intro rest
    show '"' :: charsBefore rest s.toList = _
    rw [charsBefore_append]
    rfl
  · intro rest steps _ hsteps
    obtain ⟨below, rfl⟩ : ∃ below, steps = below + 1 := ⟨steps - 1, by omega⟩
    rw [List.cons_append, ← charsBefore_append, readValue, skipGap_cons (by decide)]
    simp only
    rw [readString_charsBefore]
    rfl

theorem readable_bool (b : Bool) : Readable (.bool b) := by
  cases b with
  | false =>
    refine ⟨"false".toList, fun _ => rfl, ?_, ⟨'f', _, rfl, by decide, by decide⟩⟩
    intro rest steps _ hsteps
    obtain ⟨below, rfl⟩ : ∃ below, steps = below + 1 := ⟨steps - 1, by omega⟩
    rfl
  | true =>
    refine ⟨"true".toList, fun _ => rfl, ?_, ⟨'t', _, rfl, by decide, by decide⟩⟩
    intro rest steps _ hsteps
    obtain ⟨below, rfl⟩ : ∃ below, steps = below + 1 := ⟨steps - 1, by omega⟩
    rfl

/-! ## Numbers -/

/-- A natural number is written as its digits. -/
theorem before_ofNat (n : Nat) (rest : List Char) :
    before rest (.ofNat n) = Text.ofNat n ++ rest := by
  show (Nat.repr n).toList ++ rest = _
  rw [Nat.toList_repr]
  rfl

/-- The digits of a number are all that is read as digits. -/
theorem spanDigits_ofNat (n : Nat) {rest : List Char} (h : Delimited rest) :
    spanDigits (Text.ofNat n ++ rest) = (Text.ofNat n, rest) := by
  have hall : ∀ c ∈ Text.ofNat n, Text.isDigit c = true :=
    List.all_eq_true.1 (Text.all_isDigit_ofNat n)
  have hrest : rest.takeWhile Text.isDigit = [] ∧ rest.dropWhile Text.isDigit = rest := by
    cases rest with
    | nil => exact ⟨rfl, rfl⟩
    | cons c cs =>
      have hc : Text.isDigit c = false := by
        rcases h c cs rfl with rfl | rfl | rfl
        · decide
        · decide
        · decide
      simp [hc]
  unfold spanDigits
  rw [List.takeWhile_append_of_pos hall, List.dropWhile_append_of_pos hall, hrest.1, hrest.2,
    List.append_nil]

theorem readFraction_delimited {rest : List Char} (h : Delimited rest) :
    readFraction rest = some ([], rest) := by
  unfold readFraction
  split
  · rcases h _ _ rfl with h | h | h <;> cases h
  · rfl

theorem readExponent_delimited {rest : List Char} (h : Delimited rest) :
    readExponent rest = some ([], rest) := by
  unfold readExponent
  split
  · rfl
  · rename_i c cs
    rcases h c cs rfl with rfl | rfl | rfl
    · rfl
    · rfl
    · rfl

/-- Digits without a fraction or an exponent behind them are a natural number. -/
theorem readMagnitude_ofNat (n : Nat) {rest : List Char} (h : Delimited rest) :
    readMagnitude false (Text.ofNat n ++ rest) = some (.ofNat n, rest) := by
  have hempty : (Text.ofNat n).isEmpty = false :=
    List.isEmpty_eq_false_iff.2 (Text.ofNat_ne_nil n)
  have hzero : ((Text.ofNat n).head? == some '0' && Text.ofNat n != ['0']) = false := by
    rcases Nat.eq_zero_or_pos n with rfl | hpos
    · rfl
    · have hhead := Text.head?_ofNat hpos
      simp [hhead]
  unfold readMagnitude
  rw [spanDigits_ofNat n h]
  simp only [hempty, hzero, Bool.or_self, Bool.false_eq_true, if_false]
  rw [readFraction_delimited h]
  simp only [Option.bind_eq_bind, Option.bind_some]
  rw [readExponent_delimited h]
  simp only [Option.bind_some, Text.digitsValue_ofNat]
  rfl

/-- A natural number is readable, since no digit can follow it. -/
theorem readable_nat (n : Nat) : Readable (.ofNat n) := by
  obtain ⟨c, cs, hcs⟩ := List.exists_cons_of_ne_nil (Text.ofNat_ne_nil n)
  have hdigit : Text.isDigit c = true := by
    have hall := Text.all_isDigit_ofNat n
    rw [hcs, List.all_cons, Bool.and_eq_true] at hall
    exact hall.1
  have hother : ∀ d, Text.isDigit d = false → c ≠ d := by
    rintro d hd rfl
    rw [hd] at hdigit
    cases hdigit
  have hbegins : Begins (Text.ofNat n) := by
    refine ⟨c, cs, hcs, ?_, hother _ (by decide)⟩
    simp [isGap, hother ' ' (by decide), hother '\n' (by decide), hother '\t' (by decide),
      hother '\r' (by decide)]
  refine ⟨Text.ofNat n, before_ofNat n, ?_, hbegins⟩
  intro rest steps hrest hsteps
  obtain ⟨below, rfl⟩ : ∃ below, steps = below + 1 := ⟨steps - 1, by omega⟩
  have hnumber : readNumber (c :: cs ++ rest) = some (.ofNat n, rest) := by
    rw [← hcs, ← readMagnitude_ofNat n hrest, hcs]
    unfold readNumber
    split
    · rename_i heq
      exact absurd (List.cons.inj heq).1 (hother '-' (by decide))
    · rfl
  rw [readValue, hbegins.skipGap_append, hcs]
  -- a digit is none of the characters by which the other values are told apart
  split
  · rename_i heq
    cases heq
  · rename_i heq
    exact absurd (List.cons.inj heq).1 (hother 'n' (by decide))
  · rename_i heq
    exact absurd (List.cons.inj heq).1 (hother 't' (by decide))
  · rename_i heq
    exact absurd (List.cons.inj heq).1 (hother 'f' (by decide))
  · rename_i heq
    exact absurd (List.cons.inj heq).1 (hother '"' (by decide))
  · rename_i heq
    exact absurd (List.cons.inj heq).1 (hother '[' (by decide))
  · rename_i heq
    exact absurd (List.cons.inj heq).1 (hother '\x7b' (by decide))
  · exact hnumber

/-! ## Arrays and objects -/

/-- The items of an array from one on are written as a text up to the closing bracket, and read back
from it. -/
structure ReadsItems (item : Json) (items : List Json) (cs : List Char) : Prop where
  before_eq : ∀ rest, before (itemsBefore rest items) item = cs ++ rest
  readItems_eq : ∀ {rest steps}, 2 * cs.length ≤ steps →
    readItems steps (cs ++ rest) = some (item :: items, rest)
  begins : Begins cs

/-- Items that are readable are readable one behind the other. -/
theorem exists_readsItems {item : Json} {items : List Json} (h : ∀ j ∈ item :: items, Readable j) :
    ∃ cs, ReadsItems item items cs := by
  induction items generalizing item with
  | nil =>
    obtain ⟨cs, hbefore, hread, c, tail, rfl, hgap, hbracket⟩ := h item List.mem_cons_self
    refine ⟨c :: tail ++ [']'], fun rest => ?_, ?_, c, tail ++ [']'], rfl, hgap, hbracket⟩
    · rw [itemsBefore, hbefore, List.append_assoc]
      rfl
    · intro rest steps hsteps
      rw [List.length_append, List.length_singleton] at hsteps
      obtain ⟨below, rfl⟩ : ∃ below, steps = below + 1 := ⟨steps - 1, by omega⟩
      have hitem : readValue below (c :: tail ++ ']' :: rest) = some (item, ']' :: rest) :=
        hread (delimited_cons (by decide) rest) (by omega)
      rw [List.append_assoc, List.singleton_append, readItems, hitem]
      simp only
      rw [skipGap_cons (by decide)]
      rfl
  | cons next items ih =>
    obtain ⟨cs, hbefore, hread, c, tail, rfl, hgap, hbracket⟩ := h item List.mem_cons_self
    obtain ⟨more, hmore⟩ := ih fun j hj => h j (List.mem_cons_of_mem _ hj)
    refine ⟨c :: tail ++ ',' :: more, fun rest => ?_, ?_, c, tail ++ ',' :: more, rfl, hgap,
      hbracket⟩
    · rw [itemsBefore, hbefore, hmore.before_eq, List.append_assoc]
      rfl
    · intro rest steps hsteps
      simp only [List.length_append, List.length_cons] at hsteps
      obtain ⟨below, rfl⟩ : ∃ below, steps = below + 1 := ⟨steps - 1, by omega⟩
      have hitem : readValue below (c :: tail ++ ',' :: (more ++ rest))
          = some (item, ',' :: (more ++ rest)) :=
        hread (delimited_cons (by decide) _) (by simp only [List.length_cons]; omega)
      have hcs : c :: tail ++ ',' :: more ++ rest = c :: tail ++ ',' :: (more ++ rest) := by simp
      rw [hcs, readItems, hitem]
      simp only
      rw [skipGap_cons (by decide)]
      simp only
      rw [hmore.readItems_eq (by omega)]
      rfl

/-- An array is readable if its items are. -/
theorem readable_array {items : List Json} (h : ∀ j ∈ items, Readable j) :
    Readable (.array items) := by
  cases items with
  | nil =>
    refine ⟨['[', ']'], fun _ => rfl, ?_, '[', _, rfl, by decide, by decide⟩
    intro rest steps _ hsteps
    obtain ⟨below, rfl⟩ : ∃ below, steps = below + 1 := ⟨steps - 1, by omega⟩
    rfl
  | cons item items =>
    obtain ⟨cs, hitems⟩ := exists_readsItems h
    refine ⟨'[' :: cs, fun rest => ?_, ?_, '[', cs, rfl, by decide, by decide⟩
    · show '[' :: before (itemsBefore rest items) item = _
      rw [hitems.before_eq]
      rfl
    · intro rest steps _ hsteps
      rw [List.length_cons] at hsteps
      obtain ⟨below, rfl⟩ : ∃ below, steps = below + 1 := ⟨steps - 1, by omega⟩
      rw [List.cons_append, readValue, skipGap_cons (by decide)]
      simp only
      rw [hitems.begins.skipGap_append]
      obtain ⟨c, tail, rfl, -, hbracket⟩ := hitems.begins
      split
      · rename_i heq
        exact absurd (List.cons.inj heq).1 hbracket
      · rw [hitems.readItems_eq (by omega)]
        rfl

/-- A key is read with its colon, and its value behind it. -/
theorem readFields_key (steps : Nat) (key : String) (rest : List Char) :
    readFields (steps + 1) ('"' :: charsBefore (':' :: rest) key.toList) =
      match readValue steps rest with
      | none => none
      | some (value, rest) =>
        match skipGap rest with
        | '\x7d' :: rest => some ([(some key, value)], rest)
        | ',' :: rest =>
          (readFields steps rest).map fun (fields, rest) => ((some key, value) :: fields, rest)
        | _ => none := by
  rw [readFields, skipGap_cons (by decide)]
  simp only
  rw [readString_charsBefore]
  simp only
  rw [skipGap_cons (by decide)]
  rfl

/-- The fields of an object from one on are written as a text up to the closing brace, and read back
from it. -/
structure ReadsFields (key : String) (value : Json) (fields : List (String × Json))
    (cs : List Char) : Prop where
  before_eq : ∀ rest, stringBefore (':' :: before
    (fieldsBefore rest (fields.map fun (k, v) => (some k, v))) value) (some key) = cs ++ rest
  readFields_eq : ∀ {rest steps}, 2 * cs.length ≤ steps → readFields steps (cs ++ rest) =
    some ((some key, value) :: fields.map fun (k, v) => (some k, v), rest)
  begins : ∃ tail, cs = '"' :: tail

/-- Fields whose values are readable are readable one behind the other. -/
theorem exists_readsFields {key : String} {value : Json} {fields : List (String × Json)}
    (h : ∀ field ∈ (key, value) :: fields, Readable field.2) :
    ∃ cs, ReadsFields key value fields cs := by
  induction fields generalizing key value with
  | nil =>
    obtain ⟨cs, hvalue⟩ := h (key, value) List.mem_cons_self
    refine ⟨'"' :: charsBefore (':' :: (cs ++ ['\x7d'])) key.toList, fun rest => ?_, ?_, _, rfl⟩
    · have hbefore : before ('\x7d' :: rest) value = cs ++ '\x7d' :: rest :=
        hvalue.before_eq ('\x7d' :: rest)
      show '"' :: charsBefore (':' :: before ('\x7d' :: rest) value) key.toList = _
      rw [hbefore, charsBefore_append, charsBefore_append (':' :: (cs ++ ['\x7d']))]
      simp
    · intro rest steps hsteps
      rw [charsBefore_append] at hsteps ⊢
      simp only [List.length_cons, List.length_append, List.length_nil] at hsteps
      obtain ⟨below, rfl⟩ : ∃ below, steps = below + 1 := ⟨steps - 1, by omega⟩
      have hread : readValue below (cs ++ '\x7d' :: rest) = some (value, '\x7d' :: rest) :=
        hvalue.readValue_eq (delimited_cons (by decide) rest) (by omega)
      have htext : ':' :: (cs ++ ['\x7d']) ++ rest = ':' :: (cs ++ '\x7d' :: rest) := by simp
      rw [List.cons_append, List.append_assoc, htext, ← charsBefore_append, readFields_key, hread]
      simp only
      rw [skipGap_cons (by decide)]
      rfl
  | cons next fields ih =>
    obtain ⟨nextKey, nextValue⟩ := next
    obtain ⟨cs, hvalue⟩ := h (key, value) List.mem_cons_self
    obtain ⟨more, hmore⟩ := ih fun field hf => h field (List.mem_cons_of_mem _ hf)
    refine ⟨'"' :: charsBefore (':' :: (cs ++ ',' :: more)) key.toList, fun rest => ?_, ?_, _,
      rfl⟩
    · have hbefore : before (',' :: (more ++ rest)) value = cs ++ ',' :: (more ++ rest) :=
        hvalue.before_eq (',' :: (more ++ rest))
      show '"' :: charsBefore (':' :: before (',' :: stringBefore (':' :: before
        (fieldsBefore rest (fields.map fun (k, v) => (some k, v))) nextValue) (some nextKey)) value)
        key.toList = _
      rw [hmore.before_eq, hbefore, charsBefore_append,
        charsBefore_append (':' :: (cs ++ ',' :: more))]
      simp
    · intro rest steps hsteps
      rw [charsBefore_append] at hsteps ⊢
      simp only [List.length_cons, List.length_append] at hsteps
      obtain ⟨below, rfl⟩ : ∃ below, steps = below + 1 := ⟨steps - 1, by omega⟩
      have hread : readValue below (cs ++ ',' :: (more ++ rest))
          = some (value, ',' :: (more ++ rest)) :=
        hvalue.readValue_eq (delimited_cons (by decide) _) (by omega)
      have htext : ':' :: (cs ++ ',' :: more) ++ rest = ':' :: (cs ++ ',' :: (more ++ rest)) := by
        simp
      rw [List.cons_append, List.append_assoc, htext, ← charsBefore_append, readFields_key, hread]
      simp only
      rw [skipGap_cons (by decide)]
      simp only
      rw [hmore.readFields_eq (by omega)]
      rfl

/-- An object is readable if the values of its fields are. -/
theorem readable_object {fields : List (String × Json)} (h : ∀ field ∈ fields, Readable field.2) :
    Readable (.ofFields fields) := by
  cases fields with
  | nil =>
    refine ⟨['\x7b', '\x7d'], fun _ => rfl, ?_, '\x7b', _, rfl, by decide, by decide⟩
    intro rest steps _ hsteps
    obtain ⟨below, rfl⟩ : ∃ below, steps = below + 1 := ⟨steps - 1, by omega⟩
    rfl
  | cons field fields =>
    obtain ⟨key, value⟩ := field
    obtain ⟨cs, hfields⟩ := exists_readsFields h
    refine ⟨'\x7b' :: cs, fun rest => ?_, ?_, '\x7b', cs, rfl, by decide, by decide⟩
    · show '\x7b' :: stringBefore (':' :: before
        (fieldsBefore rest (fields.map fun (k, v) => (some k, v))) value) (some key) = _
      rw [hfields.before_eq]
      rfl
    · intro rest steps _ hsteps
      rw [List.length_cons] at hsteps
      obtain ⟨below, rfl⟩ : ∃ below, steps = below + 1 := ⟨steps - 1, by omega⟩
      have hread : readFields below (cs ++ rest) = _ := hfields.readFields_eq (by omega)
      obtain ⟨tail, rfl⟩ := hfields.begins
      rw [List.cons_append] at hread
      rw [List.cons_append, List.cons_append, readValue, skipGap_cons (by decide)]
      simp only
      rw [skipGap_cons (by decide)]
      show (readFields below ('"' :: (tail ++ rest))).map
        (fun (fields, rest) => (Json.object fields, rest)) = _
      rw [hread]
      rfl

/-! ## Whole texts -/

/-- **A readable value is read back from its text.** -/
theorem Readable.ofText?_text {j : Json} (h : Readable j) : ofText? j.text = some j := by
  obtain ⟨cs, hj⟩ := h
  have htext : j.text.toList = cs := by
    rw [text, String.toList_ofList, hj.before_eq, List.append_nil]
  have hread : readValue (2 * cs.length + 2) (cs ++ []) = some (j, []) :=
    hj.readValue_eq delimited_nil (by omega)
  rw [List.append_nil] at hread
  unfold ofText?
  rw [htext]
  simp only
  rw [hread]
  rfl

end Json

end Highlight
