/-!
# Decimal numerals

Natural numbers written in ASCII digits. Leading zeros are allowed.

- `isDigit`: the ten digits.
- `numeral?`: the number that a numeral stands for.
- `count?`: the same for a numeral that may have a plus sign.
- `ofNat`: the numeral that is written for a number. `numeral?_ofNat` says that it is read back, and
  `head?_ofNat` that it has no leading zero.
-/

namespace Highlight

namespace Text

/-- Whether a character is one of the ten ASCII digits. -/
def isDigit (c : Char) : Bool := '0' ≤ c && c ≤ '9'

/-- The codes of the letters and digits. -/
theorem isAlphanum_iff {c : Char} : c.isAlphanum = true ↔
    (65 ≤ c.toNat ∧ c.toNat ≤ 90) ∨ (97 ≤ c.toNat ∧ c.toNat ≤ 122) ∨ (48 ≤ c.toNat ∧ c.toNat ≤ 57) := by
  show ((decide (c.val ≥ 65 ∧ c.val ≤ 90) || decide (c.val ≥ 97) && decide (c.val ≤ 122)) ||
    decide (c.val ≥ 48) && decide (c.val ≤ 57)) = true ↔ _
  simp only [Bool.or_eq_true, Bool.and_eq_true, decide_eq_true_eq, ge_iff_le, UInt32.le_iff_toNat_le,
    or_assoc]
  exact Iff.rfl

theorem isAlphanum_of_isDigit {c : Char} (h : isDigit c = true) : c.isAlphanum = true := by
  obtain ⟨hlow, hhigh⟩ := Bool.and_eq_true_iff.1 h
  exact isAlphanum_iff.2 (.inr (.inr ⟨of_decide_eq_true hlow, of_decide_eq_true hhigh⟩))

/-- What a digit adds to a number. -/
def digitValue (c : Char) : Nat := c.toNat - '0'.toNat

/-- The number that digits stand for, the most significant first. -/
def digitsValue (cs : List Char) : Nat := cs.foldl (fun n c => 10 * n + digitValue c) 0

/-- The number that a numeral stands for; none for a text that is empty or holds anything else
than digits. -/
def numeral? (cs : List Char) : Option Nat :=
  if cs.isEmpty || !cs.all isDigit then none else some (digitsValue cs)

/-- The number that a numeral stands for, with or without a plus sign in front. -/
def count? (cs : List Char) : Option Nat :=
  match cs with
  | '+' :: rest => numeral? rest
  | _ => numeral? cs

/-- The digits of a number, the most significant first and without leading zeros. -/
def ofNat (n : Nat) : List Char := Nat.toDigits 10 n

theorem ofNat_ne_nil (n : Nat) : ofNat n ≠ [] := Nat.toDigits_ne_nil

/-- A number is written with digits only. -/
theorem all_isDigit_ofNat (n : Nat) : (ofNat n).all isDigit = true := by
  rw [List.all_eq_true]
  intro c hc
  show c.isDigit = true
  exact Nat.isDigit_of_mem_toDigits (by decide) (by decide) hc

/-- The value of the digits of a number is the number. -/
theorem digitsValue_ofNat (n : Nat) : digitsValue (ofNat n) = n := by
  have h : Nat.ofDigitChars 10 (ofNat n) 0 = n := Nat.ofDigitChars_ten_toDigits
  rwa [Nat.ofDigitChars_eq_foldl] at h

/-- A number is read back from its digits. -/
theorem numeral?_ofNat (n : Nat) : numeral? (ofNat n) = some n := by
  have hne : (ofNat n).isEmpty = false := by
    rw [List.isEmpty_eq_false_iff]
    exact ofNat_ne_nil n
  simp [numeral?, hne, all_isDigit_ofNat, digitsValue_ofNat]

/-- No number but zero begins with a zero. -/
theorem head?_ofNat {n : Nat} (h : 0 < n) : (ofNat n).head? ≠ some '0' := by
  induction n using Nat.base_induction 10 (by decide) with
  | single m hm =>
    have hdigit : ∀ m < 10, 0 < m → m.digitChar ≠ '0' := by decide
    rw [ofNat, Nat.toDigits_of_lt_base hm]
    simpa using hdigit m hm h
  | digit m k hk hm ih =>
    obtain ⟨c, cs, hcs⟩ := List.exists_cons_of_ne_nil (ofNat_ne_nil m)
    have hhead := ih hm
    rw [ofNat, ← Nat.toDigits_append_toDigits (by decide) hm hk]
    rw [ofNat] at hcs hhead
    rw [hcs] at hhead ⊢
    exact hhead

end Text

end Highlight
