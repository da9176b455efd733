import SupplyAudit.NumeralText

/-!
# Decimal fractions of fixed length

A natural number of the smallest unit is written as a whole part, a point and as
many digits as the unit has decimals. The digits without the point are the number
again.
-/

namespace DecimalText

open NumeralText

/-- The digits behind the point, filled up with zeros. -/
def fraction (places n : Nat) : List Char :=
  let digits := Nat.toDigits 10 (n % 10 ^ places)
  List.replicate (places - digits.length) '0' ++ digits

def decimal (places n : Nat) : List Char :=
  Nat.toDigits 10 (n / 10 ^ places) ++ '.' :: fraction places n

/-- A text with exactly so many digits behind its first point. -/
def readDecimal (places : Nat) (text : List Char) : Option Nat :=
  let whole := text.takeWhile (· ≠ '.')
  let behind := (text.dropWhile (· ≠ '.')).drop 1
  if behind.length = places then readDigits (whole ++ behind) else none

theorem isDigit_toDigits {n : Nat} {c : Char} (h : c ∈ Nat.toDigits 10 n) : c.isDigit = true :=
  Nat.isDigit_of_mem_toDigits (by omega) (by omega) h

theorem isDigit_fraction {places n : Nat} {c : Char} (h : c ∈ fraction places n) :
    c.isDigit = true := by
  rcases List.mem_append.mp h with hzero | hdigit
  · rw [List.eq_of_mem_replicate hzero]
    decide
  · exact isDigit_toDigits hdigit

theorem length_fraction {places : Nat} (h : 0 < places) (n : Nat) :
    (fraction places n).length = places := by
  have hshort : (Nat.toDigits 10 (n % 10 ^ places)).length ≤ places :=
    (Nat.length_toDigits_le_iff (by omega) h).mpr (Nat.mod_lt n (Nat.pow_pos (by omega)))
  rw [fraction, List.length_append, List.length_replicate]
  omega

/-- The whole part and the fraction, read as one number. -/
theorem readDigits_decimal {places : Nat} (h : 0 < places) (n : Nat) :
    readDigits (Nat.toDigits 10 (n / 10 ^ places) ++ fraction places n) = some n := by
  have hne : Nat.toDigits 10 (n / 10 ^ places) ++ fraction places n ≠ [] :=
    List.append_ne_nil_of_left_ne_nil Nat.toDigits_ne_nil _
  have hall : (Nat.toDigits 10 (n / 10 ^ places) ++ fraction places n).all Char.isDigit = true := by
    rw [List.all_eq_true]
    intro c hc
    exact (List.mem_append.mp hc).elim isDigit_toDigits isDigit_fraction
  have hfraction : Nat.ofDigitChars 10 (fraction places n) 0 = n % 10 ^ places := by
    rw [fraction, Nat.ofDigitChars_append, Nat.ofDigitChars_replicate_zero, Nat.mul_zero,
      Nat.ofDigitChars_ten_toDigits]
  rw [readDigits, if_pos ⟨hne, hall⟩, Nat.ofDigitChars_append, Nat.ofDigitChars_ten_toDigits,
    Nat.ofDigitChars_eq_ofDigitChars_zero, length_fraction h, hfraction, Nat.div_add_mod]

theorem readDecimal_decimal {places : Nat} (h : 0 < places) (n : Nat) :
    readDecimal places (decimal places n) = some n := by
  have hpoint : ∀ c ∈ Nat.toDigits 10 (n / 10 ^ places), decide (c ≠ '.') = true := by
    intro c hc
    have hdigit := isDigit_toDigits hc
    apply decide_eq_true
    rintro rfl
    cases hdigit
  have hbefore : (decimal places n).takeWhile (fun c => decide (c ≠ '.')) =
      Nat.toDigits 10 (n / 10 ^ places) := by
    rw [decimal, List.takeWhile_append_of_pos hpoint, List.takeWhile_cons_of_neg (by decide),
      List.append_nil]
  have hafter : (decimal places n).dropWhile (fun c => decide (c ≠ '.')) =
      '.' :: fraction places n := by
    rw [decimal, List.dropWhile_append_of_pos hpoint, List.dropWhile_cons_of_neg (by decide)]
  simp only [readDecimal, hbefore, hafter, List.drop_one, List.tail_cons, length_fraction h, if_true,
    readDigits_decimal h]

end DecimalText
