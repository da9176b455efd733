import SupplyAudit.ByteWords
import Mathlib.Tactic.Common

/-!
# Decimal and hexadecimal numerals

Decimal reading follows arbitrary-precision integer parsers: an optional sign
and one or more digits, nothing else. Every integer's own numeral is read back
exactly. Hexadecimal text is lower case, two digits a byte.
-/

namespace NumeralText

instance lawfulBEqOptionString : LawfulBEq (Option String) := inferInstance

theorem toList_toLower (text : String) : text.toLower.toList = text.toList.map Char.toLower :=
  String.toList_map

open ByteWords

/-- One or more decimal digits, read as a number. -/
def readDigits (cs : List Char) : Option Nat :=
  if cs ≠ [] ∧ cs.all Char.isDigit then some (Nat.ofDigitChars 10 cs 0) else none

/-- An optional sign before the digits. -/
def readSigned : List Char → Option Int
  | '-' :: cs => (readDigits cs).map (fun n : Nat => -(n : Int))
  | '+' :: cs => (readDigits cs).map (fun n : Nat => (n : Int))
  | cs => (readDigits cs).map (fun n : Nat => (n : Int))

def readInt (s : String) : Option Int := readSigned s.toList

theorem readDigits_toDigits (n : Nat) : readDigits (Nat.toDigits 10 n) = some n := by
  have hne : Nat.toDigits 10 n ≠ [] := Nat.toDigits_ne_nil
  have hall : (Nat.toDigits 10 n).all Char.isDigit = true := by
    rw [List.all_eq_true]
    intro c hc
    exact Nat.isDigit_of_mem_toDigits (by omega) (by omega) hc
  rw [readDigits, if_pos ⟨hne, hall⟩, Nat.ofDigitChars_ten_toDigits]

theorem readSigned_digit {c : Char} {cs : List Char} (hc : c.isDigit = true) :
    readSigned (c :: cs) = (readDigits (c :: cs)).map (fun n : Nat => (n : Int)) := by
  have hm : c ≠ '-' := by rintro rfl; simp at hc
  have hp : c ≠ '+' := by rintro rfl; simp at hc
  simp [readSigned, hm, hp]

theorem readSigned_toDigits (n : Nat) : readSigned (Nat.toDigits 10 n) = some (n : Int) := by
  cases hd : Nat.toDigits 10 n with
  | nil => exact absurd hd Nat.toDigits_ne_nil
  | cons c cs =>
    have hc : c.isDigit = true := by
      apply Nat.isDigit_of_mem_toDigits (n := n) (b := 10) (by omega) (by omega)
      rw [hd]
      exact List.mem_cons_self
    rw [readSigned_digit hc, ← hd, readDigits_toDigits, Option.map_some]

/-- Every integer's decimal text is read back as that integer. -/
theorem readInt_toString (z : Int) : readInt (toString z) = some z := by
  rw [Int.toString_eq_repr, Int.repr_eq_if, readInt]
  split
  · rename_i hz
    rw [Nat.toList_repr, readSigned_toDigits, Int.toNat_of_nonneg hz]
  · rename_i hz
    have hl : ("-" ++ (-z).toNat.repr).toList = '-' :: Nat.toDigits 10 (-z).toNat := by
      rw [String.toList_append, Nat.toList_repr]
      rfl
    rw [hl, readSigned, readDigits_toDigits, Option.map_some, Int.toNat_of_nonneg (by omega)]
    simp

/-- A printed column is read back as the values it prints. -/
theorem mapM_readInt {α : Type*} (value : α → Int) (l : List α) :
    l.mapM (fun a => readInt (toString (value a))) = some (l.map value) := by
  induction l with
  | nil => rfl
  | cons a l ih =>
    rw [List.mapM_cons, readInt_toString, ih]
    rfl

/-- The two lower-case digits of one byte. -/
def hexByte (b : UInt8) : List Char :=
  [Nat.digitChar (b.toNat / 16), Nat.digitChar (b.toNat % 16)]

def hexDigits (bs : Bytes) : List Char := bs.flatMap hexByte

/-- Lower-case hexadecimal text without a prefix. -/
def hexText (bs : Bytes) : String := String.ofList (hexDigits bs)

/-- Lower-case hexadecimal text after `0x`. -/
def prefixedHex (bs : Bytes) : String := "0x" ++ hexText bs

end NumeralText
