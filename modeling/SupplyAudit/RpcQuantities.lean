import Mathlib.Data.Nat.Digits.Defs
import SupplyAudit.WoneEvents

/-!
# Quantities of the node

Block numbers and token amounts arrive as `0x` and hexadecimal digits. The two
parsers of the holder export agree on such texts. They differ on a sign, which the
library routine for large integers takes and the routine for words does not.
-/

namespace RpcQuantities

open NumeralText FallibleScan WoneEvents

/-- The number that hexadecimal digits write, of which there must be one. -/
def readMagnitude (raw : List Char) : Option Nat :=
  match raw.mapM hexDigit with
  | some (digit :: digits) => some ((digit :: digits).foldl (fun acc d => 16 * acc + d) 0)
  | _ => none

/-- `big.Int.SetString` in base 16, which takes a sign before the digits. -/
def setString : List Char → Option Int
  | '-' :: raw => (readMagnitude raw).map fun n : Nat => -(n : Int)
  | '+' :: raw => (readMagnitude raw).map fun n : Nat => (n : Int)
  | raw => (readMagnitude raw).map fun n : Nat => (n : Int)

def parseBigQuantity (value : String) : Except String Int :=
  match afterPrefix value with
  | none => .error ("quantity lacks 0x prefix: " ++ quoted value)
  | some raw =>
    if raw = [] then .error "empty hexadecimal quantity"
    else match setString raw with
      | none => .error ("invalid hexadecimal quantity " ++ quoted value)
      | some result => .ok result

def hexQuantity (value : UInt64) : String := "0x" ++ String.ofList (Nat.toDigits 16 value.toNat)

/-! ## What a text denotes -/

/-- The digits are hexadecimal, there is one, and they write the number in base 16. -/
def Writes (raw : List Char) (n : Nat) : Prop :=
  raw ≠ [] ∧ ∃ digits, raw.mapM hexDigit = some digits ∧ n = Nat.ofDigits 16 digits.reverse

/-- The text is `0x` and the digits of the number. -/
def Denotes (value : String) (n : Nat) : Prop :=
  ∃ raw, value = "0x" ++ String.ofList raw ∧ Writes raw n

/-- The text is `0x`, a sign, and digits. -/
def Signed (value : String) : Prop :=
  ∃ sign raw n, (sign = '-' ∨ sign = '+') ∧ value = "0x" ++ String.ofList (sign :: raw) ∧
    Writes raw n

theorem afterPrefix_eq_some_iff {value : String} {raw : List Char} :
    afterPrefix value = some raw ↔ value = "0x" ++ String.ofList raw := by
  have htext : (value = "0x" ++ String.ofList raw) ↔ value.toList = '0' :: 'x' :: raw := by
    rw [← String.toList_inj, String.toList_append, String.toList_ofList, String.toList_ofList]
    exact Iff.rfl
  rw [htext, afterPrefix]
  constructor
  · intro h
    split at h
    · rename_i rest heq
      cases h
      exact heq
    · cases h
  · intro h
    rw [h]
    rfl

theorem foldl_eq_ofDigits (digits : List Nat) (acc : Nat) :
    digits.foldl (fun acc d => 16 * acc + d) acc =
      Nat.ofDigits 16 digits.reverse + 16 ^ digits.length * acc := by
  induction digits generalizing acc with
  | nil => simp
  | cons d digits ih =>
    rw [List.foldl_cons, ih, List.reverse_cons, Nat.ofDigits_append, List.length_reverse,
      Nat.ofDigits_singleton, List.length_cons]
    ring

theorem mapM_cons_ne_nil (c : Char) (raw : List Char) : (c :: raw).mapM hexDigit ≠ some [] := by
  rw [List.mapM_cons]
  cases hexDigit c with
  | none => simp
  | some d =>
    cases raw.mapM hexDigit with
    | none => simp
    | some digits => simp

theorem readMagnitude_iff {raw : List Char} {n : Nat} :
    readMagnitude raw = some n ↔ Writes raw n := by
  rw [readMagnitude, Writes]
  cases raw with
  | nil => simp
  | cons c raw =>
    rw [and_iff_right (List.cons_ne_nil c raw)]
    cases hdigits : (c :: raw).mapM hexDigit with
    | none => simp
    | some digits =>
      cases digits with
      | nil => exact absurd hdigits (mapM_cons_ne_nil c raw)
      | cons d digits =>
        simp only [Option.some.injEq, exists_eq_left', foldl_eq_ofDigits, Nat.mul_zero,
          Nat.add_zero]
        exact eq_comm

theorem Writes.unique {raw : List Char} {m n : Nat} (hm : Writes raw m) (hn : Writes raw n) :
    m = n := by
  rw [← readMagnitude_iff] at hm hn
  exact Option.some.inj (hm.symm.trans hn)

/-- A sign is not a digit. -/
theorem not_writes_sign {sign : Char} (h : sign = '-' ∨ sign = '+') (raw : List Char) (n : Nat) :
    ¬ Writes (sign :: raw) n := by
  rintro ⟨-, digits, hdigits, -⟩
  have hnone : hexDigit sign = none := by
    rcases h with rfl | rfl
    · decide
    · decide
  rw [List.mapM_cons, hnone] at hdigits
  cases hdigits

/-! ## The parsers -/

theorem exists_text_iff {value : String} {raw : List Char} (h : afterPrefix value = some raw)
    (P : List Char → Prop) :
    (∃ raw, value = "0x" ++ String.ofList raw ∧ P raw) ↔ P raw := by
  constructor
  · rintro ⟨raw', hvalue, hraw'⟩
    rw [← afterPrefix_eq_some_iff, h, Option.some.injEq] at hvalue
    rwa [hvalue]
  · exact fun hraw => ⟨raw, afterPrefix_eq_some_iff.mp h, hraw⟩

theorem not_exists_text {value : String} (h : afterPrefix value = none) (P : List Char → Prop) :
    ¬ ∃ raw, value = "0x" ++ String.ofList raw ∧ P raw := by
  rintro ⟨raw, hvalue, -⟩
  rw [← afterPrefix_eq_some_iff, h] at hvalue
  cases hvalue

/-- The parser of words accepts the digits of a word. -/
theorem parseUint64Quantity_iff {value : String} {w : UInt64} :
    parseUint64Quantity value = .ok w ↔ Denotes value w.toNat := by
  rw [parseUint64Quantity, Denotes]
  cases hraw : afterPrefix value with
  | none => exact iff_of_false (fun h => by cases h) (not_exists_text hraw _)
  | some raw =>
    rw [exists_text_iff hraw, ← readMagnitude_iff, readMagnitude]
    dsimp only
    cases raw.mapM hexDigit with
    | none => simp
    | some digits =>
      cases digits with
      | nil => simp
      | cons digit digits =>
        dsimp only
        rw [Option.some.injEq]
        generalize (digit :: digits).foldl (fun acc d => 16 * acc + d) 0 = n
        by_cases hn : n < 2 ^ 64
        · rw [if_pos hn, Except.ok.injEq, ← UInt64.toNat_inj, UInt64.toNat_ofNat_of_lt' hn]
        · have hw := w.toNat_lt
          rw [if_neg hn]
          exact iff_of_false (fun h => by cases h) (by omega)

/-- The parser of large integers accepts digits, also after a sign. -/
theorem setString_iff {raw : List Char} {z : Int} :
    setString raw = some z ↔ (∃ n : Nat, Writes raw n ∧ z = n) ∨
      ∃ (sign : Char) (rest : List Char) (n : Nat), raw = sign :: rest ∧ Writes rest n ∧
        (sign = '-' ∧ z = -(n : Int) ∨ sign = '+' ∧ z = (n : Int)) := by
  have hread (cs : List Char) (f : Nat → Int) :
      (readMagnitude cs).map f = some z ↔ ∃ n, Writes cs n ∧ z = f n := by
    rw [Option.map_eq_some_iff]
    exact exists_congr fun n => and_congr readMagnitude_iff eq_comm
  rw [setString.eq_def]
  split
  · rename_i rest
    have hnone : ¬ ∃ n : Nat, Writes ('-' :: rest) n ∧ z = n :=
      fun ⟨n, hn, _⟩ => not_writes_sign (Or.inl rfl) rest n hn
    rw [hread, or_iff_right hnone]
    simp
  · rename_i rest
    have hnone : ¬ ∃ n : Nat, Writes ('+' :: rest) n ∧ z = n :=
      fun ⟨n, hn, _⟩ => not_writes_sign (Or.inr rfl) rest n hn
    rw [hread, or_iff_right hnone]
    simp
  · rename_i hminus hplus
    rw [hread, or_iff_left]
    rintro ⟨sign, rest, n, rfl, -, ⟨rfl, -⟩ | ⟨rfl, -⟩⟩
    · exact hminus rest rfl
    · exact hplus rest rfl

theorem parseBigQuantity_eq {value : String} {raw : List Char} (h : afterPrefix value = some raw)
    {z : Int} : parseBigQuantity value = .ok z ↔ setString raw = some z := by
  rw [parseBigQuantity, h]
  dsimp only
  by_cases hnil : raw = []
  · rw [if_pos hnil, hnil]
    exact iff_of_false (fun h => by cases h) (fun h => by cases h)
  · rw [if_neg hnil]
    cases setString raw with
    | none => simp
    | some result => simp

theorem hexDigit_digitChar : ∀ d < 16, hexDigit (Nat.digitChar d) = some d := by decide

/-- One more digit at the end. -/
theorem Writes.concat {raw : List Char} {n d : Nat} (h : Writes raw n) (hd : d < 16) :
    Writes (raw ++ [Nat.digitChar d]) (16 * n + d) := by
  obtain ⟨-, digits, hdigits, rfl⟩ := h
  refine ⟨List.append_ne_nil_of_right_ne_nil _ (List.cons_ne_nil _ _), digits ++ [d], ?_, ?_⟩
  · rw [List.mapM_append, hdigits, List.mapM_cons, hexDigit_digitChar d hd]
    rfl
  · rw [List.reverse_append, List.reverse_singleton, List.singleton_append, Nat.ofDigits_cons,
      Nat.add_comm]

/-- A number's own digits write it. -/
theorem writes_toDigits (n : Nat) : Writes (Nat.toDigits 16 n) n := by
  induction n using Nat.strongRecOn with
  | ind n ih =>
    by_cases hsmall : n < 16
    · rw [Nat.toDigits_of_lt_base hsmall]
      refine ⟨List.cons_ne_nil _ _, [n], ?_, ?_⟩
      · rw [List.mapM_cons, hexDigit_digitChar n hsmall]
        rfl
      · rw [List.reverse_singleton, Nat.ofDigits_singleton]
    · have hshorter := (ih (n / 16) (by omega)).concat (Nat.mod_lt n (by decide : 0 < 16))
      rw [Nat.div_add_mod] at hshorter
      rwa [Nat.toDigits_of_base_le (by decide) (Nat.le_of_not_lt hsmall)]

theorem denotes_hexQuantity (n : UInt64) : Denotes (hexQuantity n) n.toNat :=
  ⟨Nat.toDigits 16 n.toNat, rfl, writes_toDigits n.toNat⟩

/-- The parser of large integers accepts what a text denotes, and signed texts. -/
theorem parseBigQuantity_of_denotes {value : String} {n : Nat} (h : Denotes value n) :
    parseBigQuantity value = .ok (n : Int) := by
  obtain ⟨raw, hvalue, hwrites⟩ := h
  rw [parseBigQuantity_eq (afterPrefix_eq_some_iff.mpr hvalue), setString_iff]
  exact Or.inl ⟨n, hwrites, rfl⟩

theorem denotes_or_signed {value : String} {z : Int} (h : parseBigQuantity value = .ok z) :
    (∃ n : Nat, Denotes value n ∧ z = n) ∨ Signed value := by
  cases hraw : afterPrefix value with
  | none =>
    rw [parseBigQuantity, hraw] at h
    cases h
  | some raw =>
    have hvalue := afterPrefix_eq_some_iff.mp hraw
    rw [parseBigQuantity_eq hraw, setString_iff] at h
    rcases h with ⟨n, hwrites, hz⟩ | ⟨sign, rest, n, rfl, hwrites, ⟨hsign, -⟩ | ⟨hsign, -⟩⟩
    · exact Or.inl ⟨n, ⟨raw, hvalue, hwrites⟩, hz⟩
    · exact Or.inr ⟨sign, rest, n, Or.inl hsign, hvalue, hwrites⟩
    · exact Or.inr ⟨sign, rest, n, Or.inr hsign, hvalue, hwrites⟩

/-- A signed text is accepted, though it denotes nothing. -/
theorem Signed.accepted {value : String} (h : Signed value) :
    (∃ z, parseBigQuantity value = .ok z) ∧ ∀ n, ¬ Denotes value n := by
  obtain ⟨sign, raw, n, hsign, hvalue, hwrites⟩ := h
  have hraw := afterPrefix_eq_some_iff.mpr hvalue
  constructor
  · rcases hsign with rfl | rfl
    · refine ⟨-(n : Int), (parseBigQuantity_eq hraw).mpr (setString_iff.mpr (Or.inr ?_))⟩
      exact ⟨'-', raw, n, rfl, hwrites, Or.inl ⟨rfl, rfl⟩⟩
    · refine ⟨n, (parseBigQuantity_eq hraw).mpr (setString_iff.mpr (Or.inr ?_))⟩
      exact ⟨'+', raw, n, rfl, hwrites, Or.inr ⟨rfl, rfl⟩⟩
  · intro m hdenotes
    exact not_writes_sign hsign raw m ((exists_text_iff hraw fun raw => Writes raw m).mp hdenotes)

/-- Both parsers accept the digits of what they return, and nothing else. -/
structure Exact (value : String) : Prop where
  big : ∀ z, parseBigQuantity value = .ok z ↔ ∃ n : Nat, Denotes value n ∧ z = n
  word : ∀ w, parseUint64Quantity value = .ok w ↔ Denotes value w.toNat
  nonneg : ∀ z, parseBigQuantity value = .ok z → 0 ≤ z

/-- The parsers are exact on a text unless it has a sign, and read back what is written
for a word. -/
theorem quantities_exact_iff (value : String) (n : UInt64) :
    (Exact value ↔ ¬ Signed value) ∧ parseUint64Quantity (hexQuantity n) = .ok n ∧
      parseBigQuantity (hexQuantity n) = .ok (n.toNat : Int) := by
  refine ⟨⟨?_, ?_⟩, parseUint64Quantity_iff.mpr (denotes_hexQuantity n),
    parseBigQuantity_of_denotes (denotes_hexQuantity n)⟩
  · intro hexact hsigned
    obtain ⟨⟨z, hz⟩, hnothing⟩ := hsigned.accepted
    obtain ⟨m, hdenotes, -⟩ := (hexact.big z).mp hz
    exact hnothing m hdenotes
  · intro hunsigned
    have hbig : ∀ z, parseBigQuantity value = .ok z ↔ ∃ m : Nat, Denotes value m ∧ z = m := by
      intro z
      constructor
      · intro hz
        exact (denotes_or_signed hz).resolve_right hunsigned
      · rintro ⟨m, hdenotes, rfl⟩
        exact parseBigQuantity_of_denotes hdenotes
    refine ⟨hbig, fun w => parseUint64Quantity_iff, ?_⟩
    intro z hz
    obtain ⟨m, -, rfl⟩ := (hbig z).mp hz
    exact Int.natCast_nonneg m

/-- A negative amount is accepted as a large integer and refused as a word. -/
theorem negative_quantity_accepted :
    parseBigQuantity "0x-1" = .ok (-1) ∧ (∀ w, parseUint64Quantity "0x-1" ≠ .ok w) ∧
      ¬ ∀ value, Exact value := by
  have hnegative : parseBigQuantity "0x-1" = .ok (-1) := by decide +kernel
  have hrefused : (parseUint64Quantity "0x-1").toOption = none := by decide +kernel
  refine ⟨hnegative, ?_, ?_⟩
  · intro w hw
    rw [hw] at hrefused
    cases hrefused
  · intro hall
    have hnonneg := (hall "0x-1").nonneg (-1) hnegative
    omega

end RpcQuantities
