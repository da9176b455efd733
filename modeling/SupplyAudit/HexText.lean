import Mathlib.Data.List.Lex
import Mathlib.Data.String.Basic
import SupplyAudit.NumeralText

/-!
# Hexadecimal text

Lower-case hexadecimal text is ordered as its bytes are and is kept by
lower-casing. A checksummed text differs from it in the case of letters only.
-/

namespace HexText

open ByteWords NumeralText

/-- The high and low half of each byte. -/
def nibbles (bs : Bytes) : List Nat := bs.flatMap fun b => [b.toNat / 16, b.toNat % 16]

/-- A letter is raised to upper case where the checksum's half byte is large. -/
def checksumChar (c : Char) (nibble : Nat) : Char :=
  if '9' < c ∧ 7 < nibble then Char.ofNat (c.toNat - 32) else c

/-- Hexadecimal text with its checksum in the case of its letters. -/
def checksumHex (digest : Bytes → Bytes) (bs : Bytes) : String :=
  let digits := hexDigits bs
  "0x" ++ String.ofList
    (digits.zipWith checksumChar (nibbles (digest (digits.map fun c => UInt8.ofNat c.toNat))))

theorem toList_prefixedHex (bs : Bytes) : (prefixedHex bs).toList = '0' :: 'x' :: hexDigits bs := by
  rw [prefixedHex, String.toList_append, hexText, String.toList_ofList, String.toList_ofList]
  rfl

theorem toList_checksumHex (digest : Bytes → Bytes) (bs : Bytes) :
    (checksumHex digest bs).toList = '0' :: 'x' :: (hexDigits bs).zipWith checksumChar
      (nibbles (digest ((hexDigits bs).map fun c => UInt8.ofNat c.toNat))) := by
  rw [checksumHex, String.toList_append, String.toList_ofList, String.toList_ofList]
  rfl

/-! ## Order -/

theorem digitChar_lt {m n : Nat} (hn : n < 16) (h : m < n) : Nat.digitChar m < Nat.digitChar n := by
  have hall : ∀ i j : Fin 16, i < j → Nat.digitChar i.val < Nat.digitChar j.val := by decide
  exact hall ⟨m, by omega⟩ ⟨n, hn⟩ h

theorem hexByte_append_lt {a b : UInt8} (h : a < b) (xs ys : List Char) :
    hexByte a ++ xs < hexByte b ++ ys := by
  have hlt : a.toNat < b.toNat := UInt8.lt_iff_toNat_lt.mp h
  have hb : b.toNat < 256 := b.toNat_lt
  simp only [hexByte, List.cons_append, List.nil_append, List.cons_lt_cons_iff]
  by_cases hhigh : a.toNat / 16 < b.toNat / 16
  · exact Or.inl (digitChar_lt (by omega) hhigh)
  · have heq : a.toNat / 16 = b.toNat / 16 := by omega
    refine Or.inr ⟨by rw [heq], Or.inl (digitChar_lt (by omega) ?_)⟩
    omega

/-- Texts of one width are ordered as their bytes are. -/
theorem hexDigits_lt {as bs : Bytes} (hlen : as.length = bs.length) (h : as < bs) :
    hexDigits as < hexDigits bs := by
  induction as generalizing bs with
  | nil =>
    rw [List.length_nil, eq_comm, List.length_eq_zero_iff] at hlen
    subst hlen
    exact absurd h (Std.lt_irrefl)
  | cons a as ih =>
    cases bs with
    | nil => cases hlen
    | cons b bs =>
      have hrest : as.length = bs.length := by simpa using hlen
      rw [hexDigits, hexDigits, List.flatMap_cons, List.flatMap_cons]
      rcases List.cons_lt_cons_iff.mp h with hab | ⟨rfl, hab⟩
      · exact hexByte_append_lt hab _ _
      · exact List.append_left_lt (ih hrest hab)

theorem prefixedHex_lt {as bs : Bytes} (hlen : as.length = bs.length) (h : as < bs) :
    prefixedHex as < prefixedHex bs := by
  rw [String.lt_iff, toList_prefixedHex, toList_prefixedHex]
  exact List.cons_lt_cons_self.mpr (List.cons_lt_cons_self.mpr (hexDigits_lt hlen h))

theorem prefixedHex_injective {as bs : Bytes} (hlen : as.length = bs.length)
    (h : prefixedHex as = prefixedHex bs) : as = bs := by
  rcases Std.lt_trichotomy as bs with hlt | heq | hgt
  · exact absurd (h ▸ prefixedHex_lt hlen hlt) Std.lt_irrefl
  · exact heq
  · exact absurd (h ▸ prefixedHex_lt hlen.symm hgt) Std.lt_irrefl

/-! ## Case -/

theorem mem_hexDigits {bs : Bytes} {c : Char} (h : c ∈ hexDigits bs) :
    ∃ n < 16, c = Nat.digitChar n := by
  rw [hexDigits, List.mem_flatMap] at h
  obtain ⟨b, -, hc⟩ := h
  have hb : b.toNat < 256 := b.toNat_lt
  simp only [hexByte, List.mem_cons, List.not_mem_nil, or_false] at hc
  rcases hc with rfl | rfl
  · exact ⟨_, by omega, rfl⟩
  · exact ⟨_, by omega, rfl⟩

/-- A hexadecimal digit is in lower case, and is what its checksummed form is lowered to. -/
theorem digitChar_case (n : Nat) (hn : n < 16) (nibble : Nat) :
    (Nat.digitChar n).toLower = Nat.digitChar n ∧ (Nat.digitChar n).toNat < 128 ∧
      (checksumChar (Nat.digitChar n) nibble).toLower = Nat.digitChar n ∧
      (checksumChar (Nat.digitChar n) nibble).toNat < 128 := by
  have hall : ∀ i : Fin 16, (Nat.digitChar i.val).toLower = Nat.digitChar i.val ∧
      (Nat.digitChar i.val).toNat < 128 ∧
      ∀ raised : Bool,
        (if '9' < Nat.digitChar i.val ∧ raised then Char.ofNat ((Nat.digitChar i.val).toNat - 32)
          else Nat.digitChar i.val).toLower = Nat.digitChar i.val ∧
        (if '9' < Nat.digitChar i.val ∧ raised then Char.ofNat ((Nat.digitChar i.val).toNat - 32)
          else Nat.digitChar i.val).toNat < 128 := by decide
  obtain ⟨hlower, hascii, hraised⟩ := hall ⟨n, hn⟩
  have hcheck := hraised (decide (7 < nibble))
  simp only [decide_eq_true_eq] at hcheck
  exact ⟨hlower, hascii, hcheck⟩

theorem toLower_prefixedHex (bs : Bytes) : (prefixedHex bs).toLower = prefixedHex bs := by
  apply String.toList_inj.mp
  have hdigits : (hexDigits bs).map Char.toLower = hexDigits bs := by
    conv_rhs => rw [← List.map_id (hexDigits bs)]
    apply List.map_congr_left
    intro c hc
    obtain ⟨n, hn, rfl⟩ := mem_hexDigits hc
    exact (digitChar_case n hn 0).1
  rw [toList_toLower, toList_prefixedHex, List.map_cons, List.map_cons, hdigits]
  rfl

theorem ascii_prefixedHex (bs : Bytes) : ∀ c ∈ (prefixedHex bs).toList, c.toNat < 128 := by
  intro c hc
  rw [toList_prefixedHex, List.mem_cons, List.mem_cons] at hc
  rcases hc with rfl | rfl | hc
  · decide
  · decide
  · obtain ⟨n, hn, rfl⟩ := mem_hexDigits hc
    exact (digitChar_case n hn 0).2.1

theorem length_nibbles (bs : Bytes) : (nibbles bs).length = 2 * bs.length := by
  induction bs with
  | nil => rfl
  | cons b bs ih =>
    rw [nibbles, List.flatMap_cons, List.length_append, ← nibbles, ih]
    simp only [List.length_cons, List.length_nil]
    omega

theorem length_hexDigits (bs : Bytes) : (hexDigits bs).length = 2 * bs.length := by
  induction bs with
  | nil => rfl
  | cons b bs ih =>
    rw [hexDigits, List.flatMap_cons, List.length_append, ← hexDigits, ih]
    simp only [hexByte, List.length_cons, List.length_nil]
    omega

theorem map_zipWith_eq {digits : List Char} {ns : List Nat} (hlen : digits.length ≤ ns.length)
    (h : ∀ c ∈ digits, ∀ n, (checksumChar c n).toLower = c) :
    (digits.zipWith checksumChar ns).map Char.toLower = digits := by
  induction digits generalizing ns with
  | nil => rfl
  | cons c digits ih =>
    cases ns with
    | nil => simp at hlen
    | cons n ns =>
      rw [List.zipWith_cons_cons, List.map_cons, h c List.mem_cons_self n,
        ih (by simpa using hlen) fun d hd => h d (List.mem_cons_of_mem c hd)]

/-- Checksummed text is the plain text once it is in lower case. -/
theorem toLower_checksumHex {digest : Bytes → Bytes} {bs : Bytes}
    (hlen : ∀ text, bs.length ≤ (digest text).length) :
    (checksumHex digest bs).toLower = prefixedHex bs := by
  apply String.toList_inj.mp
  rw [toList_toLower, toList_checksumHex, toList_prefixedHex, List.map_cons, List.map_cons,
    map_zipWith_eq]
  · rfl
  · rw [length_hexDigits, length_nibbles]
    have hdigest := hlen ((hexDigits bs).map fun c => UInt8.ofNat c.toNat)
    omega
  · intro c hc n
    obtain ⟨m, hm, rfl⟩ := mem_hexDigits hc
    exact (digitChar_case m hm n).2.2.1

theorem ascii_checksumHex (digest : Bytes → Bytes) (bs : Bytes) :
    ∀ c ∈ (checksumHex digest bs).toList, c.toNat < 128 := by
  intro c hc
  rw [toList_checksumHex, List.mem_cons, List.mem_cons] at hc
  rcases hc with rfl | rfl | hc
  · decide
  · decide
  · rw [← List.map_uncurry_zip_eq_zipWith, List.mem_map] at hc
    obtain ⟨⟨d, nibble⟩, hmem, rfl⟩ := hc
    obtain ⟨n, hn, rfl⟩ := mem_hexDigits (List.of_mem_zip hmem).1
    exact (digitChar_case n hn nibble).2.2.2

end HexText
