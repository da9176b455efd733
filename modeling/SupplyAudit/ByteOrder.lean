import SupplyAudit.ByteWords

/-!
# The order of byte strings

Byte strings of one width are ordered as the numbers that they write. A string that
begins with parts of fixed widths is therefore ordered by its parts in turn.
-/

namespace ByteOrder

open ByteWords

theorem cons_toNat_lt {b c : UInt8} (h : b < c) {bs cs : Bytes} (hlen : bs.length = cs.length) :
    toNat (b :: bs) < toNat (c :: cs) := by
  have hbc : b.toNat + 1 ≤ c.toNat := UInt8.lt_iff_toNat_lt.mp h
  have hlt := toNat_lt bs
  have hmul : (b.toNat + 1) * 256 ^ bs.length ≤ c.toNat * 256 ^ bs.length :=
    Nat.mul_le_mul_right _ hbc
  rw [Nat.succ_mul] at hmul
  rw [ByteWords.toNat, ByteWords.toNat, ← hlen]
  omega

/-- Strings of one width are ordered as numbers. -/
theorem lt_iff_toNat_lt {bs cs : Bytes} (hlen : bs.length = cs.length) :
    bs < cs ↔ toNat bs < toNat cs := by
  induction bs generalizing cs with
  | nil =>
    have hnil : cs = [] := List.length_eq_zero_iff.mp hlen.symm
    simp [hnil]
  | cons b bs ih =>
    cases cs with
    | nil => cases hlen
    | cons c cs =>
      have hrest : bs.length = cs.length := Nat.succ.inj hlen
      rw [List.cons_lt_cons_iff]
      rcases Std.lt_trichotomy b c with hlt | rfl | hgt
      · exact iff_of_true (Or.inl hlt) (cons_toNat_lt hlt hrest)
      · have hsame : toNat (b :: bs) < toNat (b :: cs) ↔ toNat bs < toNat cs := by
          rw [ByteWords.toNat, ByteWords.toNat, hrest]
          omega
        rw [hsame, ← ih hrest]
        simp
      · have hbelow := cons_toNat_lt hgt hrest.symm
        have hnot : ¬ b < c := fun hlt => Std.lt_irrefl (Std.lt_trans hlt hgt)
        have hne : b ≠ c := by
          rintro rfl
          exact hnot hgt
        simp only [hnot, hne, false_and, or_self, false_iff]
        omega

theorem ofNat_lt_iff {w n m : Nat} (hn : n < 256 ^ w) (hm : m < 256 ^ w) :
    ofNat w n < ofNat w m ↔ n < m := by
  rw [lt_iff_toNat_lt ((length_ofNat w n).trans (length_ofNat w m).symm), toNat_ofNat_of_lt hn,
    toNat_ofNat_of_lt hm]

/-- After parts of one width, the rest decides only where these are the same. -/
theorem append_lt_append_iff {bs cs : Bytes} (hlen : bs.length = cs.length) (xs ys : Bytes) :
    bs ++ xs < cs ++ ys ↔ bs < cs ∨ bs = cs ∧ xs < ys := by
  induction bs generalizing cs with
  | nil =>
    have hnil : cs = [] := List.length_eq_zero_iff.mp hlen.symm
    simp [hnil]
  | cons b bs ih =>
    cases cs with
    | nil => cases hlen
    | cons c cs =>
      rw [List.cons_append, List.cons_append, List.cons_lt_cons_iff, List.cons_lt_cons_iff,
        ih (Nat.succ.inj hlen), List.cons_eq_cons]
      tauto

end ByteOrder
