import Mathlib.Data.List.Basic
import Mathlib.Tactic.Ring

/-!
# Big-endian words and fixed-width byte strings

A natural number is written as exactly `w` bytes, most significant byte first,
and read back from them. Fixed-width strings carry their length as a field, so
a value of the wrong width cannot be built. Nothing here depends on what the
bytes are used for.
-/

namespace ByteWords

abbrev Bytes := List UInt8

/-- The `w` big-endian bytes of `n`; bits above `8 * w` are dropped. -/
def ofNat : Nat → Nat → Bytes
  | 0, _ => []
  | w + 1, n => UInt8.ofNat (n / 256 ^ w) :: ofNat w n

/-- The number written by the given big-endian bytes. -/
def toNat : Bytes → Nat
  | [] => 0
  | b :: rest => b.toNat * 256 ^ rest.length + toNat rest

@[simp] theorem length_ofNat (w n : Nat) : (ofNat w n).length = w := by
  induction w with
  | zero => rfl
  | succ w ih => simp [ofNat, ih]

theorem toNat_lt (bs : Bytes) : toNat bs < 256 ^ bs.length := by
  induction bs with
  | nil => simp [toNat]
  | cons b rest ih =>
    have hb : b.toNat + 1 ≤ 256 := b.toNat_lt
    calc toNat (b :: rest) < b.toNat * 256 ^ rest.length + 256 ^ rest.length := by
          simpa [toNat] using ih
      _ = (b.toNat + 1) * 256 ^ rest.length := by ring
      _ ≤ 256 * 256 ^ rest.length := Nat.mul_le_mul_right _ hb
      _ = 256 ^ (b :: rest).length := by rw [List.length_cons]; ring

theorem toNat_ofNat (w n : Nat) : toNat (ofNat w n) = n % 256 ^ w := by
  induction w with
  | zero => simp [ofNat, toNat, Nat.mod_one]
  | succ w ih =>
    have hb : (UInt8.ofNat (n / 256 ^ w)).toNat = n / 256 ^ w % 256 := by
      simp [UInt8.toNat_ofNat']
    rw [ofNat, toNat, length_ofNat, ih, hb, pow_succ, Nat.mod_mul]
    ring

theorem toNat_ofNat_of_lt {w n : Nat} (h : n < 256 ^ w) : toNat (ofNat w n) = n := by
  rw [toNat_ofNat, Nat.mod_eq_of_lt h]

/-- The low bytes of a word do not see what is added above them. -/
theorem ofNat_add_mul (w n k : Nat) : ofNat w (n + k * 256 ^ w) = ofNat w n := by
  induction w generalizing k with
  | zero => rfl
  | succ w ih =>
    have hp : 0 < 256 ^ w := Nat.pow_pos (by omega)
    have he : k * 256 ^ (w + 1) = k * 256 * 256 ^ w := by ring
    have hd : (n + k * 256 ^ (w + 1)) / 256 ^ w = n / 256 ^ w + k * 256 := by
      rw [he, Nat.add_mul_div_right _ _ hp]
    have hb : UInt8.ofNat (n / 256 ^ w + k * 256) = UInt8.ofNat (n / 256 ^ w) := by
      apply UInt8.toNat_inj.mp
      simp [UInt8.toNat_ofNat']
    rw [ofNat, ofNat, hd, hb, he, ih]

theorem ofNat_toNat (bs : Bytes) : ofNat bs.length (toNat bs) = bs := by
  induction bs with
  | nil => rfl
  | cons b rest ih =>
    have hlt := toNat_lt rest
    have hp : 0 < 256 ^ rest.length := Nat.pow_pos (by omega)
    have hd : (b.toNat * 256 ^ rest.length + toNat rest) / 256 ^ rest.length = b.toNat := by
      rw [Nat.add_comm, Nat.add_mul_div_right _ _ hp, Nat.div_eq_of_lt hlt, Nat.zero_add]
    rw [List.length_cons, ofNat, toNat, hd, Nat.add_comm (b.toNat * _), ofNat_add_mul, ih]
    simp

theorem ofNat_injective {w n m : Nat} (hn : n < 256 ^ w) (hm : m < 256 ^ w)
    (h : ofNat w n = ofNat w m) : n = m := by
  have he := congrArg toNat h
  rwa [toNat_ofNat_of_lt hn, toNat_ofNat_of_lt hm] at he

/-- A byte string of exactly `n` bytes. -/
@[ext] structure FixedBytes (n : Nat) where
  data : Bytes
  size : data.length = n
  deriving DecidableEq

namespace FixedBytes
variable {n : Nat}

/-- Keep the last `n` bytes, or pad with zero bytes on the left. -/
def ofBytes (n : Nat) (bs : Bytes) : FixedBytes n where
  data := List.replicate (n - bs.length) 0 ++ bs.drop (bs.length - n)
  size := by simp only [List.length_append, List.length_replicate, List.length_drop]; omega

def zero (n : Nat) : FixedBytes n := ⟨List.replicate n 0, List.length_replicate⟩

/-- The string that repeats one byte. -/
def fill (n : Nat) (b : UInt8) : FixedBytes n := ⟨List.replicate n b, List.length_replicate⟩

instance : Inhabited (FixedBytes n) := ⟨zero n⟩

/-- A string that already has the right width is kept as it is. -/
theorem ofBytes_of_length {bs : Bytes} (h : bs.length = n) : ofBytes n bs = ⟨bs, h⟩ := by
  apply FixedBytes.ext
  simp [ofBytes, h]

@[simp] theorem ofBytes_data (x : FixedBytes n) : ofBytes n x.data = x :=
  ofBytes_of_length x.size

@[simp] theorem ofBytes_nil : ofBytes n [] = zero n := by
  apply FixedBytes.ext
  simp [ofBytes, zero]

end FixedBytes
end ByteWords
