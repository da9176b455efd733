import Mathlib.Data.Nat.Digits.Defs

/-!
# Digits in groups of bits

A list of digits, most significant first, is determined by its value, its
length and the base. Regrouping bits into digits of another width keeps the
value but for the bits that are left over.
-/

namespace DigitGroups

/-- The number that digits write, most significant first. -/
def value (base : Nat) (digits : List Nat) : Nat := Nat.ofDigits base digits.reverse

@[simp] theorem value_nil (base : Nat) : value base [] = 0 := rfl

@[simp] theorem value_concat (base : Nat) (digits : List Nat) (d : Nat) :
    value base (digits ++ [d]) = value base digits * base + d := by
  rw [value, List.reverse_append, List.reverse_singleton, List.singleton_append, Nat.ofDigits_cons,
    value]
  ring

theorem value_lt {base : Nat} (hbase : 1 < base) {digits : List Nat}
    (h : ∀ d ∈ digits, d < base) : value base digits < base ^ digits.length := by
  have hlt := Nat.ofDigits_lt_base_pow_length hbase
    (fun d hd => h d (List.mem_reverse.mp hd) : ∀ d ∈ digits.reverse, d < base)
  rwa [List.length_reverse] at hlt

theorem value_injective {base : Nat} (hbase : 1 < base) {xs ys : List Nat}
    (hlength : xs.length = ys.length) (hx : ∀ d ∈ xs, d < base) (hy : ∀ d ∈ ys, d < base)
    (h : value base xs = value base ys) : xs = ys := by
  have hreverse : xs.reverse = ys.reverse :=
    Nat.ofDigits_inj_of_len_eq hbase (by rw [List.length_reverse, List.length_reverse, hlength])
      (fun d hd => hx d (List.mem_reverse.mp hd)) (fun d hd => hy d (List.mem_reverse.mp hd)) h
  exact List.reverse_inj.mp hreverse

/-- Digits of `width` bits that hold an accumulator but for its lowest bits. -/
structure Grouped (width accumulator bits : Nat) (digits : List Nat) : Prop where
  small : ∀ d ∈ digits, d < 2 ^ width
  value : value (2 ^ width) digits = accumulator / 2 ^ bits

theorem grouped_nil (width bits : Nat) : Grouped width 0 bits [] where
  small := nofun
  value := (Nat.zero_div _).symm

/-- The highest bits that are left make the next digit. -/
theorem Grouped.emit {width accumulator bits : Nat} {digits : List Nat}
    (h : Grouped width accumulator bits digits) (hbits : width ≤ bits) :
    Grouped width accumulator (bits - width)
      (digits ++ [accumulator / 2 ^ (bits - width) % 2 ^ width]) where
  small := by
    intro d hd
    rcases List.mem_append.mp hd with hd | hd
    · exact h.small d hd
    · rw [List.mem_singleton.mp hd]
      exact Nat.mod_lt _ (Nat.two_pow_pos width)
  value := by
    have hpow : 2 ^ bits = 2 ^ (bits - width) * 2 ^ width := by
      rw [← Nat.pow_add, Nat.sub_add_cancel hbits]
    rw [value_concat, h.value, hpow, ← Nat.div_div_eq_div_mul]
    exact Nat.div_add_mod' _ _

/-- Bits that are appended to the accumulator are left over at first. -/
theorem Grouped.push {width accumulator bits : Nat} {digits : List Nat}
    (h : Grouped width accumulator bits digits) {more v : Nat} (hv : v < 2 ^ more) :
    Grouped width (accumulator * 2 ^ more + v) (bits + more) digits where
  small := h.small
  value := by
    have hpow : 2 ^ (bits + more) = 2 ^ more * 2 ^ bits := by
      rw [← Nat.pow_add, Nat.add_comm]
    have hshift : (accumulator * 2 ^ more + v) / 2 ^ more = accumulator := by
      rw [Nat.mul_comm, Nat.mul_add_div (Nat.two_pow_pos more), Nat.div_eq_of_lt hv, Nat.add_zero]
    rw [h.value, hpow, ← Nat.div_div_eq_div_mul, hshift]

/-- The lowest bits of a number are zero when they are zero further up. -/
theorem shifted_mod_eq_zero_iff {n bits width : Nat} (h : bits ≤ width) :
    n * 2 ^ (width - bits) % 2 ^ width = 0 ↔ n % 2 ^ bits = 0 := by
  have hpow : 2 ^ width = 2 ^ bits * 2 ^ (width - bits) := by
    rw [← Nat.pow_add, Nat.add_sub_cancel' h]
  have hpos : 2 ^ (width - bits) ≠ 0 := (Nat.two_pow_pos _).ne'
  rw [hpow, Nat.mul_mod_mul_right, Nat.mul_eq_zero]
  exact ⟨fun hor => hor.resolve_right hpos, .inl⟩

end DigitGroups
