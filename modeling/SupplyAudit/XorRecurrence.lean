import Mathlib.Data.List.Induction
import Mathlib.Data.Nat.Bitwise
import Mathlib.Logic.Function.Iterate
import SupplyAudit.DigitGroups

/-!
# Recurrences over exclusive or

A checksum that is linear in exclusive or, such as a cyclic code: the state is
mapped by a linear function and combined with the next value. A difference of
two runs is the run of the differences, so an error pattern is detected when its
own run does not end in zero.
-/

namespace XorRecurrence

open DigitGroups

variable {f : Nat → Nat}

def run (f : Nat → Nat) (state : Nat) (values : List Nat) : Nat :=
  values.foldl (fun state v => f state ^^^ v) state

theorem run_append (f : Nat → Nat) (state : Nat) (xs ys : List Nat) :
    run f state (xs ++ ys) = run f (run f state xs) ys :=
  List.foldl_append

@[simp] theorem run_nil (f : Nat → Nat) (state : Nat) : run f state [] = state := rfl

@[simp] theorem run_cons (f : Nat → Nat) (state v : Nat) (rest : List Nat) :
    run f state (v :: rest) = run f (f state ^^^ v) rest := rfl

/-- Linear on all numbers, and injective on those of `width` bits, to which it maps. -/
structure Linear (f : Nat → Nat) (width : Nat) : Prop where
  xor : ∀ a b, f (a ^^^ b) = f a ^^^ f b
  bounded : ∀ a, f a < 2 ^ width
  injective : ∀ a < 2 ^ width, f a = 0 → a = 0

variable {width : Nat}

theorem Linear.zero (h : Linear f width) : f 0 = 0 := by
  have hxor := h.xor 0 0
  rwa [Nat.xor_self, Nat.xor_self] at hxor

theorem xor_exchange (a b c d : Nat) : (a ^^^ b) ^^^ (c ^^^ d) = (a ^^^ c) ^^^ (b ^^^ d) := by
  rw [Nat.xor_assoc, Nat.xor_assoc, ← Nat.xor_assoc b, Nat.xor_comm b c, Nat.xor_assoc c]

/-- Runs over lists of one length add up. -/
theorem Linear.run_xor (h : Linear f width) {xs ys : List Nat} (hlength : xs.length = ys.length)
    (s t : Nat) : run f (s ^^^ t) (List.zipWith (· ^^^ ·) xs ys) = run f s xs ^^^ run f t ys := by
  induction xs generalizing ys s t with
  | nil =>
    rw [List.eq_nil_of_length_eq_zero hlength.symm]
    rfl
  | cons x xs ih =>
    cases ys with
    | nil => cases hlength
    | cons y ys =>
      rw [List.zipWith_cons_cons, run_cons, run_cons, run_cons, h.xor, xor_exchange,
        ih (Nat.succ.inj hlength)]

/-- A run is that of zeros from its state and that of its values from zero. -/
theorem Linear.run_split (h : Linear f width) (state : Nat) (values : List Nat) :
    run f state values = run f state (List.replicate values.length 0) ^^^ run f 0 values := by
  have hzip : List.zipWith (· ^^^ ·) (List.replicate values.length 0) values = values := by
    induction values with
    | nil => rfl
    | cons v rest ih => rw [List.length_cons, List.replicate_succ, List.zipWith_cons_cons, ih,
        Nat.zero_xor]
  have hrun := h.run_xor (List.length_replicate (n := values.length) (a := 0)) state 0
  rwa [hzip, Nat.xor_zero] at hrun

/-! ## Appended digits -/

theorem mul_two_pow_xor {i v : Nat} (hv : v < 2 ^ i) (a : Nat) :
    a * 2 ^ i ^^^ v = a * 2 ^ i + v := by
  apply Nat.eq_of_testBit_eq
  intro j
  rw [Nat.mul_comm, Nat.testBit_two_pow_mul_add a hv, Nat.testBit_xor, Nat.testBit_two_pow_mul]
  by_cases hj : j < i
  · simp [hj, Nat.not_le.mpr hj]
  · have hhigh : v < 2 ^ j := Nat.lt_of_lt_of_le hv (Nat.pow_le_pow_right (by omega) (by omega))
    simp [hj, Nat.testBit_lt_two_pow hhigh, Nat.le_of_not_lt hj]

/-- Digits that fit into the width are shifted in unchanged. -/
theorem run_eq_value {digit : Nat} (hpos : 0 < digit)
    (hlow : ∀ a < 2 ^ (width - digit), f a = a * 2 ^ digit) {values : List Nat}
    (hsmall : ∀ v ∈ values, v < 2 ^ digit) (hfits : digit * values.length ≤ width) :
    run f 0 values = value (2 ^ digit) values := by
  induction values using List.reverseRecOn with
  | nil => rfl
  | append_singleton values v ih =>
    have hinit : ∀ u ∈ values, u < 2 ^ digit := fun u hu => hsmall u (List.mem_append_left _ hu)
    have hv : v < 2 ^ digit := hsmall v (List.mem_append_right _ List.mem_cons_self)
    rw [List.length_append, List.length_singleton, Nat.mul_succ] at hfits
    have hprevious := ih hinit (Nat.le_of_add_right_le hfits)
    have hbound : value (2 ^ digit) values < 2 ^ (width - digit) := by
      calc value (2 ^ digit) values < (2 ^ digit) ^ values.length :=
            value_lt (Nat.one_lt_two_pow hpos.ne') hinit
        _ = 2 ^ (digit * values.length) := (Nat.pow_mul 2 digit values.length).symm
        _ ≤ 2 ^ (width - digit) := Nat.pow_le_pow_right (by omega) (by omega)
    rw [run_append, run_cons, run_nil, hprevious, hlow _ hbound, value_concat, mul_two_pow_xor hv]

/-! ## Few errors -/

theorem Linear.iterate_xor (h : Linear f width) (n a b : Nat) :
    f^[n] (a ^^^ b) = f^[n] a ^^^ f^[n] b := by
  induction n generalizing a b with
  | zero => rfl
  | succ n ih => rw [Function.iterate_succ_apply, h.xor, ih]; rfl

theorem Linear.iterate_lt (h : Linear f width) {n a : Nat} (ha : a < 2 ^ width) :
    f^[n] a < 2 ^ width := by
  induction n generalizing a with
  | zero => exact ha
  | succ n ih => exact ih (h.bounded a)

theorem Linear.iterate_ne_zero (h : Linear f width) {n a : Nat} (ha : a < 2 ^ width)
    (hne : a ≠ 0) : f^[n] a ≠ 0 := by
  induction n generalizing a with
  | zero => exact hne
  | succ n ih =>
    rw [Function.iterate_succ_apply]
    exact ih (h.bounded a) fun hzero => hne (h.injective a ha hzero)

theorem eq_of_xor_eq_zero {a b : Nat} (h : a ^^^ b = 0) : a = b := by
  have hcancel : (a ^^^ b) ^^^ b = a := by rw [Nat.xor_assoc, Nat.xor_self, Nat.xor_zero]
  rw [← hcancel, h, Nat.zero_xor]

theorem Linear.iterate_injective (h : Linear f width) {n a b : Nat} (ha : a < 2 ^ width)
    (hb : b < 2 ^ width) (heq : f^[n] a = f^[n] b) : a = b := by
  by_contra hne
  have hxor : a ^^^ b ≠ 0 := fun hzero => hne (eq_of_xor_eq_zero hzero)
  have himage := h.iterate_xor n a b
  rw [heq, Nat.xor_self] at himage
  exact h.iterate_ne_zero (Nat.xor_lt_two_pow ha hb) hxor himage

/-- A run that starts in a state is the image of that state after zeros. -/
theorem Linear.run_state (h : Linear f width) (state : Nat) (values : List Nat) :
    run f state values = f^[values.length] state ^^^ run f 0 values := by
  have hzeros : ∀ n s, run f s (List.replicate n 0) = f^[n] s := by
    intro n
    induction n with
    | zero => exact fun _ => rfl
    | succ n ih =>
      intro s
      rw [List.replicate_succ, run_cons, Nat.xor_zero, ih, Function.iterate_succ_apply]
  rw [h.run_split, hzeros]

/-- No shift of a small number within a distance is small again. -/
def Spreads (f : Nat → Nat) (bound distance : Nat) : Prop :=
  ∀ e, 0 < e → e < bound → ∀ d, 0 < d → d < distance → bound ≤ f^[d] e

def errorCount (errors : List Nat) : Nat := errors.countP (· ≠ 0)

theorem Linear.run_eq_zero_of_no_error (h : Linear f width) {errors : List Nat}
    (hcount : errorCount errors = 0) : run f 0 errors = 0 := by
  induction errors with
  | nil => rfl
  | cons e rest ih =>
    have hnone := List.countP_eq_zero.mp hcount
    have he : e = 0 := by simpa using hnone e List.mem_cons_self
    have hrest : errorCount rest = 0 :=
      List.countP_eq_zero.mpr fun x hx => hnone x (List.mem_cons_of_mem _ hx)
    rw [run_cons, he, h.zero, Nat.xor_self, ih hrest]

/-- The run of a pattern with one error is a shift of the error. -/
theorem Linear.run_of_one_error (h : Linear f width) {errors : List Nat}
    (hcount : errorCount errors = 1) :
    ∃ e ∈ errors, e ≠ 0 ∧ ∃ d < errors.length, run f 0 errors = f^[d] e := by
  induction errors with
  | nil => cases hcount
  | cons e rest ih =>
    by_cases he : e = 0
    · have hrest : errorCount rest = 1 := by
        rw [errorCount, List.countP_cons_of_neg (by simp [he])] at hcount
        exact hcount
      obtain ⟨u, hu, hne, d, hd, hrun⟩ := ih hrest
      rw [run_cons, he, h.zero, Nat.xor_self]
      exact ⟨u, List.mem_cons_of_mem _ hu, hne, d, Nat.lt_succ_of_lt hd, hrun⟩
    · have hrest : errorCount rest = 0 := by
        rw [errorCount, List.countP_cons_of_pos (by simp [he])] at hcount
        exact Nat.succ.inj hcount
      refine ⟨e, List.mem_cons_self, he, rest.length, Nat.lt_succ_self _, ?_⟩
      rw [run_cons, h.zero, Nat.zero_xor, h.run_state, h.run_eq_zero_of_no_error hrest,
        Nat.xor_zero]

/-- One or two small errors within the distance leave a state that is not zero. -/
theorem Linear.run_ne_zero (h : Linear f width) {bound : Nat} (hbound : bound ≤ 2 ^ width)
    {errors : List Nat} (hspread : Spreads f bound errors.length)
    (hsmall : ∀ e ∈ errors, e < bound) (hsome : 1 ≤ errorCount errors)
    (hfew : errorCount errors ≤ 2) : run f 0 errors ≠ 0 := by
  induction errors with
  | nil => cases hsome
  | cons e rest ih =>
    have hrestSmall : ∀ u ∈ rest, u < bound := fun u hu => hsmall u (List.mem_cons_of_mem _ hu)
    have hrestSpread : Spreads f bound rest.length := fun u hpos hu d hd hlt =>
      hspread u hpos hu d hd (Nat.lt_succ_of_lt hlt)
    by_cases he : e = 0
    · have hcount : errorCount (e :: rest) = errorCount rest :=
        List.countP_cons_of_neg (by simp [he])
      rw [hcount] at hsome hfew
      rw [run_cons, he, h.zero, Nat.xor_self]
      exact ih hrestSpread hrestSmall hsome hfew
    · have hcount : errorCount (e :: rest) = errorCount rest + 1 :=
        List.countP_cons_of_pos (by simp [he])
      have hesmall : e < 2 ^ width := Nat.lt_of_lt_of_le (hsmall e List.mem_cons_self) hbound
      rw [run_cons, h.zero, Nat.zero_xor, h.run_state]
      by_cases hnone : errorCount rest = 0
      · rw [h.run_eq_zero_of_no_error hnone, Nat.xor_zero]
        exact h.iterate_ne_zero hesmall he
      · have hone : errorCount rest = 1 := by omega
        obtain ⟨u, hu, hne, d, hd, hrun⟩ := h.run_of_one_error hone
        intro hzero
        rw [hrun] at hzero
        have hshift : f^[rest.length - d] e = u := by
          apply h.iterate_injective (n := d) (h.iterate_lt hesmall)
          · exact Nat.lt_of_lt_of_le (hrestSmall u hu) hbound
          · rw [← Function.iterate_add_apply, Nat.add_sub_cancel' hd.le]
            exact eq_of_xor_eq_zero hzero
        have hlarge := hspread e (Nat.pos_of_ne_zero he) (hsmall e List.mem_cons_self)
          (rest.length - d) (by omega) (by rw [List.length_cons]; omega)
        rw [hshift] at hlarge
        exact absurd (hrestSmall u hu) (Nat.not_lt.mpr hlarge)

end XorRecurrence
