import SupplyAudit.HarmonyAddress
import SupplyAudit.XorRecurrence

/-!
# The checksum of addresses

The polymod of the address scripts is linear in exclusive or on 30 bits. Six
checksum symbols can be appended to any payload in exactly one way, and one or
two wrong symbols never leave the checksum intact.
-/

namespace AddressChecksum

open HarmonyAddress DigitGroups XorRecurrence

/-! ## Linearity -/

/-- The polymod without a value. -/
def shift (checksum : Nat) : Nat := polymodStep checksum 0

/-- A generator, when its bit is set. -/
def tap (set : Bool) (generator : Nat) : Nat := if set then generator else 0

def feedback (checksum : Nat) : Nat :=
  tap (checksum.testBit 25) 0x3B6A57B2 ^^^ tap (checksum.testBit 26) 0x26508E6D ^^^
    tap (checksum.testBit 27) 0x1EA119FA ^^^ tap (checksum.testBit 28) 0x3D4233DD ^^^
    tap (checksum.testBit 29) 0x2A1462B3

theorem xor_tap (checksum : Nat) (set : Bool) (generator : Nat) :
    (if set = true then checksum ^^^ generator else checksum) = checksum ^^^ tap set generator := by
  cases set with
  | false => exact (Nat.xor_zero checksum).symm
  | true => rfl

theorem top_bit (checksum index : Nat) :
    ((checksum >>> 25) >>> index) &&& 1 = 1 ↔ checksum.testBit (25 + index) = true := by
  rw [← Nat.shiftRight_add, Nat.testBit, Nat.and_comm]
  have hlt : 1 &&& checksum >>> (25 + index) ≤ 1 := Nat.and_le_left
  constructor
  · intro h
    rw [h]
    rfl
  · intro h
    have hne : 1 &&& checksum >>> (25 + index) ≠ 0 := by simpa using h
    omega

theorem polymodStep_eq (checksum value : Nat) :
    polymodStep checksum value =
      ((checksum &&& 0x1FFFFFF) <<< 5 ^^^ value) ^^^ feedback checksum := by
  simp only [polymodStep, generators, List.zipIdx_cons, List.zipIdx_nil, List.foldl_cons,
    List.foldl_nil, top_bit, xor_tap, feedback, Nat.xor_assoc]

theorem shift_eq (checksum : Nat) :
    shift checksum = (checksum &&& 0x1FFFFFF) <<< 5 ^^^ feedback checksum := by
  rw [shift, polymodStep_eq, Nat.xor_zero]

theorem polymodStep_shift (checksum value : Nat) :
    polymodStep checksum value = shift checksum ^^^ value := by
  rw [polymodStep_eq, shift_eq, Nat.xor_assoc, Nat.xor_assoc, Nat.xor_comm value]

theorem tap_xor (a b : Bool) (generator : Nat) :
    tap (a ^^ b) generator = tap a generator ^^^ tap b generator := by
  cases a <;> cases b <;> simp [tap]

theorem feedback_xor (a b : Nat) : feedback (a ^^^ b) = feedback a ^^^ feedback b := by
  simp only [feedback, Nat.testBit_xor, tap_xor]
  ac_rfl

theorem shift_xor (a b : Nat) : shift (a ^^^ b) = shift a ^^^ shift b := by
  rw [shift_eq, shift_eq, shift_eq, Nat.and_xor_distrib_right, Nat.shiftLeft_xor_distrib,
    feedback_xor, xor_exchange]

theorem bech32Polymod_eq_run (values : List Nat) : bech32Polymod values = run shift 1 values := by
  rw [bech32Polymod, run]
  congr 1
  funext checksum value
  exact polymodStep_shift checksum value

/-! ## Thirty bits -/

theorem tap_lt (set : Bool) {generator : Nat} (h : generator < 2 ^ 30) :
    tap set generator < 2 ^ 30 := by
  cases set with
  | false => exact Nat.two_pow_pos 30
  | true => exact h

theorem feedback_lt (checksum : Nat) : feedback checksum < 2 ^ 30 := by
  refine Nat.xor_lt_two_pow (Nat.xor_lt_two_pow (Nat.xor_lt_two_pow (Nat.xor_lt_two_pow ?_ ?_) ?_)
    ?_) ?_ <;> exact tap_lt _ (by decide)

theorem shift_lt (checksum : Nat) : shift checksum < 2 ^ 30 := by
  have hlow : checksum &&& 0x1FFFFFF ≤ 0x1FFFFFF := Nat.and_le_right
  rw [shift_eq]
  refine Nat.xor_lt_two_pow ?_ (feedback_lt checksum)
  rw [Nat.shiftLeft_eq]
  omega

/-- The lowest bits of the generators already tell which of them were added. -/
theorem tap_injective : ∀ b25 b26 b27 b28 b29 : Bool,
    (tap b25 0x3B6A57B2 ^^^ tap b26 0x26508E6D ^^^ tap b27 0x1EA119FA ^^^ tap b28 0x3D4233DD ^^^
      tap b29 0x2A1462B3) % 2 ^ 5 = 0 →
      b25 = false ∧ b26 = false ∧ b27 = false ∧ b28 = false ∧ b29 = false := by
  decide

theorem shift_injective {checksum : Nat} (hlt : checksum < 2 ^ 30) (h : shift checksum = 0) :
    checksum = 0 := by
  have hlow : (checksum &&& 0x1FFFFFF) <<< 5 % 2 ^ 5 = 0 := by
    rw [Nat.shiftLeft_eq, Nat.mul_mod_left]
  have hfeedback : feedback checksum % 2 ^ 5 = 0 := by
    have hmod := congrArg (· % 2 ^ 5) h
    simp only [shift_eq, Nat.xor_mod_two_pow, hlow, Nat.zero_xor] at hmod
    exact hmod
  obtain ⟨h25, h26, h27, h28, h29⟩ := tap_injective _ _ _ _ _ hfeedback
  have hnone : feedback checksum = 0 := by
    rw [feedback, h25, h26, h27, h28, h29]
    rfl
  have hbase : checksum % 2 ^ 25 = 0 := by
    have hmask : checksum &&& 0x1FFFFFF = checksum % 2 ^ 25 :=
      Nat.and_two_pow_sub_one_eq_mod checksum 25
    rw [shift_eq, hnone, Nat.xor_zero, Nat.shiftLeft_eq, hmask] at h
    omega
  have hbits : ∀ i, checksum.testBit i = false := by
    intro i
    by_cases hi : i < 25
    · have hmod := Nat.testBit_mod_two_pow checksum 25 i
      rw [hbase, Nat.zero_testBit] at hmod
      simpa [hi] using hmod.symm
    · by_cases hhigh : i < 30
      · have hcases : i = 25 ∨ i = 26 ∨ i = 27 ∨ i = 28 ∨ i = 29 := by omega
        rcases hcases with rfl | rfl | rfl | rfl | rfl <;> assumption
      · exact Nat.testBit_lt_two_pow
          (Nat.lt_of_lt_of_le hlt (Nat.pow_le_pow_right (by decide) (by omega)))
  exact Nat.eq_of_testBit_eq fun i => by rw [hbits, Nat.zero_testBit]

theorem shift_linear : Linear shift 30 where
  xor := shift_xor
  bounded := shift_lt
  injective _ hlt h := shift_injective hlt h

/-! ## Appending a checksum -/

theorem shift_low {checksum : Nat} (h : checksum < 2 ^ (30 - 5)) :
    shift checksum = checksum * 2 ^ 5 := by
  have hbits : ∀ i, 25 ≤ i → checksum.testBit i = false := fun i hi =>
    Nat.testBit_lt_two_pow (Nat.lt_of_lt_of_le h (Nat.pow_le_pow_right (by decide) hi))
  have hnone : feedback checksum = 0 := by
    rw [feedback, hbits 25 (by decide), hbits 26 (by decide), hbits 27 (by decide),
      hbits 28 (by decide), hbits 29 (by decide)]
    rfl
  have hmask : checksum &&& 0x1FFFFFF = checksum := Nat.and_two_pow_sub_one_of_lt_two_pow h
  rw [shift_eq, hnone, Nat.xor_zero, hmask, Nat.shiftLeft_eq]

/-- The symbols of the checksum are added to a polymod unchanged. -/
theorem bech32Polymod_append {values checksum : List Nat} (hlength : checksum.length = 6)
    (hsmall : ∀ v ∈ checksum, v < 2 ^ 5) :
    bech32Polymod (values ++ checksum) =
      bech32Polymod (values ++ List.replicate 6 0) ^^^ value (2 ^ 5) checksum := by
  have hlow : ∀ a < 2 ^ (30 - 5), shift a = a * 2 ^ 5 := fun _ hlt => shift_low hlt
  have hvalue : run shift 0 checksum = value (2 ^ 5) checksum :=
    run_eq_value (by decide) hlow hsmall (by omega)
  rw [bech32Polymod_eq_run, bech32Polymod_eq_run, run_append, run_append,
    shift_linear.run_split _ checksum, hvalue, hlength]

/-- The polymod that the checksum of a payload makes up for. -/
def payloadPolymod (data : List Nat) : Nat :=
  bech32Polymod (hrpExpand "one".toList ++ data ++ List.replicate 6 0) ^^^ 1

theorem payloadPolymod_lt (data : List Nat) : payloadPolymod data < 2 ^ 30 := by
  have hzeros : List.replicate 6 0 = List.replicate 5 0 ++ [0] := rfl
  refine Nat.xor_lt_two_pow ?_ (by decide)
  rw [hzeros, ← List.append_assoc, bech32Polymod_eq_run, run_append, run_cons, run_nil,
    Nat.xor_zero]
  exact shift_lt _

theorem checksumSymbols_length (data : List Nat) : (checksumSymbols data).length = 6 := rfl

theorem checksumSymbols_lt (data : List Nat) : ∀ v ∈ checksumSymbols data, v < 2 ^ 5 := by
  intro v hv
  obtain ⟨index, -, rfl⟩ := List.mem_map.mp hv
  exact Nat.lt_succ_of_le Nat.and_le_right

theorem value_checksumSymbols (data : List Nat) :
    value (2 ^ 5) (checksumSymbols data) = payloadPolymod data := by
  have hlt := payloadPolymod_lt data
  have hsymbols : checksumSymbols data = [payloadPolymod data / 2 ^ 25 % 2 ^ 5,
      payloadPolymod data / 2 ^ 20 % 2 ^ 5, payloadPolymod data / 2 ^ 15 % 2 ^ 5,
      payloadPolymod data / 2 ^ 10 % 2 ^ 5, payloadPolymod data / 2 ^ 5 % 2 ^ 5,
      payloadPolymod data / 2 ^ 0 % 2 ^ 5] := by
    have hdigit (k : Nat) : (payloadPolymod data >>> k) &&& 31 = payloadPolymod data / 2 ^ k % 2 ^ 5 := by
      rw [Nat.shiftRight_eq_div_pow]
      exact Nat.and_two_pow_sub_one_eq_mod _ 5
    rw [← hdigit, ← hdigit, ← hdigit, ← hdigit, ← hdigit, ← hdigit]
    rfl
  rw [hsymbols]
  generalize payloadPolymod data = n at hlt
  change Nat.ofDigits (2 ^ 5) [_, _, _, _, _, _] = n
  simp only [Nat.ofDigits_cons, Nat.ofDigits_nil]
  omega

theorem xor_eq_one_iff (a b : Nat) : a ^^^ b = 1 ↔ b = a ^^^ 1 := by
  constructor
  · intro h
    rw [← h, ← Nat.xor_assoc, Nat.xor_self, Nat.zero_xor]
  · intro h
    rw [h, ← Nat.xor_assoc, Nat.xor_self, Nat.zero_xor]

/-- Six symbols complete a payload exactly when they are its checksum. -/
theorem polymod_eq_one_iff {data checksum : List Nat} (hlength : checksum.length = 6)
    (hsmall : ∀ v ∈ checksum, v < 2 ^ 5) :
    bech32Polymod (hrpExpand "one".toList ++ (data ++ checksum)) = 1 ↔
      checksum = checksumSymbols data := by
  rw [← List.append_assoc, bech32Polymod_append hlength hsmall, xor_eq_one_iff]
  constructor
  · intro h
    refine value_injective (by decide) hlength hsmall (checksumSymbols_lt data) ?_
    rw [value_checksumSymbols]
    exact h
  · rintro rfl
    exact value_checksumSymbols data

/-! ## Wrong symbols -/

/-- Shifted on, a symbol is never again a symbol alone. -/
def staysLarge : Nat → Nat → Bool
  | 0, _ => true
  | n + 1, checksum => decide (2 ^ 5 ≤ checksum) && staysLarge n (shift checksum)

theorem iterate_ge_of_staysLarge {n checksum : Nat} (h : staysLarge n checksum = true) :
    ∀ d < n, 2 ^ 5 ≤ shift^[d] checksum := by
  induction n generalizing checksum with
  | zero => nofun
  | succ n ih =>
    rw [staysLarge, Bool.and_eq_true] at h
    intro d hd
    cases d with
    | zero => exact of_decide_eq_true h.1
    | succ d => exact ih h.2 d (Nat.lt_of_succ_lt_succ hd)

theorem shift_spreads : Spreads shift (2 ^ 5) 38 := by
  have hall : ∀ e < 2 ^ 5, 0 < e → staysLarge 37 (shift e) = true := by decide +kernel
  intro e hpos hlt d hd hdistance
  obtain ⟨d, rfl⟩ := Nat.exists_eq_succ_of_ne_zero hd.ne'
  exact iterate_ge_of_staysLarge (hall e hlt hpos) d (Nat.lt_of_succ_lt_succ hdistance)

theorem errorCount_zipWith {xs ys : List Nat} (hlength : xs.length = ys.length) :
    errorCount (List.zipWith (· ^^^ ·) xs ys) = (xs.zip ys).countP fun p => p.1 ≠ p.2 := by
  induction xs generalizing ys with
  | nil => rfl
  | cons x xs ih =>
    cases ys with
    | nil => cases hlength
    | cons y ys =>
      have hxor : x ^^^ y = 0 ↔ x = y :=
        ⟨eq_of_xor_eq_zero, fun heq => by rw [heq, Nat.xor_self]⟩
      rw [List.zipWith_cons_cons, List.zip_cons_cons, errorCount, List.countP_cons,
        List.countP_cons]
      have hrest := ih (Nat.succ.inj hlength)
      rw [errorCount] at hrest
      rw [hrest]
      simp [hxor]

/-- One or two wrong symbols among 38 change the polymod. -/
theorem polymod_ne_of_few_errors {values xs ys : List Nat} (hx : xs.length = 38)
    (hy : ys.length = 38) (hxs : ∀ v ∈ xs, v < 2 ^ 5) (hys : ∀ v ∈ ys, v < 2 ^ 5)
    (hsome : 1 ≤ (xs.zip ys).countP fun p => p.1 ≠ p.2)
    (hfew : ((xs.zip ys).countP fun p => p.1 ≠ p.2) ≤ 2) :
    bech32Polymod (values ++ xs) ≠ bech32Polymod (values ++ ys) := by
  have hlength : xs.length = ys.length := hx.trans hy.symm
  have hsmall : ∀ e ∈ List.zipWith (· ^^^ ·) xs ys, e < 2 ^ 5 := by
    intro e he
    rw [← List.map_uncurry_zip_eq_zipWith] at he
    obtain ⟨p, hp, rfl⟩ := List.mem_map.mp he
    obtain ⟨hleft, hright⟩ := List.of_mem_zip hp
    exact Nat.xor_lt_two_pow (hxs _ hleft) (hys _ hright)
  intro heq
  rw [bech32Polymod_eq_run, bech32Polymod_eq_run, run_append, run_append] at heq
  have hdifference := shift_linear.run_xor hlength (run shift 1 values) (run shift 1 values)
  rw [heq, Nat.xor_self, Nat.xor_self] at hdifference
  have hcount := errorCount_zipWith hlength
  refine shift_linear.run_ne_zero (by decide) ?_ hsmall ?_ ?_ hdifference
  · rw [List.length_zipWith, hx, hy]
    exact shift_spreads
  · rw [hcount]
    exact hsome
  · rw [hcount]
    exact hfew

end AddressChecksum
