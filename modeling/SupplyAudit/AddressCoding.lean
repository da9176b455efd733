import SupplyAudit.AddressChecksum

/-!
# Bytes, symbols and texts of addresses

Converting between bytes and symbols keeps the number that they write. A symbol
and its character determine each other, and no character of the alphabet is the
separator.
-/

namespace AddressCoding

open ByteWords HarmonyAddress DigitGroups AddressChecksum

/-! ## Regrouping -/

/-- The state of `convert_bits` after some values. -/
structure Regrouped (fromBits toBits : Nat) (values : List Nat) (s : BitState) : Prop where
  accumulator : s.accumulator = value (2 ^ fromBits) values
  left : s.bits < toBits
  count : toBits * s.output.length + s.bits = fromBits * values.length
  grouped : Grouped toBits s.accumulator s.bits s.output

theorem emitGroups_spec {accumulator toBits : Nat} (hpos : 0 < toBits) {fuel bits : Nat}
    {output : List Nat} (hfuel : bits ≤ fuel) (h : Grouped toBits accumulator bits output) :
    (emitGroups accumulator toBits fuel bits output).1 < toBits ∧
      toBits * (emitGroups accumulator toBits fuel bits output).2.length +
        (emitGroups accumulator toBits fuel bits output).1 = toBits * output.length + bits ∧
      Grouped toBits accumulator (emitGroups accumulator toBits fuel bits output).1
        (emitGroups accumulator toBits fuel bits output).2 := by
  induction fuel generalizing bits output with
  | zero =>
    have hbits : bits = 0 := Nat.le_zero.mp hfuel
    rw [emitGroups, hbits]
    exact ⟨hpos, rfl, hbits ▸ h⟩
  | succ fuel ih =>
    rw [emitGroups]
    split
    · rename_i hge
      have hdigit : (accumulator >>> (bits - toBits)) &&& ((1 <<< toBits) - 1) =
          accumulator / 2 ^ (bits - toBits) % 2 ^ toBits := by
        rw [Nat.shiftRight_eq_div_pow, Nat.one_shiftLeft, Nat.and_two_pow_sub_one_eq_mod]
      rw [hdigit]
      obtain ⟨hleft, hcount, hgrouped⟩ := ih (by omega) (h.emit hge)
      refine ⟨hleft, ?_, hgrouped⟩
      rw [hcount, List.length_append, List.length_singleton, Nat.mul_succ]
      omega
    · rename_i hlt
      exact ⟨Nat.lt_of_not_le hlt, rfl, h⟩

theorem regrouped_nil {toBits : Nat} (hpos : 0 < toBits) (fromBits : Nat) :
    Regrouped fromBits toBits [] {} where
  accumulator := rfl
  left := hpos
  count := rfl
  grouped := grouped_nil toBits 0

theorem Regrouped.push {fromBits toBits : Nat} (hpos : 0 < toBits) {values : List Nat}
    {s : BitState} (h : Regrouped fromBits toBits values s) {v : Nat} (hv : v < 2 ^ fromBits) :
    Regrouped fromBits toBits (values ++ [v]) (pushBits fromBits toBits s v) := by
  have haccumulator : (s.accumulator <<< fromBits) ||| v = s.accumulator * 2 ^ fromBits + v := by
    rw [← Nat.shiftLeft_add_eq_or_of_lt hv, Nat.shiftLeft_eq]
  obtain ⟨hleft, hcount, hgrouped⟩ :=
    emitGroups_spec hpos (Nat.le_refl (s.bits + fromBits)) (h.grouped.push hv)
  rw [pushBits, haccumulator]
  constructor
  case accumulator => rw [value_concat, ← h.accumulator]
  case left => exact hleft
  case count =>
    have hprevious := h.count
    rw [List.length_append, List.length_singleton, Nat.mul_succ]
    exact hcount.trans (by omega)
  case grouped => exact hgrouped

theorem regrouped {fromBits toBits : Nat} (hpos : 0 < toBits) {values : List Nat}
    (hsmall : ∀ v ∈ values, v < 2 ^ fromBits) :
    Regrouped fromBits toBits values (values.foldl (pushBits fromBits toBits) {}) := by
  induction values using List.reverseRecOn with
  | nil => exact regrouped_nil hpos fromBits
  | append_singleton values v ih =>
    rw [List.foldl_append]
    exact (ih fun u hu => hsmall u (List.mem_append_left _ hu)).push hpos
      (hsmall v (List.mem_append_right _ List.mem_cons_self))

/-- Without bits left over, the digits write the same number. -/
theorem Regrouped.value_eq {fromBits toBits : Nat} {values : List Nat} {s : BitState}
    (h : Regrouped fromBits toBits values s) (hbits : s.bits = 0) :
    value (2 ^ toBits) s.output = value (2 ^ fromBits) values := by
  rw [h.grouped.value, hbits, Nat.pow_zero, Nat.div_one, h.accumulator]

/-! ## Symbols -/

theorem charset_length : charset.length = 32 := by decide

theorem charset_nodup : charset.Nodup := by decide

/-- The alphabet is in lower case and lacks the separator. -/
theorem charset_plain : ∀ c ∈ charset, c.toLower = c ∧ c.toNat < 128 ∧ c ≠ '1' := by
  have hall : (charset.all fun c => c.toLower = c ∧ c.toNat < 128 ∧ c ≠ '1') = true := by decide
  intro c hc
  exact of_decide_eq_true (List.all_eq_true.mp hall c hc)

theorem charsetAt_mem {v : Nat} (h : v < 32) : charsetAt v ∈ charset := by
  have hlt : v < charset.length := by rw [charset_length]; exact h
  rw [charsetAt, List.getD_eq_getElem _ _ hlt]
  exact List.getElem_mem hlt

theorem symbolIndex_charsetAt {v : Nat} (h : v < 32) : symbolIndex (charsetAt v) = .ok v := by
  have hlt : v < charset.length := by rw [charset_length]; exact h
  rw [symbolIndex, if_pos (charsetAt_mem h), charsetAt, List.getD_eq_getElem _ _ hlt,
    charset_nodup.idxOf_getElem]

theorem charsetAt_symbolIndex {c : Char} {v : Nat} (h : symbolIndex c = .ok v) :
    charsetAt v = c ∧ v < 2 ^ 5 := by
  rw [symbolIndex] at h
  split at h
  · rename_i hmem
    cases h
    have hlt := List.idxOf_lt_length_iff.mpr hmem
    rw [charsetAt, List.getD_eq_getElem _ _ hlt, List.getElem_idxOf]
    exact ⟨rfl, by rwa [charset_length] at hlt⟩
  · cases h

end AddressCoding
