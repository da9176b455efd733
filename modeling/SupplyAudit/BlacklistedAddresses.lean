import SupplyAudit.AddressCoding
import SupplyAudit.FallibleScan
import SupplyAudit.HexText
import SupplyAudit.ReceiptKeys
import SupplyAudit.ScriptValues

/-!
# Reading back an address

The address-list audit has a reader of its own, and three forensic scripts have
copies of another one. All of them read what the non-issuance audit writes, and
on bech32 texts they agree.
-/

namespace BlacklistedAddresses

open ByteWords NumeralText HexText ReceiptKeys ScriptValues FallibleScan HarmonyAddress DigitGroups
  AddressChecksum AddressCoding TraceInspection

/-! ## Readers -/

inductive ListError where
  | invalid (address : String)
  | character (address : String)
  | checksum (address : String)
  | padding (address : String)
  | length (address : String)
  deriving DecidableEq

def ListError.text : ListError → String
  | .invalid address => "invalid Harmony address: " ++ address
  | .character address => "invalid Harmony address character: " ++ address
  | .checksum address => "invalid Harmony address checksum: " ++ address
  | .padding address => "nonzero Harmony address padding: " ++ address
  | .length address => "Harmony address is not 20 bytes: " ++ address

/-- `decode_bech32` of the address-list audit. -/
def decodeBech32 (lower : String → String) (address : String) : Except ListError String :=
  if address ≠ lower address ∨ ¬ "one1".toList.isPrefixOf address.toList then
    .error (.invalid address)
  else
    let (hrp, symbols) := splitSeparator address.toList
    match symbols.mapM symbolIndex with
    | .error _ => .error (.character address)
    | .ok data =>
      if bech32Polymod (hrpExpand hrp ++ data) ≠ 1 then .error (.checksum address)
      else
        let s := (data.take (data.length - 6)).foldl (pushBits 5 8) {}
        if s.bits ≠ 0 ∧ s.accumulator &&& ((1 <<< s.bits) - 1) ≠ 0 then .error (.padding address)
        else if s.output.length ≠ 20 then .error (.length address)
        else .ok (prefixedHex (s.output.map UInt8.ofNat))

/-- `decode_address` of the flow export, for which a text without characters is absent too. -/
def exportDecodeAddress (lower : String → String) : Option String → Except AddressError String
  | none => .ok ""
  | some value => if value = "" then .ok "" else decodeAddress lower (some value)

/-- `decode_address` of the staking reader, which takes only bech32 texts. -/
def stakingDecodeAddress (lower : String → String) (value : String) :
    Except AddressError String :=
  if value ≠ lower value ∨ ¬ "one1".toList.isPrefixOf value.toList then .error (.invalid value)
  else HarmonyAddress.decodeBech32 value

/-! ## Agreement -/

theorem padding_iff {values : List Nat} (hsmall : ∀ v ∈ values, v < 2 ^ 5) :
    (values.foldl (pushBits 5 8) {}).rest 8 ≠ 0 ↔
      (values.foldl (pushBits 5 8) {}).accumulator &&&
        ((1 <<< (values.foldl (pushBits 5 8) {}).bits) - 1) ≠ 0 := by
  have hleft := (regrouped (by decide : 0 < 8) hsmall).left
  generalize values.foldl (pushBits 5 8) {} = s at hleft
  rw [BitState.rest, Nat.one_shiftLeft, Nat.one_shiftLeft, Nat.and_two_pow_sub_one_eq_mod,
    Nat.and_two_pow_sub_one_eq_mod, Nat.shiftLeft_eq]
  exact not_congr (shifted_mod_eq_zero_iff hleft.le)

theorem symbols_small {symbols : List Char} {data : List Nat}
    (h : symbols.mapM symbolIndex = .ok data) : ∀ v ∈ data, v < 2 ^ 5 := by
  intro v hv
  obtain ⟨c, -, hc⟩ := mapM_ok_right h hv
  exact (charsetAt_symbolIndex hc).2

/-- Both readers accept the same bech32 texts, with one result. -/
theorem decode_agree (lower : String → String) {value : String}
    (hstarts : "one1".toList.isPrefixOf value.toList = true) :
    (decodeBech32 lower value).toOption = (decodeAddress lower (some value)).toOption := by
  have hnot : ¬ "0x".toList.isPrefixOf value.toList = true := by
    intro h0
    obtain ⟨rest, hrest⟩ := List.isPrefixOf_iff_prefix.mp hstarts
    obtain ⟨rest', hrest'⟩ := List.isPrefixOf_iff_prefix.mp h0
    have hhead : 'o' = '0' := by
      have hboth := hrest.trans hrest'.symm
      exact (List.cons.inj hboth).1
    exact absurd hhead (by decide)
  rw [decodeBech32, decodeAddress, if_neg hnot]
  split
  · rfl
  rw [HarmonyAddress.decodeBech32]
  obtain ⟨hrp, symbols⟩ := splitSeparator value.toList
  simp only
  cases hdata : symbols.mapM symbolIndex with
  | error err => rfl
  | ok data =>
    have hsmall : ∀ v ∈ data.take (data.length - 6), v < 2 ^ 5 :=
      fun v hv => symbols_small hdata v (List.mem_of_mem_take hv)
    have hpadding := padding_iff hsmall
    simp only [bind_ok]
    by_cases hsum : bech32Polymod (hrpExpand hrp ++ data) = 1
    · rw [if_neg (not_not.mpr hsum)]
      by_cases hshort : data.length < 6
      · -- without six symbols nothing is left to decode
        have hnone : data.length - 6 = 0 := by omega
        have hrefused : data.length < 6 ∨ bech32Polymod (hrpExpand hrp ++ data) ≠ 1 := .inl hshort
        rw [if_pos hrefused, hnone]
        rfl
      · have hneither : ¬ (data.length < 6 ∨ bech32Polymod (hrpExpand hrp ++ data) ≠ 1) :=
          fun hor => hor.elim hshort fun hne => hne hsum
        rw [if_neg hneither, convertBits]
        simp only [hpadding]
        split
        · rfl
        · simp only
          split <;> rfl
    · rw [if_pos hsum, if_pos (.inr hsum)]
      rfl

/-! ## Writing -/

theorem hexValue_digitChar : ∀ n < 16, hexValue (Nat.digitChar n) = some (UInt8.ofNat n) := by
  decide

theorem isSpace_digitChar : ∀ n < 16, isSpace (Nat.digitChar n) = false := by decide

/-- Hexadecimal text is read back. -/
theorem fromHex_hexDigits (bs : Bytes) : fromHex (hexDigits bs) = some bs := by
  induction bs with
  | nil => rfl
  | cons b rest ih =>
    have hb := b.toNat_lt
    have hhigh : b.toNat / 16 < 16 := by omega
    have hlow : b.toNat % 16 < 16 := Nat.mod_lt _ (by decide)
    have hdigits : hexDigits (b :: rest) =
        Nat.digitChar (b.toNat / 16) :: Nat.digitChar (b.toNat % 16) :: hexDigits rest := rfl
    have hbyte : UInt8.ofNat (b.toNat / 16) * 16 + UInt8.ofNat (b.toNat % 16) = b := by
      apply UInt8.toNat_inj.mp
      simp only [UInt8.toNat_add, UInt8.toNat_mul, UInt8.toNat_ofNat', UInt8.reduceToNat]
      omega
    rw [hdigits, fromHex, isSpace_digitChar _ hhigh, hexValue_digitChar _ hhigh,
      hexValue_digitChar _ hlow, ih]
    simp [hbyte]

theorem fromHex_prefixedHex (bs : Bytes) : fromHex (withoutPrefix (prefixedHex bs)) = some bs := by
  have hdrop : withoutPrefix (prefixedHex bs) = hexDigits bs := by
    rw [withoutPrefix, toList_prefixedHex]
    rfl
  rw [hdrop, fromHex_hexDigits]

/-- The symbols of the payload of an address. -/
def payload (raw : Bytes) : List Nat := convertBitsPadded (raw.map UInt8.toNat) 8 5

theorem raw_small (raw : Bytes) : ∀ v ∈ raw.map UInt8.toNat, v < 2 ^ 8 := by
  intro v hv
  obtain ⟨b, -, rfl⟩ := List.mem_map.mp hv
  exact b.toNat_lt

/-- Twenty bytes fill 32 symbols and write the same number with them. -/
theorem payload_spec {raw : Bytes} (h : raw.length = 20) :
    (payload raw).length = 32 ∧ (∀ v ∈ payload raw, v < 2 ^ 5) ∧
      value (2 ^ 5) (payload raw) = value (2 ^ 8) (raw.map UInt8.toNat) := by
  have hregrouped := regrouped (by decide : 0 < 5) (raw_small raw)
  have hcount := hregrouped.count
  have hleft := hregrouped.left
  rw [List.length_map, h] at hcount
  have hbits : ((raw.map UInt8.toNat).foldl (pushBits 8 5) {}).bits = 0 := by omega
  have hpayload : payload raw = ((raw.map UInt8.toNat).foldl (pushBits 8 5) {}).output := by
    rw [payload, convertBitsPadded, hbits]
    rfl
  rw [hpayload]
  exact ⟨by omega, hregrouped.grouped.small, hregrouped.value_eq hbits⟩

/-- The text of an address: its payload and the checksum of that. -/
def spelled (raw : Bytes) : String :=
  "one1" ++ String.ofList ((payload raw ++ checksumSymbols (payload raw)).map charsetAt)

theorem toBech32_eq {text : String} {raw : Bytes} (hraw : fromHex (withoutPrefix text) = some raw)
    (hlength : raw.length = 20) : toBech32 text = .ok (spelled raw) := by
  rw [toBech32, hraw]
  simp only [ne_eq, hlength, not_true_eq_false, if_false]
  rfl

/-! ## Texts -/

/-- A text is split at its last separator. -/
theorem splitSeparator_eq {hrp symbols : List Char} (h : '1' ∉ symbols) :
    splitSeparator (hrp ++ '1' :: symbols) = (hrp, symbols) := by
  have hreverse : (hrp ++ '1' :: symbols).reverse = symbols.reverse ++ '1' :: hrp.reverse := by
    rw [List.reverse_append, List.reverse_cons, List.append_assoc, List.singleton_append]
  have hindex : (hrp ++ '1' :: symbols).reverse.idxOf '1' = symbols.length := by
    rw [hreverse, List.idxOf_append_of_notMem (fun hmem => h (List.mem_reverse.mp hmem)),
      List.idxOf_cons_self, List.length_reverse, Nat.add_zero]
  have hseparator : (hrp ++ '1' :: symbols).length - 1 -
      (hrp ++ '1' :: symbols).reverse.idxOf '1' = hrp.length := by
    rw [hindex, List.length_append, List.length_cons]
    omega
  rw [splitSeparator, hseparator, List.take_left, List.drop_append]
  simp

/-- Every text with a separator has a last one. -/
theorem exists_last_separator {value : List Char} (h : '1' ∈ value) :
    ∃ hrp symbols, value = hrp ++ '1' :: symbols ∧ '1' ∉ symbols := by
  obtain ⟨before, after, hreverse, hnot⟩ :=
    List.eq_append_cons_of_mem (List.mem_reverse.mpr h)
  refine ⟨after.reverse, before.reverse, ?_, fun hmem => hnot (List.mem_reverse.mp hmem)⟩
  rw [← List.reverse_reverse value, hreverse, List.reverse_append, List.reverse_cons,
    List.append_assoc, List.singleton_append]

theorem mapM_charsetAt {data : List Nat} (h : ∀ v ∈ data, v < 2 ^ 5) :
    (data.map charsetAt).mapM symbolIndex = .ok data := by
  induction data with
  | nil => rfl
  | cons v rest ih =>
    rw [List.map_cons, List.mapM_cons, symbolIndex_charsetAt (h v List.mem_cons_self),
      ih fun u hu => h u (List.mem_cons_of_mem _ hu)]
    rfl

theorem map_charsetAt_of_mapM {symbols : List Char} {data : List Nat}
    (h : symbols.mapM symbolIndex = .ok data) : data.map charsetAt = symbols := by
  have hall := mapM_ok_iff.mp h
  induction hall with
  | nil => rfl
  | cons hfirst hrest ih =>
    rw [List.map_cons, (charsetAt_symbolIndex hfirst).1, ih (mapM_ok_iff.mpr hrest)]

end BlacklistedAddresses
