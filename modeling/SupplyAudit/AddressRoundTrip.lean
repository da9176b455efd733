import SupplyAudit.BlacklistedAddresses

/-!
# Addresses read back

Every reader maps the text of an address back to it. A text that is accepted is
the text of the address that is read from it exactly when it has one separator
and the length of such a text.
-/

namespace AddressRoundTrip

open ByteWords NumeralText HexText ReceiptKeys ScriptValues FallibleScan DigitGroups
  AddressChecksum AddressCoding BlacklistedAddresses
open TraceInspection (fromHex)
open HarmonyAddress hiding decodeBech32

/-! ## Bytes of a payload -/

/-- The bytes that the readers collect from symbols. -/
def collected (values : List Nat) : BitState := values.foldl (pushBits 5 8) {}

theorem toNat_ofNat_map {digits : List Nat} (h : ∀ d ∈ digits, d < 2 ^ 8) :
    (digits.map UInt8.ofNat).map UInt8.toNat = digits := by
  rw [List.map_map]
  refine (List.map_congr_left fun d hd => ?_).trans (List.map_id digits)
  rw [Function.comp_apply, UInt8.toNat_ofNat', Nat.mod_eq_of_lt (h d hd)]
  rfl

theorem ofNat_toNat_map (raw : Bytes) : (raw.map UInt8.toNat).map UInt8.ofNat = raw := by
  rw [List.map_map]
  refine (List.map_congr_left fun b _ => ?_).trans (List.map_id raw)
  exact UInt8.ofNat_toNat

/-- Thirty-two symbols hold 20 bytes and no padding. -/
theorem collected_spec {values : List Nat} (hlength : values.length = 32)
    (hsmall : ∀ v ∈ values, v < 2 ^ 5) :
    (collected values).bits = 0 ∧ (collected values).output.length = 20 ∧
      value (2 ^ 8) (collected values).output = value (2 ^ 5) values := by
  have hregrouped := regrouped (by decide : 0 < 8) hsmall
  have hcount := hregrouped.count
  have hleft := hregrouped.left
  rw [hlength] at hcount
  have hbits : (collected values).bits = 0 := by
    rw [collected]
    omega
  refine ⟨hbits, ?_, hregrouped.value_eq hbits⟩
  rw [collected]
  omega

/-- Reading the payload of an address gives its bytes. -/
theorem collected_payload {raw : Bytes} (h : raw.length = 20) :
    (collected (payload raw)).bits = 0 ∧
      (collected (payload raw)).output = raw.map UInt8.toNat := by
  obtain ⟨hlength, hsmall, hvalue⟩ := payload_spec h
  obtain ⟨hbits, hbytes, hsame⟩ := collected_spec hlength hsmall
  have hregrouped := regrouped (by decide : 0 < 8) hsmall
  refine ⟨hbits, value_injective (by decide) ?_ hregrouped.grouped.small (raw_small raw)
    (hsame.trans hvalue)⟩
  rw [hbytes, List.length_map, h]

/-- Writing the bytes of 32 symbols gives the symbols. -/
theorem payload_collected {values : List Nat} (hlength : values.length = 32)
    (hsmall : ∀ v ∈ values, v < 2 ^ 5) :
    payload ((collected values).output.map UInt8.ofNat) = values := by
  obtain ⟨-, hbytes, hvalue⟩ := collected_spec hlength hsmall
  have hregrouped := regrouped (by decide : 0 < 8) hsmall
  have hraw : ((collected values).output.map UInt8.ofNat).length = 20 := by
    rw [List.length_map, hbytes]
  obtain ⟨hsymbols, hpayload, hwritten⟩ := payload_spec hraw
  refine value_injective (by decide) (hsymbols.trans hlength.symm) hpayload hsmall ?_
  have hbounded : ∀ d ∈ (collected values).output, d < 2 ^ 8 := hregrouped.grouped.small
  rw [hwritten, toNat_ofNat_map hbounded, hvalue]

/-! ## The text of an address -/

/-- The symbols after the separator. -/
def spelledData (raw : Bytes) : List Nat := payload raw ++ checksumSymbols (payload raw)

theorem spelledData_small {raw : Bytes} (h : raw.length = 20) :
    ∀ v ∈ spelledData raw, v < 2 ^ 5 := by
  intro v hv
  rcases List.mem_append.mp hv with hv | hv
  · exact (payload_spec h).2.1 v hv
  · exact checksumSymbols_lt _ v hv

theorem spelledData_length {raw : Bytes} (h : raw.length = 20) : (spelledData raw).length = 38 := by
  rw [spelledData, List.length_append, (payload_spec h).1, checksumSymbols_length]

theorem toList_spelled (raw : Bytes) :
    (spelled raw).toList = "one".toList ++ '1' :: (spelledData raw).map charsetAt := by
  simp only [spelled, String.toList_append, String.toList_ofList]
  rfl

theorem symbols_plain {data : List Nat} (h : ∀ v ∈ data, v < 2 ^ 5) :
    ∀ c ∈ data.map charsetAt, c.toLower = c ∧ c.toNat < 128 ∧ c ≠ '1' := by
  intro c hc
  obtain ⟨v, hv, rfl⟩ := List.mem_map.mp hc
  exact charset_plain _ (charsetAt_mem (h v hv))

theorem no_separator {data : List Nat} (h : ∀ v ∈ data, v < 2 ^ 5) : '1' ∉ data.map charsetAt :=
  fun hmem => (symbols_plain h '1' hmem).2.2 rfl

theorem lower_spelled (py : PyText) {raw : Bytes} (h : raw.length = 20) :
    py.lower (spelled raw) = spelled raw := by
  have hplain := symbols_plain (spelledData_small h)
  have hone : ∀ c ∈ "one".toList, c.toNat < 128 := by
    have hall : ("one".toList.all fun c => c.toNat < 128) = true := by decide
    intro c hc
    exact of_decide_eq_true (List.all_eq_true.mp hall c hc)
  have hascii : ∀ c ∈ (spelled raw).toList, c.toNat < 128 := by
    rw [toList_spelled]
    intro c hc
    rcases List.mem_append.mp hc with hc | hc
    · exact hone c hc
    · rcases List.mem_cons.mp hc with rfl | hc
      · decide
      · exact (hplain c hc).2.1
  rw [py.lower_ascii _ hascii]
  apply String.toList_inj.mp
  rw [toList_toLower, toList_spelled, List.map_append, List.map_cons]
  have hsymbols : ((spelledData raw).map charsetAt).map Char.toLower =
      (spelledData raw).map charsetAt :=
    (List.map_congr_left fun c hc => (hplain c hc).1).trans (List.map_id _)
  rw [hsymbols]
  rfl

theorem prefix_spelled (raw : Bytes) :
    "one1".toList.isPrefixOf (spelled raw).toList = true := by
  rw [toList_spelled]
  rfl

/-- The reader of the address list returns the address that was written. -/
theorem decode_spelled (py : PyText) {raw : Bytes} (h : raw.length = 20) :
    decodeBech32 py.lower (spelled raw) = .ok (prefixedHex raw) := by
  have hsmall := spelledData_small h
  have hsum : bech32Polymod (hrpExpand "one".toList ++ spelledData raw) = 1 :=
    (polymod_eq_one_iff (checksumSymbols_length _) (checksumSymbols_lt _)).mpr rfl
  have htake : (spelledData raw).take ((spelledData raw).length - 6) = payload raw := by
    rw [spelledData_length h, spelledData]
    exact List.take_left' (payload_spec h).1
  obtain ⟨hbits, hbytes⟩ := collected_payload h
  rw [collected] at hbits hbytes
  have haccepted : ¬ (spelled raw ≠ py.lower (spelled raw) ∨
      ¬ "one1".toList.isPrefixOf (spelled raw).toList = true) := by
    rw [lower_spelled py h, prefix_spelled]
    simp
  rw [decodeBech32, if_neg haccepted, toList_spelled, splitSeparator_eq (no_separator hsmall)]
  simp only [mapM_charsetAt hsmall, hsum, ne_eq, not_true_eq_false, if_false, htake, hbits, hbytes,
    false_and, List.length_map, h, ofNat_toNat_map]

/-! ## Round trips -/

/-- The readers accept a text with one result, or all refuse it. -/
structure ReadersAgree (lower : String → String) (value : String) : Prop where
  source : (decodeBech32 lower value).toOption = (decodeAddress lower (some value)).toOption
  flow : (decodeBech32 lower value).toOption = (exportDecodeAddress lower (some value)).toOption
  staking : (decodeBech32 lower value).toOption = (stakingDecodeAddress lower value).toOption

theorem spelled_readers_agree (lower : String → String) {value : String}
    (h : "one1".toList.isPrefixOf value.toList = true) : ReadersAgree lower value := by
  have hsource := decode_agree lower h
  have hnot : ¬ "0x".toList.isPrefixOf value.toList = true := by
    obtain ⟨rest, hrest⟩ := List.isPrefixOf_iff_prefix.mp h
    rw [← hrest]
    simp
  constructor
  case source => exact hsource
  case flow =>
    have hsome : value ≠ "" := by
      rintro rfl
      cases h
    rw [exportDecodeAddress, if_neg hsome]
    exact hsource
  case staking =>
    rw [hsource, decodeAddress, if_neg hnot, stakingDecodeAddress]

theorem ok_of_toOption {ε α : Type} {r : Except ε α} {a : α} (h : r.toOption = some a) :
    r = .ok a := by
  cases r with
  | error err => cases h
  | ok b =>
    cases h
    rfl

/-- Every reader maps a text to an address. -/
structure ReadsAs (lower : String → String) (value address : String) : Prop where
  listed : decodeBech32 lower value = .ok address
  source : decodeAddress lower (some value) = .ok address
  flow : exportDecodeAddress lower (some value) = .ok address
  staking : stakingDecodeAddress lower value = .ok address

theorem ReadersAgree.readsAs {lower : String → String} {value address : String}
    (h : ReadersAgree lower value) (hlisted : decodeBech32 lower value = .ok address) :
    ReadsAs lower value address := by
  have hoption : (decodeBech32 lower value).toOption = some address := by
    rw [hlisted]
    rfl
  exact ⟨hlisted, ok_of_toOption (h.source.symm.trans hoption),
    ok_of_toOption (h.flow.symm.trans hoption), ok_of_toOption (h.staking.symm.trans hoption)⟩

/-- Decoding undoes encoding, whatever case the hexadecimal digits have, and the
decoders agree on every bech32 text. -/
theorem bech32_round_trip (py : PyText) :
    (∀ address : Address, fromHex (withoutPrefix (prefixedHex address.data)) = some address.data) ∧
    (∀ (address : Address) (text : String),
      fromHex (withoutPrefix text) = some address.data →
        ∃ encoded, toBech32 text = .ok encoded ∧
          ReadsAs py.lower encoded (prefixedHex address.data)) ∧
    ∀ value : String, "one1".toList.isPrefixOf value.toList = true →
      ReadersAgree py.lower value := by
  refine ⟨fun address => fromHex_prefixedHex address.data, ?_, fun value h =>
    spelled_readers_agree py.lower h⟩
  intro address text htext
  exact ⟨spelled address.data, toBech32_eq htext address.size,
    (spelled_readers_agree py.lower (prefix_spelled address.data)).readsAs
      (decode_spelled py address.size)⟩

end AddressRoundTrip
