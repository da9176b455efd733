import SupplyAudit.AddressRoundTrip

/-!
# Accepted spellings

A reader splits a text at its last separator and checks neither the part before
it nor how many zero bits follow the bytes. So an accepted text is the spelling
of its address when it has one separator and the length of a spelling. One or
two wrong characters never make an accepted text.
-/

namespace AddressSpellings

open ByteWords NumeralText ReceiptKeys ScriptValues FallibleScan DigitGroups AddressChecksum
  AddressCoding BlacklistedAddresses AddressRoundTrip
open HarmonyAddress hiding decodeBech32

variable {lower : String → String} {value address : String}

/-! ## Accepted texts -/

/-- What the reader of the address list has found in a text that it accepts. -/
structure Accepted (value address : String) (hrp : List Char) (data : List Nat) : Prop where
  symbols : value.toList = hrp ++ '1' :: data.map charsetAt
  small : ∀ v ∈ data, v < 2 ^ 5
  start : "one1".toList.isPrefixOf value.toList = true
  checksum : bech32Polymod (hrpExpand hrp ++ data) = 1
  bytes : (collected (data.take (data.length - 6))).output.length = 20
  address : address =
    prefixedHex ((collected (data.take (data.length - 6))).output.map UInt8.ofNat)

theorem separator_of_start (h : "one1".toList.isPrefixOf value.toList = true) :
    '1' ∈ value.toList := by
  obtain ⟨rest, hrest⟩ := List.isPrefixOf_iff_prefix.mp h
  rw [← hrest]
  simp

theorem accepted_of_ok (h : decodeBech32 lower value = .ok address) :
    ∃ hrp data, Accepted value address hrp data := by
  rw [decodeBech32] at h
  split at h
  · cases h
  rename_i hstart
  rw [not_or, not_not, not_not] at hstart
  obtain ⟨hrp, symbols, hvalue, hlast⟩ := exists_last_separator (separator_of_start hstart.2)
  rw [hvalue, splitSeparator_eq hlast] at h
  simp only at h
  split at h
  · cases h
  rename_i data hdata
  split at h
  · cases h
  rename_i hsum
  split at h
  · cases h
  split at h
  · cases h
  rename_i hbytes
  cases h
  refine ⟨hrp, data, ?_, symbols_small hdata, hstart.2, not_not.mp hsum, not_not.mp hbytes, rfl⟩
  rw [map_charsetAt_of_mapM hdata]
  exact hvalue

/-- Twenty bytes need 32 payload symbols, or 33 of which the last is padding. -/
theorem Accepted.length {hrp : List Char} {data : List Nat} (h : Accepted value address hrp data) :
    data.length = 38 ∨ data.length = 39 := by
  have hsmall : ∀ v ∈ data.take (data.length - 6), v < 2 ^ 5 :=
    fun v hv => h.small v (List.mem_of_mem_take hv)
  have hregrouped := regrouped (by decide : 0 < 8) hsmall
  have hcount := hregrouped.count
  have hleft := hregrouped.left
  have hbytes := h.bytes
  rw [collected] at hbytes
  rw [hbytes, List.length_take] at hcount
  omega

/-! ## Exact spellings -/

/-- One separator, and the length of a spelling. -/
def Canonical (value : String) : Prop := value.toList.count '1' = 1 ∧ value.toList.length = 42

instance (value : String) : Decidable (Canonical value) := inferInstanceAs (Decidable (_ ∧ _))

theorem canonical_spelled {raw : Bytes} (h : raw.length = 20) : Canonical (spelled raw) := by
  have hnone := List.count_eq_zero_of_not_mem (no_separator (spelledData_small h))
  have hlength := spelledData_length h
  rw [Canonical, toList_spelled, List.count_append, List.count_cons_self, hnone, List.length_append,
    List.length_cons, List.length_map, hlength]
  decide

/-- Without a further separator, the part before it is the one that is written. -/
theorem Accepted.split_of_canonical {hrp : List Char} {data : List Nat}
    (h : Accepted value address hrp data) (hcanonical : Canonical value) :
    hrp = "one".toList ∧ data.length = 38 := by
  obtain ⟨hcount, hlength⟩ := hcanonical
  obtain ⟨rest, hrest⟩ := List.isPrefixOf_iff_prefix.mp h.start
  have hnone : '1' ∉ hrp := by
    rw [h.symbols, List.count_append, List.count_cons_self] at hcount
    exact List.count_eq_zero.mp (by omega)
  have hsame : hrp ++ '1' :: data.map charsetAt = "one".toList ++ '1' :: rest := by
    rw [← h.symbols, ← hrest]
    rfl
  have hhrp : hrp = "one".toList :=
    ((List.append_cons_inj_of_notMem hnone (no_separator h.small)).mp hsame).1
  refine ⟨hhrp, ?_⟩
  rw [h.symbols, hhrp, List.length_append, List.length_cons, List.length_map] at hlength
  have hthree : "one".toList.length = 3 := by decide
  omega

theorem Accepted.spelled_of_canonical {hrp : List Char} {data : List Nat}
    (h : Accepted value address hrp data) (hcanonical : Canonical value) :
    toBech32 address = .ok value := by
  obtain ⟨hhrp, hlength⟩ := h.split_of_canonical hcanonical
  have htake : data.take (data.length - 6) = data.take 32 := by rw [hlength]
  have hpayload : (data.take 32).length = 32 := by
    rw [List.length_take, hlength]
    decide
  have hchecksum : (data.drop 32).length = 6 := by rw [List.length_drop, hlength]
  have hsmall : ∀ v ∈ data.take 32, v < 2 ^ 5 := fun v hv => h.small v (List.mem_of_mem_take hv)
  have hsum := h.checksum
  rw [hhrp, ← List.take_append_drop 32 data, polymod_eq_one_iff hchecksum
    fun v hv => h.small v (List.mem_of_mem_drop hv)] at hsum
  have hbytes := h.bytes
  have haddress := h.address
  rw [htake] at hbytes haddress
  have hraw : ((collected (data.take 32)).output.map UInt8.ofNat).length = 20 := by
    rw [List.length_map, hbytes]
  have hdata : spelledData ((collected (data.take 32)).output.map UInt8.ofNat) = data := by
    rw [spelledData, payload_collected hpayload hsmall, ← hsum, List.take_append_drop]
  rw [haddress, toBech32_eq (fromHex_prefixedHex _) hraw]
  congr 1
  apply String.toList_inj.mp
  rw [toList_spelled, hdata, h.symbols, hhrp]

/-- The address-list reader, or a forensic reader of a bech32 text, accepts it. -/
def Reads (lower : String → String) (value address : String) : Prop :=
  decodeBech32 lower value = .ok address ∨
    "one1".toList.isPrefixOf value.toList = true ∧ decodeAddress lower (some value) = .ok address

theorem accepted_of_reads (h : Reads lower value address) :
    ∃ hrp data, Accepted value address hrp data := by
  rcases h with h | ⟨hstart, h⟩
  · exact accepted_of_ok h
  · have hoption : (decodeBech32 lower value).toOption = some address := by
      rw [decode_agree lower hstart, h]
      rfl
    exact accepted_of_ok (ok_of_toOption hoption)

/-- What is read from a text, against how it is written. -/
structure Spelling (lower : String → String) (value address : String) : Prop where
  exact : toBech32 address = .ok value ↔ Canonical value
  split : Canonical value ↔ ∃ symbols : List Char, symbols.length = 32 + 6 ∧
    splitSeparator value.toList = ("one".toList, symbols)
  unique : Canonical value → ∀ other, Canonical other → Reads lower other address → other = value

/-- An accepted text is what the writer makes of its address exactly when it has
one separator and 42 characters. -/
theorem accepted_spelling (h : Reads lower value address) : Spelling lower value address := by
  obtain ⟨hrp, data, haccepted⟩ := accepted_of_reads h
  constructor
  case exact =>
    refine ⟨fun hwritten => ?_, haccepted.spelled_of_canonical⟩
    have hraw : ((collected (data.take (data.length - 6))).output.map UInt8.ofNat).length = 20 := by
      rw [List.length_map, haccepted.bytes]
    rw [haccepted.address, toBech32_eq (fromHex_prefixedHex _) hraw] at hwritten
    cases hwritten
    exact canonical_spelled hraw
  case split =>
    have hnone := no_separator haccepted.small
    constructor
    · intro hcanonical
      obtain ⟨hhrp, hlength⟩ := haccepted.split_of_canonical hcanonical
      refine ⟨data.map charsetAt, by rw [List.length_map, hlength], ?_⟩
      rw [haccepted.symbols, splitSeparator_eq hnone, hhrp]
    · rintro ⟨symbols, hlength, hsplit⟩
      rw [haccepted.symbols, splitSeparator_eq hnone, Prod.mk.injEq] at hsplit
      obtain ⟨rfl, rfl⟩ := hsplit
      rw [Canonical, haccepted.symbols, List.count_append, List.count_cons_self,
        List.count_eq_zero_of_not_mem hnone, List.length_append, List.length_cons, hlength]
      decide
  case unique =>
    intro hcanonical other hother hreads
    obtain ⟨hrp', data', haccepted'⟩ := accepted_of_reads hreads
    have hwritten := haccepted'.spelled_of_canonical hother
    exact Except.ok.inj (hwritten.symm.trans (haccepted.spelled_of_canonical hcanonical))

/-- The zero address, as it is written. -/
theorem accepted_spelling_zero :
    Spelling PyText.ascii.lower "one1qqqqqqqqqqqqqqqqqqqqqqqqqqqqqqqquzw7vz"
      "0x0000000000000000000000000000000000000000" :=
  accepted_spelling (.inl (by decide +kernel))

/-- The zero address with one more padding symbol, and with a longer first part. -/
theorem other_spellings_of_zero :
    toBech32 "0x0000000000000000000000000000000000000000" =
        .ok "one1qqqqqqqqqqqqqqqqqqqqqqqqqqqqqqqquzw7vz" ∧
      decodeBech32 PyText.ascii.lower "one1qqqqqqqqqqqqqqqqqqqqqqqqqqqqqqqqqx3s784" =
        .ok "0x0000000000000000000000000000000000000000" ∧
      decodeAddress PyText.ascii.lower (some "one1qqqqqqqqqqqqqqqqqqqqqqqqqqqqqqqqqx3s784") =
        .ok "0x0000000000000000000000000000000000000000" ∧
      decodeBech32 PyText.ascii.lower "one1q1qqqqqqqqqqqqqqqqqqqqqqqqqqqqqqqqkqx8hz" =
        .ok "0x0000000000000000000000000000000000000000" ∧
      decodeAddress PyText.ascii.lower (some "one1q1qqqqqqqqqqqqqqqqqqqqqqqqqqqqqqqqkqx8hz") =
        .ok "0x0000000000000000000000000000000000000000" := by
  decide +kernel

/-! ## Wrong characters -/

/-- The positions at which two texts differ. -/
def wrongCharacters (value other : String) : Nat :=
  (value.toList.zip other.toList).countP fun p => p.1 ≠ p.2

/-- The last separator is not before the one of the prefix. -/
theorem three_le_of_prefix {hrp symbols rest : List Char}
    (h : hrp ++ '1' :: symbols = "one1".toList ++ rest) (hnone : '1' ∉ symbols) :
    3 ≤ hrp.length := by
  by_contra hshort
  have hsymbols : symbols = ("one1".toList ++ rest).drop (hrp.length + 1) := by
    rw [← h]
    simp
  have hcases : hrp.length + 1 = 1 ∨ hrp.length + 1 = 2 ∨ hrp.length + 1 = 3 := by omega
  apply hnone
  rw [hsymbols]
  rcases hcases with hk | hk | hk <;> rw [hk] <;> simp

/-- A text of the length of a spelling is only accepted with the first part `one`. -/
theorem Accepted.split_of_length {hrp : List Char} {data : List Nat}
    (h : Accepted value address hrp data) (hlength : value.toList.length = 42) :
    hrp = "one".toList ∧ data.length = 38 := by
  obtain ⟨rest, hrest⟩ := List.isPrefixOf_iff_prefix.mp h.start
  have hsame : hrp ++ '1' :: data.map charsetAt = "one1".toList ++ rest := by
    rw [← h.symbols, hrest]
  have hthree := three_le_of_prefix hsame (no_separator h.small)
  rw [h.symbols, List.length_append, List.length_cons, List.length_map] at hlength
  have hdata : data.length = 38 := by
    rcases h.length with hdata | hdata
    · exact hdata
    · omega
  have hhrp : hrp.length = 3 := by omega
  refine ⟨?_, hdata⟩
  have htake := congrArg (List.take 3) hsame
  rw [List.take_left' hhrp] at htake
  exact htake

theorem charsetAt_injective {u v : Nat} (hu : u < 2 ^ 5) (hv : v < 2 ^ 5)
    (h : charsetAt u = charsetAt v) : u = v := by
  have hread := symbolIndex_charsetAt hu
  rw [h, symbolIndex_charsetAt hv] at hread
  exact (Except.ok.inj hread).symm

theorem wrong_symbols {xs ys : List Nat} (hxs : ∀ v ∈ xs, v < 2 ^ 5) (hys : ∀ v ∈ ys, v < 2 ^ 5) :
    ((xs.map charsetAt).zip (ys.map charsetAt)).countP (fun p => p.1 ≠ p.2) =
      (xs.zip ys).countP fun p => p.1 ≠ p.2 := by
  rw [List.zip_map, List.countP_map]
  apply List.countP_congr
  intro p hp
  obtain ⟨hleft, hright⟩ := List.of_mem_zip hp
  have hiff : charsetAt p.1 = charsetAt p.2 ↔ p.1 = p.2 :=
    ⟨charsetAt_injective (hxs _ hleft) (hys _ hright), congrArg charsetAt⟩
  simp [hiff]

/-- One or two wrong characters, wherever they are, make a text that is refused. -/
theorem mistyped_rejected (py : PyText) (address : Address) {value other : String}
    (hwritten : toBech32 (prefixedHex address.data) = .ok value)
    (hlength : other.toList.length = value.toList.length)
    (hwrong : wrongCharacters value other = 1 ∨ wrongCharacters value other = 2) :
    ∃ err, decodeBech32 py.lower other = .error err := by
  rw [toBech32_eq (fromHex_prefixedHex _) address.size] at hwritten
  cases hwritten
  cases hread : decodeBech32 py.lower other with
  | error err => exact ⟨err, rfl⟩
  | ok found =>
    exfalso
    obtain ⟨hrp, data, haccepted⟩ := accepted_of_ok hread
    obtain ⟨hhrp, hdata⟩ :=
      haccepted.split_of_length (hlength.trans (canonical_spelled address.size).2)
    have hsmall := spelledData_small address.size
    have hsum : bech32Polymod (hrpExpand "one".toList ++ spelledData address.data) = 1 :=
      (polymod_eq_one_iff (checksumSymbols_length _) (checksumSymbols_lt _)).mpr rfl
    have hcount : wrongCharacters (spelled address.data) other =
        ((spelledData address.data).zip data).countP fun p => p.1 ≠ p.2 := by
      rw [wrongCharacters, toList_spelled, haccepted.symbols, hhrp,
        ← wrong_symbols hsmall haccepted.small]
      rfl
    rw [hcount] at hwrong
    have hchecksum := haccepted.checksum
    rw [hhrp] at hchecksum
    exact polymod_ne_of_few_errors (spelledData_length address.size) hdata hsmall haccepted.small
      (by omega) (by omega) (hsum.trans hchecksum.symm)

/-- A separator and a wrong symbol in the text of the zero address. -/
theorem mistyped_rejected_zero : ∃ err, decodeBech32 PyText.ascii.lower
    "one1qq1qqqqqqqqqqqqqqqqqqqqqqqqqqqqpuzw7vz" = .error err := by
  have hwritten : toBech32 (prefixedHex (.zero 20 : Address).data) =
      .ok "one1qqqqqqqqqqqqqqqqqqqqqqqqqqqqqqqquzw7vz" := by decide +kernel
  exact mistyped_rejected PyText.ascii (.zero 20) hwritten (by decide +kernel) (by decide +kernel)

end AddressSpellings
