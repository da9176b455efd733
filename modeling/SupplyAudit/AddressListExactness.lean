import SupplyAudit.AddressListAudit
import SupplyAudit.KeyedTable

/-!
# The audited list and its claims

The specification is a nested loop: each distinct address of the list, in the order of
first occurrence, with the amounts of the claims row that names it or none. The script
scans the claims once and computes the same, unless no row names a listed address.
-/

namespace AddressListExactness

open ByteWords NumeralText HexText ScriptValues FallibleScan AuditFiles DistinctListings
open AddressListAudit
open BlacklistedAddresses (decodeBech32 spelled)
open AddressRoundTrip (decode_spelled)

variable (py : ListText)

/-! ## The specification -/

/-- The address that a row of the claims names. -/
def addressOf (row : Row) : String :=
  match lowerField py.toPyText row "address" with
  | .ok address => address
  | .error _ => ""

/-- The claims row of an address. -/
def claimRow (rows : List Row) (hex : String) : Option Row :=
  rows.find? fun row => addressOf py row == hex

def rowAmount (row : Row) (component : String) : Int :=
  match intField py.toPyText row (component ++ "_atto") with
  | .ok value => value
  | .error _ => 0

/-- The amount of a claim, or zero where there is none. -/
def amountOf (claim : Option Row) (component : String) : Int :=
  claim.elim 0 fun row => rowAmount py row component

def textOf (claim : Option Row) (field : String) : Option String :=
  claim.elim (some "") fun row => (row.lookup field).getD none

/-- Every field is there, and the two columns of each component match. -/
structure Complete (shard0 shard1 : Int) (row : Row) : Prop where
  address : ∃ text, row.lookup "address" = some (some text)
  shard0 : intField py.toPyText row "claims_shard0_block" = .ok shard0
  shard1 : intField py.toPyText row "claims_shard1_block" = .ok shard1
  texts : ∀ field ∈ claimFields, ∃ text, row.lookup field = some (some text)
  amounts : ∀ component ∈ components, ∃ value,
    intField py.toPyText row (component ++ "_atto") = .ok value ∧
      row.lookup (component ++ "_one") = some (some (one value))

/-- A claims file with one cutoff and at most one row for each address of 20 bytes. -/
structure WellFormed (inputs : Inputs) (shard0 shard1 : Int) : Prop where
  fields : ∀ field ∈ required, field ∈ inputs.fieldnames
  rows : ∀ row ∈ inputs.rows, Complete py shard0 shard1 row
  single : ∀ raw : Bytes, raw.length = 20 → inputs.rows.Pairwise fun row row' =>
    ¬ (addressOf py row = prefixedHex raw ∧ addressOf py row' = prefixedHex raw)

/-- A text that writes an address of 20 bytes. -/
def ValidAddress (text : String) : Prop := ∃ raw : Bytes, raw.length = 20 ∧ text = spelled raw

/-- The row of the output for an address. -/
structure ExactRow (inputs : Inputs) (raw : Bytes) (row : AuditRow) : Prop where
  address : row.addressBech32 = spelled raw
  hex : row.addressHex = prefixedHex raw
  duplicates : row.duplicateCountInInput = (inputAddresses py inputs.lines).count (spelled raw)
  found : row.cutoffRowPresent =
    if (claimRow py inputs.rows (prefixedHex raw)).isSome then "true" else "false"
  amounts : row.components = components.map fun component =>
    (component, componentCells
      (amountOf py (claimRow py inputs.rows (prefixedHex raw)) component))
  texts : [row.secureKey, row.nonceShard0, row.nonceShard1, row.codeHashShard0,
      row.codeHashShard1] =
    ["secure_key", "nonce_shard0", "nonce_shard1", "code_hash_shard0", "code_hash_shard1"].map
      (textOf (claimRow py inputs.rows (prefixedHex raw)))

/-- The sum of a component over the rows. -/
def totalOf (inputs : Inputs) (rows : List AuditRow) (component : String) : Int :=
  (rows.map fun row => amountOf py (claimRow py inputs.rows row.addressHex) component).sum

/-- Each distinct address once, in the order of first occurrence, with its claim, and the
totals over the distinct addresses. -/
structure Exact (inputs : Inputs) (shard0 shard1 : Int) (output : Output) : Prop where
  listed : ∀ text, text ∈ output.rows.map AuditRow.addressBech32 ↔
    text ∈ inputAddresses py inputs.lines
  ordered : (output.rows.map AuditRow.addressBech32).Pairwise fun a b =>
    (inputAddresses py inputs.lines).idxOf a < (inputAddresses py inputs.lines).idxOf b
  numbered : output.rows.map AuditRow.inputOrder = List.range' 1 output.rows.length
  rows : ∀ row ∈ output.rows, ∃ raw : Bytes, raw.length = 20 ∧ ExactRow py inputs raw row
  totalsAtto : output.summary.componentTotalsAtto = components.map fun component =>
    (component, toString (totalOf py inputs output.rows component))
  totalsOne : output.summary.componentTotalsOne = components.map fun component =>
    (component, one (totalOf py inputs output.rows component))
  cutoff : output.summary.cutoff = (shard0, shard1)
  status : output.summary.status = "passed"

/-! ## The list -/

/-- The hexadecimal text of a listed address. -/
def hexOf (text : String) : String :=
  match decodeBech32 py.lower text with
  | .ok hex => hex
  | .error _ => ""

theorem hexOf_spelled {raw : Bytes} (h : raw.length = 20) :
    hexOf py (spelled raw) = prefixedHex raw := by
  rw [hexOf, decode_spelled py.toPyText h]

theorem decodeEntry_valid {text : String} (h : ValidAddress text) :
    decodeEntry py text = .ok (text, hexOf py text) := by
  obtain ⟨raw, hraw, rfl⟩ := h
  rw [decodeEntry, decode_spelled py.toPyText hraw, hexOf_spelled py hraw]
  rfl

theorem hexOf_injective {text text' : String} (h : ValidAddress text) (h' : ValidAddress text')
    (heq : hexOf py text = hexOf py text') : text = text' := by
  obtain ⟨raw, hraw, rfl⟩ := h
  obtain ⟨raw', hraw', rfl⟩ := h'
  rw [hexOf_spelled py hraw, hexOf_spelled py hraw'] at heq
  rw [prefixedHex_injective (hraw.trans hraw'.symm) heq]

/-- Distinct valid texts are decoded, and to distinct addresses. -/
theorem decodeList_valid {unique : List String} (hnodup : unique.Nodup)
    (hvalid : ∀ text ∈ unique, ValidAddress text) :
    decodeList py unique = .ok (unique.map fun text => (text, hexOf py text)) := by
  have hdecoded : unique.mapM (decodeEntry py) =
      .ok (unique.map fun text => (text, hexOf py text)) :=
    mapM_ok_of fun text htext => decodeEntry_valid py (hvalid text htext)
  have hdistinct : (unique.map (hexOf py)).Nodup :=
    hnodup.map_on fun text htext text' htext' heq =>
      hexOf_injective py (hvalid text htext) (hvalid text' htext') heq
  have hvalues : (unique.map fun text => (text, hexOf py text)).map Prod.snd =
      unique.map (hexOf py) := by
    rw [List.map_map]
    rfl
  rw [decodeList, hdecoded, bind_ok, hvalues, List.dedup_eq_self.mpr hdistinct, List.length_map,
    List.length_map, require_of rfl, bind_ok]

theorem checkFields_ok {fieldnames : List String} (h : ∀ field ∈ required, field ∈ fieldnames) :
    checkFields fieldnames = .ok () := by
  apply require_of
  rw [List.filter_eq_nil_iff]
  intro field hfield hmissing
  exact of_decide_eq_true hmissing (h field hfield)

/-! ## The scan of the claims -/

variable {py : ListText} {shard0 shard1 : Int}

theorem Complete.named {row : Row} (h : Complete py shard0 shard1 row) :
    lowerField py.toPyText row "address" = .ok (addressOf py row) := by
  obtain ⟨text, htext⟩ := h.address
  have hlower : lowerField py.toPyText row "address" = .ok (py.lower text) :=
    lowerField_ok.mpr ⟨text, htext, rfl⟩
  rw [addressOf, hlower]

/-- The rows of listed addresses. -/
def matched (py : ListText) (listed : List String) (rows : List Row) : List Row :=
  rows.filter fun row => addressOf py row ∈ listed

theorem matched_cons_listed {listed : List String} {row : Row} (h : addressOf py row ∈ listed)
    (rows : List Row) : matched py listed (row :: rows) = row :: matched py listed rows :=
  List.filter_cons_of_pos (decide_eq_true h)

theorem matched_cons_other {listed : List String} {row : Row} (h : addressOf py row ∉ listed)
    (rows : List Row) : matched py listed (row :: rows) = matched py listed rows :=
  List.filter_cons_of_neg (by simpa using h)

theorem matched_append (listed : List String) (rows rows' : List Row) :
    matched py listed (rows ++ rows') = matched py listed rows ++ matched py listed rows' :=
  List.filter_append _ _

def scanned (py : ListText) (shard0 shard1 : Int) (listed : List String) (rows : List Row) :
    Scan where
  found := (matched py listed rows).map fun row => (addressOf py row, row)
  cutoffPairs := if matched py listed rows = [] then [] else [(shard0, shard1)]

theorem scanRow_other {listed : List String} {row : Row} (hrow : Complete py shard0 shard1 row)
    (hother : addressOf py row ∉ listed) (st : Scan) : scanRow py listed st row = .ok st := by
  rw [scanRow, hrow.named, bind_ok, if_pos hother]

theorem scanRow_listed {listed : List String} {row : Row} (hrow : Complete py shard0 shard1 row)
    (hlisted : addressOf py row ∈ listed) {st : Scan}
    (hnew : st.found.lookup (addressOf py row) = none) :
    scanRow py listed st row = .ok
      { found := st.found ++ [(addressOf py row, row)]
        cutoffPairs := addPair st.cutoffPairs (shard0, shard1) } := by
  have hfresh : (st.found.lookup (addressOf py row)).isNone = true := by
    rw [hnew]
    rfl
  rw [scanRow, hrow.named, bind_ok, if_neg (not_not.mpr hlisted), require_of hfresh, bind_ok,
    hrow.shard0, bind_ok, hrow.shard1, bind_ok]

/-- The scan keeps the rows of listed addresses, and the cutoff if there are any. -/
theorem scan_rows {listed : List String} {rows : List Row}
    (hrows : ∀ row ∈ rows, Complete py shard0 shard1 row)
    (hsingle : ∀ hex ∈ listed, rows.Pairwise fun row row' =>
      ¬ (addressOf py row = hex ∧ addressOf py row' = hex)) :
    rows.foldlM (scanRow py listed) {} = .ok (scanned py shard0 shard1 listed rows) := by
  induction rows using List.reverseRecOn with
  | nil => rfl
  | append_singleton rows row ih =>
    have hbefore := ih (fun r hr => hrows r (List.mem_append_left [row] hr))
      (fun hex hhex => (List.pairwise_append.mp (hsingle hex hhex)).1)
    have hrow := hrows row (List.mem_append_right rows List.mem_cons_self)
    rw [List.foldlM_append, hbefore, bind_ok, List.foldlM_cons]
    by_cases hlisted : addressOf py row ∈ listed
    · have hnew : (scanned py shard0 shard1 listed rows).found.lookup (addressOf py row) = none := by
        rw [KeyedTable.lookup_eq_none_iff, scanned, List.map_map]
        intro hmem
        obtain ⟨earlier, hearlier, heq⟩ := List.mem_map.mp hmem
        have happart := (List.pairwise_append.mp (hsingle _ hlisted)).2.2 earlier
          (List.mem_filter.mp hearlier).1 row List.mem_cons_self
        exact happart ⟨heq, rfl⟩
      have hmatched : matched py listed (rows ++ [row]) = matched py listed rows ++ [row] := by
        rw [matched_append, matched_cons_listed hlisted]
        rfl
      have hpair : addPair (scanned py shard0 shard1 listed rows).cutoffPairs (shard0, shard1) =
          [(shard0, shard1)] := by
        rw [scanned]
        by_cases hnone : matched py listed rows = []
        · rw [if_pos hnone]
          rfl
        · rw [if_neg hnone, addPair, if_pos List.mem_cons_self]
      have hsome : matched py listed rows ++ [row] ≠ [] :=
        List.append_ne_nil_of_right_ne_nil _ (List.cons_ne_nil _ _)
      have hresult : scanned py shard0 shard1 listed (rows ++ [row]) =
          { found := (scanned py shard0 shard1 listed rows).found ++ [(addressOf py row, row)]
            cutoffPairs := [(shard0, shard1)] } := by
        rw [scanned, scanned, hmatched, if_neg hsome, List.map_append]
        rfl
      rw [scanRow_listed hrow hlisted hnew, bind_ok, hpair, hresult]
      rfl
    · have hmatched : matched py listed (rows ++ [row]) = matched py listed rows := by
        rw [matched_append, matched_cons_other hlisted]
        exact List.append_nil _
      rw [scanRow_other hrow hlisted, bind_ok, scanned, scanned, hmatched]
      rfl

/-- What is found for a listed address is its row of the claims. -/
theorem lookup_found {listed : List String} {hex : String} (h : hex ∈ listed) (rows : List Row) :
    (scanned py shard0 shard1 listed rows).found.lookup hex = claimRow py rows hex := by
  rw [scanned]
  induction rows with
  | nil => rfl
  | cons row rows ih =>
    rw [claimRow, List.find?_cons]
    by_cases hrow : addressOf py row = hex
    · rw [matched_cons_listed (hrow ▸ h), List.map_cons, hrow, KeyedTable.lookup_cons_self,
        beq_self_eq_true]
    · rw [beq_false_of_ne hrow]
      by_cases hlisted : addressOf py row ∈ listed
      · rw [matched_cons_listed hlisted, List.map_cons,
          KeyedTable.lookup_cons_of_ne (Ne.symm hrow)]
        exact ih
      · rw [matched_cons_other hlisted]
        exact ih

/-! ## The rows -/

theorem claimCell_complete {claim : Option Row} (h : ∀ row ∈ claim, Complete py shard0 shard1 row)
    {field : String} (hfield : field ∈ claimFields) :
    claimCell claim field = .ok (textOf claim field) := by
  cases claim with
  | none => rfl
  | some row =>
    obtain ⟨text, htext⟩ := (h row rfl).texts field hfield
    rw [claimCell, textOf, Option.elim_some, Row.get, htext]
    rfl

theorem componentValue_complete {claim : Option Row}
    (h : ∀ row ∈ claim, Complete py shard0 shard1 row) (address : String) {component : String}
    (hcomponent : component ∈ components) :
    componentValue py claim address component = .ok (amountOf py claim component) := by
  cases claim with
  | none => rfl
  | some row =>
    obtain ⟨value, hvalue, hone⟩ := (h row rfl).amounts component hcomponent
    have hwritten : raisePython (row.get (component ++ "_one")) = .ok (some (one value)) := by
      rw [Row.get, hone]
      rfl
    have hamount : amountOf py (some row) component = value := by
      rw [amountOf, Option.elim_some, rowAmount, hvalue]
    rw [componentValue, hvalue, bind_ok, hwritten, bind_ok, require_of rfl, bind_ok, hamount]

/-- The row of a claim, whatever the tables say of the text. -/
def claimRowOf (py : ListText) (claim : Option Row) (hex : String) (count : Nat)
    (numbered : String × Nat) : AuditRow where
  inputOrder := numbered.2
  addressBech32 := numbered.1
  addressHex := hex
  duplicateCountInInput := count
  cutoffRowPresent := if claim.isSome then "true" else "false"
  secureKey := textOf claim "secure_key"
  components := components.map fun component =>
    (component, componentCells (amountOf py claim component))
  nonceShard0 := textOf claim "nonce_shard0"
  nonceShard1 := textOf claim "nonce_shard1"
  codeHashShard0 := textOf claim "code_hash_shard0"
  codeHashShard1 := textOf claim "code_hash_shard1"
  migrationAction := "not_set_by_balance_audit"

theorem auditAddress_complete {counts : List (String × Nat)} {addressHex : List (String × String)}
    {found : List (String × Row)} {numbered : String × Nat} {hex : String}
    (hhex : addressHex.lookup numbered.1 = some hex)
    (h : ∀ row ∈ found.lookup hex, Complete py shard0 shard1 row) :
    auditAddress py counts addressHex found numbered = .ok
      (claimRowOf py (found.lookup hex) hex ((counts.lookup numbered.1).getD 0) numbered,
        components.map fun component => (component, amountOf py (found.lookup hex) component)) := by
  have hentry : entryOf addressHex numbered.1 = .ok hex := by rw [entryOf, hhex]
  have hamounts : components.mapM (fun component => do
      let value ← componentValue py (found.lookup hex) numbered.1 component
      .ok (component, value)) =
      .ok (components.map fun component =>
        (component, amountOf py (found.lookup hex) component)) := by
    apply mapM_ok_of
    intro component hcomponent
    rw [componentValue_complete h numbered.1 hcomponent, bind_ok]
  have hcells : ∀ field ∈ claimFields,
      claimCell (found.lookup hex) field = .ok (textOf (found.lookup hex) field) :=
    fun field hfield => claimCell_complete h hfield
  simp only [auditAddress, hentry, bind_ok, hcells "secure_key" (by decide),
    hcells "nonce_shard0" (by decide), hcells "nonce_shard1" (by decide),
    hcells "code_hash_shard0" (by decide), hcells "code_hash_shard1" (by decide), hamounts,
    List.map_map]
  rfl

/-! ## The totals -/

theorem rows_recorded (audited : List (AuditRow × List (String × Int))) :
    (audited.foldl record {}).rows = audited.map Prod.fst := by
  induction audited using List.reverseRecOn with
  | nil => rfl
  | append_singleton audited last ih =>
    rw [List.foldl_append, List.foldl_cons, List.foldl_nil, record, ih, List.map_append]
    rfl

/-- Every component ends with the sum of its amounts. -/
theorem totals_recorded (audited : List (AuditRow × List (String × Int))) :
    (audited.foldl record {}).totals = components.map fun component =>
      (component, (audited.map fun entry => (entry.2.lookup component).getD 0).sum) := by
  induction audited using List.reverseRecOn with
  | nil => rfl
  | append_singleton audited last ih =>
    rw [List.foldl_append, List.foldl_cons, List.foldl_nil, record, ih, List.map_map]
    apply List.map_congr_left
    intro component _
    rw [Function.comp_apply, List.map_append, List.sum_append, List.map_singleton,
      List.sum_singleton]

theorem totalClaim_row (claim : Option Row) (hex : String) (count : Nat) (numbered : String × Nat) :
    totalClaim py (claimRowOf py claim hex count numbered) =
      .ok (claimRowOf py claim hex count numbered, amountOf py claim "total_claim") := by
  have hcells : entryOf (claimRowOf py claim hex count numbered).components "total_claim" =
      .ok (componentCells (amountOf py claim "total_claim")) := by
    rw [entryOf, claimRowOf, KeyedTable.lookup_map_keys, if_pos (by decide)]
  have hparsed : raisePython (py.toPyText.parsed
      (some (componentCells (amountOf py claim "total_claim")).atto)) =
      .ok (amountOf py claim "total_claim") := by
    rw [componentCells, PyText.parsed, py.int_toString]
    rfl
  rw [totalClaim, hcells, bind_ok, hparsed, bind_ok]

/-- The summary of a run whose totals are counted. -/
structure Reports (st : Tally) (cutoff : Int × Int) (summary : Summary) : Prop where
  status : summary.status = "passed"
  cutoff : summary.cutoff = cutoff
  totalsAtto : summary.componentTotalsAtto =
    st.totals.map fun total => (total.1, toString total.2)
  totalsOne : summary.componentTotalsOne = st.totals.map fun total => (total.1, one total.2)

theorem summarize_ok {args : Args} {inputs : Inputs} {entries unique : List String} {scan : Scan}
    {cutoff : Int × Int} {st : Tally} {valued : List (AuditRow × Int)}
    (h : st.rows.mapM (totalClaim py) = .ok valued) :
    ∃ summary, summarize py args inputs entries unique scan cutoff st = .ok summary ∧
      Reports st cutoff summary := by
  rw [summarize, h, bind_ok]
  exact ⟨_, rfl, ⟨rfl, rfl, rfl, rfl⟩⟩

/-! ## The audit -/

/-- Some text of the list writes the address that the row names. -/
def NamesListed (py : ListText) (inputs : Inputs) (row : Row) : Prop :=
  ∃ raw : Bytes, raw.length = 20 ∧ spelled raw ∈ inputAddresses py inputs.lines ∧
    addressOf py row = prefixedHex raw

/-- The distinct texts of the list. -/
def uniqueTexts (py : ListText) (inputs : Inputs) : List String :=
  firsts id [] (inputAddresses py inputs.lines)

/-- The addresses of the list. -/
def listedHex (py : ListText) (inputs : Inputs) : List String :=
  (uniqueTexts py inputs).map (hexOf py)

theorem nodup_uniqueTexts (inputs : Inputs) : (uniqueTexts py inputs).Nodup :=
  List.Nodup.of_map id (nodup_firsts id [] _)

variable {inputs : Inputs}

theorem mem_listedHex_iff (hvalid : ∀ text ∈ inputAddresses py inputs.lines, ValidAddress text)
    (hex : String) : hex ∈ listedHex py inputs ↔
      ∃ raw : Bytes, raw.length = 20 ∧ spelled raw ∈ inputAddresses py inputs.lines ∧
        hex = prefixedHex raw := by
  rw [listedHex, List.mem_map]
  constructor
  · rintro ⟨text, htext, rfl⟩
    have hmem := (mem_firsts_iff _ _).mp htext
    obtain ⟨raw, hraw, rfl⟩ := hvalid text hmem
    exact ⟨raw, hraw, hmem, hexOf_spelled py hraw⟩
  · rintro ⟨raw, hraw, hmem, rfl⟩
    exact ⟨spelled raw, (mem_firsts_iff _ _).mpr hmem, hexOf_spelled py hraw⟩

theorem scan_claims (hvalid : ∀ text ∈ inputAddresses py inputs.lines, ValidAddress text)
    (hclaims : WellFormed py inputs shard0 shard1) :
    inputs.rows.foldlM (scanRow py (listedHex py inputs)) {} =
      .ok (scanned py shard0 shard1 (listedHex py inputs) inputs.rows) := by
  refine scan_rows hclaims.rows fun hex hhex => ?_
  obtain ⟨raw, hraw, -, rfl⟩ := (mem_listedHex_iff hvalid hex).mp hhex
  exact hclaims.single raw hraw

theorem matched_ne_nil_iff
    (hvalid : ∀ text ∈ inputAddresses py inputs.lines, ValidAddress text) :
    matched py (listedHex py inputs) inputs.rows ≠ [] ↔
      ∃ row ∈ inputs.rows, NamesListed py inputs row := by
  rw [matched, ne_eq, List.filter_eq_nil_iff]
  push Not
  refine exists_congr fun row => and_congr_right fun _ => ?_
  rw [decide_eq_true_iff, mem_listedHex_iff hvalid]
  rfl

/-- What the loop records for a distinct address. -/
def auditedAddress (py : ListText) (inputs : Inputs) (numbered : String × Nat) :
    AuditRow × List (String × Int) :=
  let claim := claimRow py inputs.rows (hexOf py numbered.1)
  (claimRowOf py claim (hexOf py numbered.1)
      ((inputAddresses py inputs.lines).count numbered.1) numbered,
    components.map fun component => (component, amountOf py claim component))

theorem auditAddress_listed (hclaims : WellFormed py inputs shard0 shard1) {numbered : String × Nat}
    (h : numbered.1 ∈ uniqueTexts py inputs) :
    auditAddress py (counter (inputAddresses py inputs.lines))
        ((uniqueTexts py inputs).map fun text => (text, hexOf py text))
        (scanned py shard0 shard1 (listedHex py inputs) inputs.rows).found numbered =
      .ok (auditedAddress py inputs numbered) := by
  have hhex : ((uniqueTexts py inputs).map fun text => (text, hexOf py text)).lookup numbered.1 =
      some (hexOf py numbered.1) := by
    rw [KeyedTable.lookup_map_keys, if_pos h]
  have hcount : (counter (inputAddresses py inputs.lines)).lookup numbered.1 =
      some ((inputAddresses py inputs.lines).count numbered.1) := by
    have hfirst : numbered.1 ∈ firsts id [] (inputAddresses py inputs.lines) := h
    rw [counter, KeyedTable.lookup_map_keys, if_pos hfirst]
  have hlisted : hexOf py numbered.1 ∈ listedHex py inputs := List.mem_map_of_mem h
  have hfound : (scanned py shard0 shard1 (listedHex py inputs) inputs.rows).found.lookup
      (hexOf py numbered.1) = claimRow py inputs.rows (hexOf py numbered.1) :=
    lookup_found hlisted inputs.rows
  have hcomplete : ∀ row ∈ (scanned py shard0 shard1 (listedHex py inputs) inputs.rows).found.lookup
      (hexOf py numbered.1), Complete py shard0 shard1 row := by
    rw [hfound]
    intro row hrow
    exact hclaims.rows row (List.mem_of_find?_eq_some hrow)
  rw [auditAddress_complete hhex hcomplete, hfound, hcount]
  rfl

/-- The rows and totals of the report. -/
def tallied (py : ListText) (inputs : Inputs) : Tally :=
  (((uniqueTexts py inputs).zipIdx 1).map (auditedAddress py inputs)).foldl record {}

theorem tally_listed (hclaims : WellFormed py inputs shard0 shard1) :
    ((uniqueTexts py inputs).zipIdx 1).foldlM
        (tallyAddress py (counter (inputAddresses py inputs.lines))
          ((uniqueTexts py inputs).map fun text => (text, hexOf py text))
          (scanned py shard0 shard1 (listedHex py inputs) inputs.rows).found) {} =
      .ok (tallied py inputs) := by
  have hstep : ∀ st numbered,
      tallyAddress py (counter (inputAddresses py inputs.lines))
          ((uniqueTexts py inputs).map fun text => (text, hexOf py text))
          (scanned py shard0 shard1 (listedHex py inputs) inputs.rows).found st numbered =
        (auditAddress py (counter (inputAddresses py inputs.lines))
          ((uniqueTexts py inputs).map fun text => (text, hexOf py text))
          (scanned py shard0 shard1 (listedHex py inputs) inputs.rows).found numbered).map
          (record st) := fun _ _ => rfl
  rw [foldlM_eq_mapM hstep, mapM_ok_of fun numbered hnumbered =>
    auditAddress_listed hclaims (List.fst_mem_of_mem_zipIdx hnumbered)]
  rfl

theorem rows_tallied : (tallied py inputs).rows =
    ((uniqueTexts py inputs).zipIdx 1).map fun numbered => (auditedAddress py inputs numbered).1 := by
  rw [tallied, rows_recorded, List.map_map]
  rfl

theorem totals_tallied : (tallied py inputs).totals = components.map fun component =>
    (component, totalOf py inputs (tallied py inputs).rows component) := by
  rw [rows_tallied, tallied, totals_recorded]
  refine List.map_congr_left fun component hcomponent => ?_
  rw [totalOf, List.map_map, List.map_map]
  congr 2
  refine List.map_congr_left fun numbered _ => ?_
  rw [Function.comp_apply, auditedAddress, KeyedTable.lookup_map_keys, if_pos hcomponent]
  rfl

theorem exactRow_listed (hvalid : ∀ text ∈ inputAddresses py inputs.lines, ValidAddress text)
    {row : AuditRow} (h : row ∈ (tallied py inputs).rows) :
    ∃ raw : Bytes, raw.length = 20 ∧ ExactRow py inputs raw row := by
  rw [rows_tallied, List.mem_map] at h
  obtain ⟨⟨text, index⟩, hnumbered, rfl⟩ := h
  have hmem := (mem_firsts_iff _ _).mp (List.fst_mem_of_mem_zipIdx hnumbered)
  obtain ⟨raw, hraw, rfl⟩ := hvalid text hmem
  have hhex := hexOf_spelled py hraw
  refine ⟨raw, hraw, ?_⟩
  rw [auditedAddress, hhex]
  constructor <;> rfl

theorem summary_tallied (args : Args) (entries unique : List String) (scan : Scan)
    (cutoff : Int × Int) :
    ∃ summary, summarize py args inputs entries unique scan cutoff (tallied py inputs) =
        .ok summary ∧ Reports (tallied py inputs) cutoff summary := by
  have hvalued : (tallied py inputs).rows.mapM (totalClaim py) =
      .ok ((tallied py inputs).rows.map fun row =>
        (row, amountOf py (claimRow py inputs.rows row.addressHex) "total_claim")) := by
    refine mapM_ok_of fun row hrow => ?_
    rw [rows_tallied, List.mem_map] at hrow
    obtain ⟨numbered, -, rfl⟩ := hrow
    exact totalClaim_row _ _ _ _
  exact summarize_ok hvalued

theorem exact_tallied (hvalid : ∀ text ∈ inputAddresses py inputs.lines, ValidAddress text)
    {summary : Summary} (h : Reports (tallied py inputs) (shard0, shard1) summary) :
    Exact py inputs shard0 shard1 { rows := (tallied py inputs).rows, summary := summary } := by
  have htexts : (tallied py inputs).rows.map AuditRow.addressBech32 = uniqueTexts py inputs := by
    rw [rows_tallied, List.map_map]
    exact List.zipIdx_map_fst 1 _
  constructor
  case listed =>
    intro text
    rw [htexts]
    exact mem_firsts_iff _ _
  case ordered =>
    rw [htexts]
    have hordered := firsts_ordered id [] (inputAddresses py inputs.lines)
    rwa [List.map_id] at hordered
  case numbered =>
    have hlength : (tallied py inputs).rows.length = (uniqueTexts py inputs).length := by
      rw [← htexts, List.length_map]
    rw [hlength, rows_tallied, List.map_map]
    exact List.zipIdx_map_snd 1 _
  case rows => exact fun row hrow => exactRow_listed hvalid hrow
  case totalsAtto =>
    rw [h.totalsAtto, totals_tallied, List.map_map]
    rfl
  case totalsOne =>
    rw [h.totalsOne, totals_tallied, List.map_map]
    rfl
  case cutoff => exact h.cutoff
  case status => exact h.status

/-- Everything but the cutoff is settled by the list and the claims. -/
theorem audit_eq (hvalid : ∀ text ∈ inputAddresses py inputs.lines, ValidAddress text)
    (hclaims : WellFormed py inputs shard0 shard1) (args : Args) :
    audit py args inputs = (do
      let cutoff ← checkCutoff
        (scanned py shard0 shard1 (listedHex py inputs) inputs.rows).cutoffPairs
      let summary ← summarize py args inputs (inputAddresses py inputs.lines)
        (uniqueTexts py inputs) (scanned py shard0 shard1 (listedHex py inputs) inputs.rows) cutoff
        (tallied py inputs)
      .ok { rows := (tallied py inputs).rows, summary := summary }) := by
  have hlist : decodeList py (uniqueTexts py inputs) =
      .ok ((uniqueTexts py inputs).map fun text => (text, hexOf py text)) :=
    decodeList_valid py (nodup_uniqueTexts inputs) fun text htext =>
      hvalid text ((mem_firsts_iff _ _).mp htext)
  have hvalues : ((uniqueTexts py inputs).map fun text => (text, hexOf py text)).map Prod.snd =
      listedHex py inputs := by
    rw [List.map_map]
    rfl
  have hscan := scan_claims hvalid hclaims
  have htally := tally_listed hclaims
  have hfields := checkFields_ok hclaims.fields
  simp only [uniqueTexts] at hlist hvalues htally
  simp only [audit, hlist, bind_ok, hfields, hvalues, hscan, htally]
  rfl

theorem audit_listed (hvalid : ∀ text ∈ inputAddresses py inputs.lines, ValidAddress text)
    (hclaims : WellFormed py inputs shard0 shard1) (args : Args)
    (hmatched : matched py (listedHex py inputs) inputs.rows ≠ []) :
    ∃ output, audit py args inputs = .ok output ∧ Exact py inputs shard0 shard1 output := by
  obtain ⟨summary, hsummary, hreports⟩ :=
    summary_tallied args (inputAddresses py inputs.lines) (uniqueTexts py inputs)
      (scanned py shard0 shard1 (listedHex py inputs) inputs.rows) (shard0, shard1)
  have hpair : checkCutoff (scanned py shard0 shard1 (listedHex py inputs) inputs.rows).cutoffPairs =
      .ok (shard0, shard1) := by
    rw [scanned, if_neg hmatched]
    rfl
  refine ⟨_, ?_, exact_tallied hvalid hreports⟩
  rw [audit_eq hvalid hclaims, hpair, bind_ok, hsummary, bind_ok]

theorem audit_unlisted (hvalid : ∀ text ∈ inputAddresses py inputs.lines, ValidAddress text)
    (hclaims : WellFormed py inputs shard0 shard1) (args : Args)
    (hmatched : matched py (listedHex py inputs) inputs.rows = []) :
    audit py args inputs = .error (.valueError "unexpected cutoff pairs: []") := by
  have hpair : checkCutoff (scanned py shard0 shard1 (listedHex py inputs) inputs.rows).cutoffPairs =
      .error (.valueError "unexpected cutoff pairs: []") := by
    rw [scanned, if_pos hmatched]
    rfl
  rw [audit_eq hvalid hclaims, hpair, bind_error]

theorem main_free {args : Args} (hcsv : occupied inputs args.csvOutput = false)
    (hsummary : occupied inputs args.summaryOutput = false) :
    main py args inputs = (audit py args inputs).mapError .raised := by
  rw [main, hcsv, hsummary]
  rfl

/-- On valid lists and well-formed claims the audit completes, with each distinct address, its
claim and the totals, exactly when some row of the claims names a listed address. -/
theorem audit_exact_iff (py : ListText) (args : Args) (inputs : Inputs) (shard0 shard1 : Int)
    (hcsv : occupied inputs args.csvOutput = false)
    (hsummary : occupied inputs args.summaryOutput = false)
    (hvalid : ∀ text ∈ inputAddresses py inputs.lines, ValidAddress text)
    (hclaims : WellFormed py inputs shard0 shard1) :
    (∃ output, main py args inputs = .ok output ∧ Exact py inputs shard0 shard1 output) ↔
      ∃ row ∈ inputs.rows, NamesListed py inputs row := by
  rw [← matched_ne_nil_iff hvalid, main_free hcsv hsummary]
  constructor
  · rintro ⟨output, houtput, -⟩ hnone
    rw [audit_unlisted hvalid hclaims args hnone] at houtput
    cases houtput
  · intro hmatched
    obtain ⟨output, houtput, hexact⟩ := audit_listed hvalid hclaims args hmatched
    exact ⟨output, mapError_eq_ok.mpr houtput, hexact⟩

/-! ## Two addresses -/

def asciiStrip (text : List Char) : List Char :=
  ((text.dropWhile Char.isWhitespace).reverse.dropWhile Char.isWhitespace).reverse

def asciiText : ListText where
  toPyText := .ascii
  strip text := String.ofList (asciiStrip text.toList)
  lstrip text := String.ofList (text.toList.dropWhile Char.isWhitespace)

def presentRaw : Bytes :=
  [0x8a, 0x90, 0x8d, 0xbf, 0x68, 0x33, 0x57, 0x5f, 0x9f, 0x2b, 0xe3, 0x4b, 0x9a, 0x20, 0x41, 0x61,
    0xc3, 0x04, 0x1a, 0x2f]

def absentRaw : Bytes :=
  [0x5b, 0x74, 0x83, 0xc2, 0xef, 0x50, 0xfd, 0x0b, 0x10, 0x0b, 0xfd, 0x74, 0x06, 0xfd, 0x1c, 0x7e,
    0x5b, 0x4f, 0x85, 0x54]

def sampleValue (component : String) : Int :=
  if component = "liquid_shard0" ∨ component = "total_claim" then 100 else 0

/-- A row of the claims with 100 atto of shard 0. -/
def sampleRow (address : String) : Row :=
  [("secure_key", some "0x01"), ("address", some address), ("claims_shard0_block", some "93623067"),
    ("claims_shard1_block", some "95882100"), ("nonce_shard0", some "1"), ("nonce_shard1", some ""),
    ("code_hash_shard0", some "0x00"), ("code_hash_shard1", some "")] ++
  (components.map (fun component =>
      (component ++ "_atto", some (toString (sampleValue component)))) ++
    components.map fun component => (component ++ "_one", some (one (sampleValue component))))

def sampleArgs : Args where
  addresses := "addresses.txt"
  claims := "claims.csv"
  claimsSha256 := "00"
  csvOutput := "audit.csv"
  summaryOutput := "summary.json"

def sampleInputs (lines : List String) (addresses : List String) : Inputs where
  fileExists _ := false
  lines := lines
  fieldnames := required
  rows := addresses.map sampleRow
  addressesSha256 := ""
  csvSha256 _ := ""

theorem sampleRow_complete (address : String) :
    Complete asciiText 93623067 95882100 (sampleRow address) := by
  constructor
  case address => exact ⟨address, rfl⟩
  case shard0 => exact intField_ok.mpr ⟨"93623067", rfl, by decide +kernel⟩
  case shard1 => exact intField_ok.mpr ⟨"95882100", rfl, by decide +kernel⟩
  case texts =>
    intro field hfield
    simp only [claimFields, List.mem_cons, List.not_mem_nil, or_false] at hfield
    rcases hfield with rfl | rfl | rfl | rfl | rfl | rfl | rfl | rfl <;> exact ⟨_, rfl⟩
  case amounts =>
    intro component hcomponent
    refine ⟨sampleValue component, intField_ok.mpr ⟨toString (sampleValue component), ?_,
      asciiText.int_toString _⟩, ?_⟩
    · simp only [components, List.mem_cons, List.not_mem_nil, or_false] at hcomponent
      rcases hcomponent with rfl | rfl | rfl | rfl | rfl | rfl | rfl <;> rfl
    · simp only [components, List.mem_cons, List.not_mem_nil, or_false] at hcomponent
      rcases hcomponent with rfl | rfl | rfl | rfl | rfl | rfl | rfl <;> rfl

def sampleClaims : List String :=
  ["0x8A908dbf6833575f9f2be34b9a204161c3041a2f", "0x0000000000000000000000000000000000000001"]

/-- Claims for two different addresses. -/
theorem sampleInputs_wellFormed (lines : List String) :
    WellFormed asciiText (sampleInputs lines sampleClaims) 93623067 95882100 := by
  constructor
  case fields => exact fun _ hfield => hfield
  case rows =>
    intro row hrow
    obtain ⟨address, -, rfl⟩ := List.mem_map.mp hrow
    exact sampleRow_complete address
  case single =>
    intro raw _
    refine List.pairwise_pair.mpr ?_
    rintro ⟨hfirst, hsecond⟩
    exact absurd (hfirst.trans hsecond.symm) (by decide +kernel)

def sampleLines : List String :=
  ["# listed addresses\n", "one132ggm0mgxdt4l8etud9e5gzpv8psgx30p7hxsq\n", "\n",
    "  one132ggm0mgxdt4l8etud9e5gzpv8psgx30p7hxsq\n", "one1td6g8sh02r7skyqtl46qdlgu0ed5lp259uut7x\n"]

theorem sampleLines_valid : ∀ text ∈ inputAddresses asciiText sampleLines, ValidAddress text := by
  have hread : inputAddresses asciiText sampleLines =
      ["one132ggm0mgxdt4l8etud9e5gzpv8psgx30p7hxsq", "one132ggm0mgxdt4l8etud9e5gzpv8psgx30p7hxsq",
        "one1td6g8sh02r7skyqtl46qdlgu0ed5lp259uut7x"] := by decide +kernel
  have hpresent : ValidAddress "one132ggm0mgxdt4l8etud9e5gzpv8psgx30p7hxsq" :=
    ⟨presentRaw, rfl, by decide +kernel⟩
  have habsent : ValidAddress "one1td6g8sh02r7skyqtl46qdlgu0ed5lp259uut7x" :=
    ⟨absentRaw, rfl, by decide +kernel⟩
  rw [hread]
  intro text htext
  simp only [List.mem_cons, List.not_mem_nil, or_false] at htext
  rcases htext with rfl | rfl | rfl
  · exact hpresent
  · exact hpresent
  · exact habsent

theorem audit_exact_sample :
    ∃ output, main asciiText sampleArgs (sampleInputs sampleLines sampleClaims) = .ok output ∧
      Exact asciiText (sampleInputs sampleLines sampleClaims) 93623067 95882100 output := by
  refine (audit_exact_iff asciiText sampleArgs (sampleInputs sampleLines sampleClaims) 93623067
    95882100 rfl rfl sampleLines_valid (sampleInputs_wellFormed sampleLines)).mpr ?_
  refine ⟨sampleRow "0x8A908dbf6833575f9f2be34b9a204161c3041a2f", List.mem_cons_self, presentRaw,
    rfl, ?_, ?_⟩
  · decide +kernel
  · decide +kernel

/-- A list without a claim is refused, though its address is valid and the claims are well
formed. -/
theorem unclaimed_list_refused :
    (∀ text ∈ inputAddresses asciiText ["one1td6g8sh02r7skyqtl46qdlgu0ed5lp259uut7x\n"],
        ValidAddress text) ∧
      WellFormed asciiText
        (sampleInputs ["one1td6g8sh02r7skyqtl46qdlgu0ed5lp259uut7x\n"] sampleClaims)
        93623067 95882100 ∧
      main asciiText sampleArgs
          (sampleInputs ["one1td6g8sh02r7skyqtl46qdlgu0ed5lp259uut7x\n"] sampleClaims) =
        .error (.raised (.valueError "unexpected cutoff pairs: []")) := by
  have hvalid : ∀ text ∈ inputAddresses asciiText ["one1td6g8sh02r7skyqtl46qdlgu0ed5lp259uut7x\n"],
      ValidAddress text := by
    have hread : inputAddresses asciiText ["one1td6g8sh02r7skyqtl46qdlgu0ed5lp259uut7x\n"] =
        ["one1td6g8sh02r7skyqtl46qdlgu0ed5lp259uut7x"] := by decide +kernel
    rw [hread]
    intro text htext
    rw [List.mem_singleton.mp htext]
    exact ⟨absentRaw, rfl, by decide +kernel⟩
  have hclaims := sampleInputs_wellFormed ["one1td6g8sh02r7skyqtl46qdlgu0ed5lp259uut7x\n"]
  have hnone : matched asciiText
      (listedHex asciiText
        (sampleInputs ["one1td6g8sh02r7skyqtl46qdlgu0ed5lp259uut7x\n"] sampleClaims))
      (sampleInputs ["one1td6g8sh02r7skyqtl46qdlgu0ed5lp259uut7x\n"] sampleClaims).rows = [] := by
    decide +kernel
  refine ⟨hvalid, hclaims, ?_⟩
  rw [main_free rfl rfl, audit_unlisted hvalid hclaims sampleArgs hnone]
  rfl

end AddressListExactness
