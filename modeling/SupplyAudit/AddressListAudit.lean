import Mathlib.Data.List.Sort
import SupplyAudit.AddressRoundTrip
import SupplyAudit.AuditFiles
import SupplyAudit.DistinctListings

/-!
# The audit of an address list

`blacklisted-address-audit.py` reads a list of addresses, keeps each text once, and
joins the list with the rows of a claims file. The cutoff of the report is taken from
the rows that were found, so a file without such a row leaves it without one.
-/

namespace AddressListAudit

open ByteWords ScriptValues FallibleScan AuditFiles DistinctListings
open BlacklistedAddresses (decodeBech32 spelled)

/-! ## Values -/

def attoPerOne : Int := 10 ^ 18

def components : List String :=
  ["liquid_shard0", "liquid_shard1", "active_staked_or_delegated", "pending_undelegation",
    "unclaimed_staking_reward", "pending_cross_shard", "total_claim"]

def one (value : Int) : String :=
  let fraction := toString (value % attoPerOne)
  toString (value / attoPerOne) ++ "." ++ "".pushn '0' (18 - fraction.length) ++ fraction

example : one 100 = "0.000000000000000100" := by decide +kernel

/-- The methods of a text, with those that cut white space off its ends. -/
structure ListText extends PyText where
  strip : String → String
  lstrip : String → String

inductive ListAuditError where
  | fileExists (path : String)
  | raised (err : AuditError)
  deriving DecidableEq

def ListAuditError.text : ListAuditError → String
  | .fileExists path => path
  | .raised err => err.text

structure Args where
  addresses : String
  claims : String
  claimsSha256 : String
  csvOutput : String
  summaryOutput : String

/-- The two cells of a component. -/
structure ComponentCells where
  atto : String
  one : String

structure AuditRow where
  inputOrder : Nat
  addressBech32 : String
  addressHex : String
  duplicateCountInInput : Nat
  cutoffRowPresent : String
  secureKey : Option String
  components : List (String × ComponentCells)
  nonceShard0 : Option String
  nonceShard1 : Option String
  codeHashShard0 : Option String
  codeHashShard1 : Option String
  migrationAction : String

structure TopEntry where
  addressBech32 : String
  addressHex : String
  totalClaim : ComponentCells

structure Summary where
  status : String
  addressesInput : String
  addressesInputSha256 : String
  claimsInput : String
  claimsInputSha256 : String
  cutoff : Int × Int
  inputEntries : Nat
  uniqueAddresses : Nat
  duplicateEntries : List (String × Nat)
  positiveClaimAddresses : Nat
  zeroOrAbsentAddresses : Nat
  cutoffRowsPresent : Nat
  componentTotalsAtto : List (String × String)
  componentTotalsOne : List (String × String)
  zeroOrAbsentAddressList : List String
  topTenByTotalClaim : List TopEntry
  migrationAction : String
  deductFromTotalClaim : Bool
  csvOutput : String
  csvOutputSha256 : String

structure Output where
  rows : List AuditRow
  summary : Summary

/-- What the script finds: the files that exist, the lines of the list, the claims and
the digests that it computes. -/
structure Inputs where
  fileExists : String → Bool
  lines : List String
  fieldnames : List String
  rows : List Row
  addressesSha256 : String
  csvSha256 : List AuditRow → String

variable (py : ListText)

/-! ## The list -/

/-- The lines that are neither blank nor comments, without the space around them. -/
def inputAddresses (lines : List String) : List String :=
  (lines.filter fun line =>
    py.strip line ≠ "" ∧ ¬ "#".toList.isPrefixOf (py.lstrip line).toList).map py.strip

/-- `Counter(entries)` -/
def counter (entries : List String) : List (String × Nat) :=
  (firsts id [] entries).map fun address => (address, entries.count address)

def decodeEntry (address : String) : Except AuditError (String × String) := do
  let hex ← (decodeBech32 py.lower address).mapError fun err => AuditError.valueError err.text
  .ok (address, hex)

/-- The map from listed texts to their addresses. -/
def decodeList (unique : List String) : Except AuditError (List (String × String)) := do
  let addressHex ← unique.mapM (decodeEntry py)
  require ((addressHex.map Prod.snd).dedup.length = addressHex.length)
    (.valueError "different input strings decode to the same 20-byte address")
  .ok addressHex

/-! ## The claims -/

def claimFields : List String :=
  ["secure_key", "address", "claims_shard0_block", "claims_shard1_block", "nonce_shard0",
    "nonce_shard1", "code_hash_shard0", "code_hash_shard1"]

def required : List String :=
  claimFields ++ (components.map (· ++ "_atto") ++ components.map (· ++ "_one"))

def listText (items : List String) : String := "[" ++ ", ".intercalate items ++ "]"

def checkFields (fieldnames : List String) : Except AuditError Unit :=
  let missing := required.filter fun field => field ∉ fieldnames
  require (missing = []) (.valueError ("claim CSV is missing fields: " ++
    listText ((missing.insertionSort (· ≤ ·)).map fun field => "'" ++ field ++ "'")))

structure Scan where
  found : List (String × Row) := []
  cutoffPairs : List (Int × Int) := []

/-- `set.add` -/
def addPair (pairs : List (Int × Int)) (pair : Int × Int) : List (Int × Int) :=
  if pair ∈ pairs then pairs else pairs ++ [pair]

/-- The body of the loop over the claims: only rows of listed addresses are looked at. -/
def scanRow (listed : List String) (st : Scan) (row : Row) : Except AuditError Scan := do
  let address ← lowerField py.toPyText row "address"
  if address ∉ listed then .ok st
  else do
    require ((st.found.lookup address).isNone) (.valueError ("duplicate claim row for " ++ address))
    let shard0 ← intField py.toPyText row "claims_shard0_block"
    let shard1 ← intField py.toPyText row "claims_shard1_block"
    .ok
      { found := st.found ++ [(address, row)]
        cutoffPairs := addPair st.cutoffPairs (shard0, shard1) }

def pairText (pair : Int × Int) : String :=
  "(" ++ toString pair.1 ++ ", " ++ toString pair.2 ++ ")"

/-- There must be exactly one cutoff among the rows found. -/
def checkCutoff (pairs : List (Int × Int)) : Except AuditError (Int × Int) :=
  match pairs with
  | [pair] => .ok pair
  | pairs =>
    let sorted := pairs.insertionSort fun a b => a.1 < b.1 ∨ a.1 = b.1 ∧ a.2 ≤ b.2
    .error (.valueError ("unexpected cutoff pairs: " ++ listText (sorted.map pairText)))

/-! ## The rows -/

/-- A cell of the claim, or nothing where there is none. -/
def claimCell (claim : Option Row) (field : String) : Except AuditError (Option String) :=
  match claim with
  | none => .ok (some "")
  | some row => raisePython (row.get field)

def componentValue (claim : Option Row) (address component : String) : Except AuditError Int :=
  match claim with
  | none => .ok 0
  | some row => do
    let value ← intField py.toPyText row (component ++ "_atto")
    let written ← raisePython (row.get (component ++ "_one"))
    require (written = some (one value))
      (.valueError ("atto/ONE mismatch for " ++ address ++ ": " ++ component))
    .ok value

def componentCells (value : Int) : ComponentCells where
  atto := toString value
  one := one value

/-- `table[key]` -/
def entryOf {α : Type} (table : List (String × α)) (key : String) : Except AuditError α :=
  match table.lookup key with
  | none => .error (.keyError key)
  | some value => .ok value

/-- One distinct address: its row, and the amounts that the totals take from it. -/
def auditAddress (counts : List (String × Nat)) (addressHex : List (String × String))
    (found : List (String × Row)) (numbered : String × Nat) :
    Except AuditError (AuditRow × List (String × Int)) := do
  let hexAddress ← entryOf addressHex numbered.1
  let claim := found.lookup hexAddress
  let secureKey ← claimCell claim "secure_key"
  let nonceShard0 ← claimCell claim "nonce_shard0"
  let nonceShard1 ← claimCell claim "nonce_shard1"
  let codeHashShard0 ← claimCell claim "code_hash_shard0"
  let codeHashShard1 ← claimCell claim "code_hash_shard1"
  let amounts ← components.mapM fun component => do
    let value ← componentValue py claim numbered.1 component
    .ok (component, value)
  .ok
    ({ inputOrder := numbered.2
       addressBech32 := numbered.1
       addressHex := hexAddress
       duplicateCountInInput := (counts.lookup numbered.1).getD 0
       cutoffRowPresent := if claim.isSome then "true" else "false"
       secureKey := secureKey
       components := amounts.map fun amount => (amount.1, componentCells amount.2)
       nonceShard0 := nonceShard0
       nonceShard1 := nonceShard1
       codeHashShard0 := codeHashShard0
       codeHashShard1 := codeHashShard1
       migrationAction := "not_set_by_balance_audit" }, amounts)

structure Tally where
  rows : List AuditRow := []
  totals : List (String × Int) := components.map fun component => (component, 0)

def record (st : Tally) (audited : AuditRow × List (String × Int)) : Tally where
  rows := st.rows ++ [audited.1]
  totals := st.totals.map fun total => (total.1, total.2 + (audited.2.lookup total.1).getD 0)

/-- The body of the loop over the distinct addresses. -/
def tallyAddress (counts : List (String × Nat)) (addressHex : List (String × String))
    (found : List (String × Row)) (st : Tally) (numbered : String × Nat) :
    Except AuditError Tally :=
  (auditAddress py counts addressHex found numbered).map (record st)

/-! ## The report -/

/-- `int(row["total_claim_atto"])` -/
def totalClaim (row : AuditRow) : Except AuditError (AuditRow × Int) := do
  let cells ← entryOf row.components "total_claim"
  let total ← raisePython (py.toPyText.parsed (some cells.atto))
  .ok (row, total)

def topEntry (row : AuditRow) : TopEntry where
  addressBech32 := row.addressBech32
  addressHex := row.addressHex
  totalClaim := (row.components.lookup "total_claim").getD (componentCells 0)

def summarize (args : Args) (inputs : Inputs) (entries unique : List String) (scan : Scan)
    (cutoff : Int × Int) (st : Tally) : Except AuditError Summary := do
  let valued ← st.rows.mapM (totalClaim py)
  let positive := valued.filter fun entry => 0 < entry.2
  let top := (positive.insertionSort fun a b =>
    b.2 < a.2 ∨ a.2 = b.2 ∧ a.1.addressBech32 ≤ b.1.addressBech32).take 10
  .ok
    { status := "passed"
      addressesInput := args.addresses
      addressesInputSha256 := inputs.addressesSha256
      claimsInput := args.claims
      claimsInputSha256 := py.lower args.claimsSha256
      cutoff := cutoff
      inputEntries := entries.length
      uniqueAddresses := unique.length
      duplicateEntries := ((counter entries).insertionSort fun a b => a.1 ≤ b.1).filter
        fun entry => 1 < entry.2
      positiveClaimAddresses := positive.length
      zeroOrAbsentAddresses := st.rows.length - positive.length
      cutoffRowsPresent := scan.found.length
      componentTotalsAtto := st.totals.map fun total => (total.1, toString total.2)
      componentTotalsOne := st.totals.map fun total => (total.1, one total.2)
      zeroOrAbsentAddressList := (valued.filter fun entry => entry.2 = 0).map
        fun entry => entry.1.addressBech32
      topTenByTotalClaim := top.map fun entry => topEntry entry.1
      migrationAction := "none; join this balance audit to incident-specific evidence before routing"
      deductFromTotalClaim := false
      csvOutput := args.csvOutput
      csvOutputSha256 := inputs.csvSha256 st.rows }

def audit (args : Args) (inputs : Inputs) : Except AuditError Output := do
  let entries := inputAddresses py inputs.lines
  let unique := firsts id [] entries
  let addressHex ← decodeList py unique
  checkFields inputs.fieldnames
  let scan ← inputs.rows.foldlM (scanRow py (addressHex.map Prod.snd)) {}
  let cutoff ← checkCutoff scan.cutoffPairs
  let st ← (unique.zipIdx 1).foldlM (tallyAddress py (counter entries) addressHex scan.found) {}
  let summary ← summarize py args inputs entries unique scan cutoff st
  .ok { rows := st.rows, summary := summary }

def occupied (inputs : Inputs) (path : String) : Bool :=
  inputs.fileExists path || inputs.fileExists (path ++ ".partial")

/-- The script: what it writes to its two files. -/
def main (args : Args) (inputs : Inputs) : Except ListAuditError Output :=
  if occupied inputs args.csvOutput then .error (.fileExists args.csvOutput)
  else if occupied inputs args.summaryOutput then .error (.fileExists args.summaryOutput)
  else (audit py args inputs).mapError .raised

end AddressListAudit
