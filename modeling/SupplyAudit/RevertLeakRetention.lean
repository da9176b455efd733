import SupplyAudit.NonIssuanceAudit

/-!
# Withholding leaked credit

`build-revert-leak-retention.py` adds up the proven leak receipts of source
audits by destination address and withholds from each address that credit, at
most what is left of its claim after earlier non-issuance.
-/

namespace RevertLeakRetention

open ScriptValues FallibleScan KeyedTable HarmonyAddress TraceInspection AuditFiles NonIssuanceAudit

/-- `LEAK_CLASSIFICATIONS` -/
def leakClassifications : List Classification := [.rollbackLeak, .sourceDebitAbsent]

/-- A counter that starts at zero. -/
def addAmount {κ : Type} [DecidableEq κ] (table : List (κ × Int)) (key : κ) (amount : Int) :
    List (κ × Int) := update table key 0 fun value => value + amount

theorem lookup_addAmount {κ : Type} [DecidableEq κ] (table : List (κ × Int)) (key : κ)
    (amount : Int) (k : κ) : ((addAmount table key amount).lookup k).getD 0 =
      (table.lookup k).getD 0 + if k = key then amount else 0 := by
  rw [addAmount, update, lookup_set]
  by_cases hk : k = key
  · rw [if_pos hk, if_pos hk, hk, Option.getD_some]
  · rw [if_neg hk, if_neg hk, Int.add_zero]

theorem total_addAmount {κ : Type} [DecidableEq κ] {table : List (κ × Int)}
    (h : (table.map Prod.fst).Nodup) (key : κ) (amount : Int) :
    total id (addAmount table key amount) = total id table + amount :=
  total_update_add h key rfl fun _ => rfl

variable (py : PyText)

/-! ## Leak receipts -/

def isLeak (row : Row) : Bool :=
  (row.lookup "classification").join ∈ leakClassifications.map fun c => some c.text

/-- What `load_leaks` takes for the identity of a receipt. -/
structure LeakKey where
  txHash : String
  receiptIndex : Option String
  destinationBlock : Option String
  deriving DecidableEq

/-- `row.get(field, "")` -/
def fieldOrEmpty (row : Row) (field : String) : Option String :=
  (row.lookup field).getD (some "")

def leakKey (row : Row) : Except AuditError LeakKey := do
  let txHash ← lowerField py row "tx_hash"
  .ok ⟨txHash, fieldOrEmpty row "receipt_index", fieldOrEmpty row "destination_block"⟩

structure Leaks where
  credit : List (String × Int) := []
  receipts : List (String × Int) := []
  incidents : List (String × List (Option String)) := []
  seen : List LeakKey := []

abbrev IncidentTable := List (String × Option String)

/-- The incident of the source transaction of a row. -/
def incidentOf (incidentByTx : IncidentTable) (row : Row) : Option String :=
  let sourceTx := py.lower ((row.lookup "source_transaction_hash").join.getD "")
  (incidentByTx.lookup sourceTx).getD (some "unattributed")

/-- The credit of one receipt. -/
def Leaks.credited (st : Leaks) (key : LeakKey) (address : String) (amount : Int)
    (incident : Option String) : Leaks where
  credit := addAmount st.credit address amount
  receipts := addAmount st.receipts address 1
  incidents := update st.incidents address [] fun labels => labels.insert incident
  seen := key :: st.seen

/-- The body of the loop over one audit's rows. -/
def addLeak (incidentByTx : IncidentTable) (path : String) (st : Leaks) (numbered : Row × Nat) :
    Except AuditError Leaks :=
  let row := numbered.1
  if isLeak row then do
    let key ← leakKey py row
    if key ∈ st.seen then .ok st
    else do
      let address ← lowerField py row "to"
      let amount ← intField py row "amount_atto"
      require (0 < amount) (.valueError (rowPlace path numbered.2 ++ "non-positive leak receipt"))
      .ok (st.credited key address amount (incidentOf py incidentByTx row))
  else .ok st

def loadLeaks (incidentByTx : IncidentTable) (files : List CsvFile) : Except AuditError Leaks :=
  files.foldlM (fun st file => file.rows.zipIdx.foldlM (addLeak py incidentByTx file.path) st) {}

/-! ## Earlier non-issuance and claims -/

def addPrior (field : String) (amounts : List (String × Int)) (row : Row) :
    Except AuditError (List (String × Int)) := do
  let address ← lowerField py row "address_hex"
  let amount ← intField py row field
  .ok (addAmount amounts address amount)

def loadPrior (files : List CsvFile) (field : String) : Except AuditError (List (String × Int)) :=
  (files.flatMap CsvFile.rows).foldlM (addPrior py field) []

def addClaim (path : String) (wanted : List String) (claims : List (String × Int)) (row : Row) :
    Except AuditError (List (String × Int)) := do
  let address ← lowerField py row "address"
  if address ∈ wanted then do
    require (claims.lookup address = none)
      (.valueError (path ++ ": duplicate claim row for " ++ address))
    let claim ← intField py row "native_total_claim_atto"
    .ok (set claims address claim)
  else .ok claims

def loadClaims (file : CsvFile) (wanted : List String) : Except AuditError (List (String × Int)) :=
  file.rows.foldlM (addClaim py file.path wanted) []

/-! ## Recipients -/

/-- `INCIDENT_LABELS.get(label, label)` -/
def incidentLabel (label : Option String) : Option String :=
  if label = some "smaller-2026" then some "june-july-2026" else label

/-- The labels of an address joined; one that is missing cannot be joined. -/
def joinLabels (labels : List (Option String)) : Except AuditError String :=
  if none ∈ labels then .error (.typeError "sequence item 0: expected str instance, NoneType found")
  else .ok ("+".intercalate (((labels.map incidentLabel).reduceOption).insertionSort fun a b => a ≤ b))

structure IncidentCredit where
  recipients : Nat := 0
  unbackedCreditAtto : Int := 0
  positiveRows : Nat := 0
  notIssuedAtto : Int := 0
  deriving DecidableEq

/-- The tables that the recipients are judged by. -/
structure Tables where
  leaks : Leaks
  prior : List (String × Int)
  claims : List (String × Int)
  cutoffBlock : Int

def Tables.creditAt (t : Tables) (address : String) : Int := (t.leaks.credit.lookup address).getD 0

def Tables.priorAt (t : Tables) (address : String) : Int := (t.prior.lookup address).getD 0

def Tables.claimAt (t : Tables) (address : String) : Int := (t.claims.lookup address).getD 0

/-- The credit of an address, at most what is left of its claim. -/
def Tables.withheld (t : Tables) (address : String) : Int :=
  min (t.creditAt address) (max (t.claimAt address - t.priorAt address) 0)

/-- A row of the written file. -/
def Tables.row (t : Tables) (address bech32 incident : String) : Row :=
  [("address_bech32", some bech32), ("address_hex", some address), ("incident", some incident),
    ("unbacked_credit_atto", some (toString (t.creditAt address))),
    ("leak_receipts", some (toString ((t.leaks.receipts.lookup address).getD 0))),
    ("cutoff_native_claim_atto", some (toString (t.claimAt address))),
    ("prior_non_issuance_atto", some (toString (t.priorAt address))),
    ("retained_cap_atto", some (toString (t.withheld address))),
    ("retained_cap_one", some (one (t.withheld address))),
    ("cutoff_block", some (toString t.cutoffBlock)),
    ("source_evidence", some "proven revert-leak receipts (cx-source-audit classification)"),
    ("migration_treatment", some "not_issued")]

structure Recipients where
  rows : List Row := []
  byIncident : List (String × IncidentCredit) := []

def IncidentCredit.add (stats : IncidentCredit) (credit withheld : Int) : IncidentCredit where
  recipients := stats.recipients + 1
  unbackedCreditAtto := stats.unbackedCreditAtto + credit
  positiveRows := stats.positiveRows + if withheld = 0 then 0 else 1
  notIssuedAtto := stats.notIssuedAtto + withheld

/-- The rows that a recipient adds to the written file. -/
def Tables.rows (t : Tables) (address incident : String) : Except AuditError (List Row) :=
  if t.withheld address = 0 then .ok []
  else do
    let bech32 ← raiseAddress (toBech32 address)
    .ok [t.row address bech32 incident]

/-- The body of the loop over credited addresses. -/
def Tables.addRecipient (t : Tables) (st : Recipients) (address : String) :
    Except AuditError Recipients := do
  let incident ← joinLabels ((t.leaks.incidents.lookup address).getD [])
  let written ← t.rows address incident
  .ok
    { rows := st.rows ++ written
      byIncident := update st.byIncident incident {} fun stats =>
        stats.add (t.creditAt address) (t.withheld address) }

def Tables.recipients (t : Tables) : Except AuditError Recipients :=
  ((t.leaks.credit.map Prod.fst).insertionSort fun a b => a ≤ b).foldlM t.addRecipient {}

/-! ## The script -/

structure Target where
  path : String
  occupied : Bool
  partialFile : Bool

/-- `write_atomic`, as far as it refuses to write. -/
def writeAtomic (target : Target) (replace : Bool) : Except AuditError Unit := do
  require (target.partialFile = false) (.fileExists (target.path ++ ".partial"))
  require (target.occupied = true → replace = true) (.fileExists target.path)

structure Args where
  receiptAudit : List CsvFile
  exploitTransactions : List Row
  claims : CsvFile
  priorRetention : List CsvFile
  priorNonIssuance : List CsvFile
  cutoffBlock : Int := 93623067
  outputCsv : Target
  summaryOutput : Target
  replace : Bool

structure Summary where
  status : String
  rule : String
  leakClassifications : List String
  leakReceipts : Nat
  creditedRecipients : Nat
  unbackedCreditAtto : String
  unbackedCreditOne : String
  positiveRows : Nat
  notIssuedAtto : String
  notIssuedOne : String
  addressesWithEarlierNonIssuance : List String
  byIncident : List (String × IncidentCredit)
  cutoffBlock : Int
  csvSha256 : String
  rows : Nat

structure Output where
  csv : CsvFile
  summary : Summary

def addIncident (table : IncidentTable) (row : Row) : Except AuditError IncidentTable := do
  let hash ← lowerField py row "transaction_hash"
  let incident ← raisePython (row.get "incident")
  .ok (set table hash incident)

/-- All earlier non-issuance of an address. -/
def loadPriors (args : Args) : Except AuditError (List (String × Int)) := do
  let retained ← loadPrior py args.priorRetention "retained_cap_atto"
  let inventories ← loadPrior py args.priorNonIssuance "not_issued_atto"
  .ok (inventories.foldl (fun prior entry => addAmount prior entry.1 entry.2) retained)

def loadTables (args : Args) : Except AuditError Tables := do
  let incidentByTx ← args.exploitTransactions.foldlM (addIncident py) []
  let leaks ← loadLeaks py incidentByTx args.receiptAudit
  let prior ← loadPriors py args
  let claims ← loadClaims py args.claims (leaks.credit.map Prod.fst)
  .ok ⟨leaks, prior, claims, args.cutoffBlock⟩

def rule : String :=
  "for each destination credited by a proven revert-leak receipt, do not issue " ++
    "min(total credited, native cutoff claim minus earlier non-issuance)"

/-- `sha256` gives the digest of a written file with these rows. -/
def main (sha256 : List Row → String) (args : Args) : Except AuditError Output := do
  let t ← loadTables py args
  let recipients ← t.recipients
  writeAtomic args.outputCsv args.replace
  let credited := t.leaks.credit.map Prod.fst
  let totalCredit := total id t.leaks.credit
  let withheld ← recipients.rows.mapM fun row => intField py row "retained_cap_atto"
  let totalWithheld := withheld.sum
  writeAtomic args.summaryOutput args.replace
  .ok
    { csv := ⟨args.outputCsv.path, recipients.rows⟩
      summary :=
        { status := "passed"
          rule := rule
          leakClassifications :=
            (leakClassifications.map Classification.text).insertionSort fun a b => a ≤ b
          leakReceipts := t.leaks.seen.length
          creditedRecipients := credited.length
          unbackedCreditAtto := toString totalCredit
          unbackedCreditOne := one totalCredit
          positiveRows := recipients.rows.length
          notIssuedAtto := toString totalWithheld
          notIssuedOne := one totalWithheld
          addressesWithEarlierNonIssuance :=
            (credited.filter fun address => t.priorAt address ≠ 0).insertionSort fun a b => a ≤ b
          byIncident := recipients.byIncident.insertionSort fun a b => a.1 ≤ b.1
          cutoffBlock := args.cutoffBlock
          csvSha256 := sha256 recipients.rows
          rows := recipients.rows.length } }

end RevertLeakRetention
