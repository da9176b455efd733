import SupplyAudit.RevertLeakRetention

/-!
# Totals of the non-issuance audit

The rest of `build-non-issuance-audit.py`: every withheld leak amount is checked
again from the inventories, and the three lists together are compared with the
gross claim.
-/

namespace NonIssuanceTotals

open ScriptValues FallibleScan KeyedTable TraceInspection AuditFiles NonIssuanceAudit

variable (py : AuditText)

/-! ## Revert-leak rows -/

structure LeakIncident where
  positiveAddresses : Nat := 0
  unbackedCreditAtto : Int := 0
  notIssuedAtto : Int := 0
  deriving DecidableEq

structure RevertLeak where
  seen : List String := []
  byIncident : List (Option String × LeakIncident) := []
  overlapRetained : List String := []

/-- The dictionary of retained caps. -/
def addCap (caps : List (String × Int)) (row : Row) : Except AuditError (List (String × Int)) := do
  let address ← raisePython (row.get "address_hex")
  let cap ← intField py.toPyText row "retained_cap_atto"
  .ok (set caps (address.getD "") cap)

def retainedCaps (rows : List Row) : Except AuditError (List (String × Int)) :=
  rows.foldlM (addCap py) []

/-- The dictionary of inventory amounts. -/
def addAmountOf (amounts : List (String × Int)) (row : Row) :
    Except AuditError (List (String × Int)) := do
  let address ← lowerField py.toPyText row "address_hex"
  let amount ← intField py.toPyText row "not_issued_atto"
  .ok (set amounts address amount)

def existingAmounts (rows : List Row) : Except AuditError (List (String × Int)) :=
  rows.foldlM (addAmountOf py) []

def LeakIncident.add (values : LeakIncident) (credit withheld : Int) : LeakIncident :=
  ⟨values.positiveAddresses + 1, values.unbackedCreditAtto + credit,
    values.notIssuedAtto + withheld⟩

/-- The amounts that earlier lists already withhold from an address. -/
def priorAt (caps amounts : List (String × Int)) (address : String) : Int :=
  (caps.lookup address).getD 0 + (amounts.lookup address).getD 0

/-- The body of the loop over withheld amounts. -/
def addRevertLeak (caps amounts : List (String × Int)) (path : String) (st : RevertLeak)
    (numbered : Row × Nat) : Except AuditError RevertLeak := do
  let row := numbered.1
  let place := rowPlace path numbered.2
  let address ← lowerField py.toPyText row "address_hex"
  require (address ∉ st.seen) (.valueError (place ++ "duplicate address " ++ address))
  let prior := priorAt caps amounts address
  let quoted ← intField py.toPyText row "prior_non_issuance_atto"
  require (quoted = prior)
    (.valueError (place ++ "earlier non-issuance does not match the inventories"))
  let withheld ← intField py.toPyText row "retained_cap_atto"
  let credit ← intField py.toPyText row "unbacked_credit_atto"
  let claim ← intField py.toPyText row "cutoff_native_claim_atto"
  require (withheld = min credit (max (claim - prior) 0) ∧ 0 < withheld)
    (.valueError (place ++ "withheld amount does not follow the rule"))
  let treatment ← raisePython (row.get "migration_treatment")
  require (treatment = some "not_issued")
    (.valueError (place ++ "withheld amount does not follow the rule"))
  let incident ← raisePython (row.get "incident")
  .ok
    { seen := address :: st.seen
      byIncident := update st.byIncident incident {} fun values => values.add credit withheld
      overlapRetained :=
        if address ∈ caps.map Prod.fst then st.overlapRetained ++ [address]
        else st.overlapRetained }

def RevertLeak.total (leak : RevertLeak) : Int :=
  KeyedTable.total LeakIncident.notIssuedAtto leak.byIncident

/-- `load_revert_leak`; `sha256` gives the digest of a file with these rows. -/
def loadRevertLeak (sha256 : List Row → String) (file : CsvFile)
    (summary : RevertLeakRetention.Summary) (summaryPath : String)
    (caps amounts : List (String × Int)) : Except AuditError RevertLeak := do
  require (summary.status = "passed") (.valueError (summaryPath ++ ": did not pass"))
  require (summary.csvSha256 = sha256 file.rows)
    (.valueError (file.path ++ ": SHA-256 differs from " ++ summaryPath))
  let leak ← file.rows.zipIdx.foldlM (addRevertLeak py caps amounts file.path) {}
  require (toString leak.total = summary.notIssuedAtto ∧ leak.seen.length = summary.positiveRows)
    (.valueError (file.path ++ ": totals differ from " ++ summaryPath))
  .ok leak

/-! ## Final totals -/

structure RetainedIncident where
  addresses : Nat
  retainedCapAtto : String
  above1000One : Nat

/-- The summary that comes with the retained balances. -/
structure RetainedSummary where
  block : Int
  changedFromSep10 : Int
  incidents : List (String × RetainedIncident)
  blockHash : String
  blockUtc : String
  queriedAtUtc : String

/-- A key as a `KeyError` shows it. -/
def keyText : Option String → String
  | none => "None"
  | some key => "'" ++ key ++ "'"

def checkIncident (summary : RetainedSummary) (entry : Option String × Incident) :
    Except AuditError Unit :=
  let name := entry.1.getD "None"
  match entry.1.bind fun incident => summary.incidents.lookup incident with
  | none => .error (.keyError (keyText entry.1))
  | some expected => do
    require (entry.2.inputAddresses = expected.addresses)
      (.valueError (name ++ ": input address count mismatch"))
    require (toString entry.2.retainedCapAtto = expected.retainedCapAtto)
      (.valueError (name ++ ": retained cap mismatch"))
    require (entry.2.above1000One = expected.above1000One)
      (.valueError (name ++ ": large-address count mismatch"))

/-- A file of withheld amounts and the summary written with it, if it is given. -/
structure RevertLeakInput where
  file : CsvFile
  summary : Option RevertLeakRetention.Summary
  summaryPath : String

structure Inputs where
  inventories : List CsvFile
  balances : RetainedFile
  retainedSummary : RetainedSummary
  totalClaimAtto : String
  revertLeak : Option RevertLeakInput

structure FinalTotals where
  loaded : Loaded
  gross : Int
  leak : Option RevertLeak

def FinalTotals.existingTotal (t : FinalTotals) : Int :=
  KeyedTable.total Category.atto t.loaded.existing.categories

def FinalTotals.retainedTotal (t : FinalTotals) : Int :=
  KeyedTable.total Incident.retainedCapAtto t.loaded.retained.byIncident

def FinalTotals.leakTotal (t : FinalTotals) : Int := (t.leak.map RevertLeak.total).getD 0

def FinalTotals.combined (t : FinalTotals) : Int :=
  t.existingTotal + t.retainedTotal + t.leakTotal

def loadLeakInput (sha256 : List Row → String) (loaded : Loaded) :
    Option RevertLeakInput → Except AuditError (Option RevertLeak)
  | none => .ok none
  | some input =>
    match input.summary with
    | none => .error (.valueError "--revert-leak-retention needs --revert-leak-summary")
    | some summary => do
      let caps ← retainedCaps py loaded.retained.rows
      let amounts ← existingAmounts py loaded.existing.rows
      let leak ← loadRevertLeak py sha256 input.file summary input.summaryPath caps amounts
      .ok (some leak)

/-- The script up to its final totals. -/
def finalTotals (sha256 : List Row → String) (inputs : Inputs) : Except AuditError FinalTotals := do
  let loaded ← load py inputs.inventories inputs.balances
  require (inputs.retainedSummary.block = loaded.verificationBlock)
    (.valueError "retained summary block does not match balance rows")
  require (inputs.retainedSummary.changedFromSep10 = 0)
    (.valueError "retained summary reports post-cutoff balance changes")
  let _ ← loaded.retained.byIncident.mapM (checkIncident inputs.retainedSummary)
  let gross ← raisePython (py.toPyText.parsed (some inputs.totalClaimAtto))
  let leak ← loadLeakInput py sha256 loaded inputs.revertLeak
  .ok ⟨loaded, gross, leak⟩

/-! ## The summary -/

structure AuditTotals where
  grossCutoffClaimAtto : String
  notIssuedAtto : String
  remainingFullClaimAfterNonIssuanceAtto : String

structure AuditSummary where
  status : String
  claimBlockShard0 : Int
  balanceVerificationBlock : Int
  balanceVerificationHash : String
  existingRows : Nat
  existingPositive : Nat
  existingNotIssuedAtto : String
  retainedPositive : Nat
  retainedNotIssuedAtto : String
  leakPositive : Nat
  leakOverlap : List String
  leakNotIssuedAtto : String
  totals : AuditTotals

/-- The rest of the script: the rows of the written file and the summary. -/
def main (sha256 : List Row → String) (inputs : Inputs)
    (outputCsv summaryOutput : RevertLeakRetention.Target) (replace : Bool) :
    Except AuditError (List Row × AuditSummary) := do
  let t ← finalTotals py sha256 inputs
  require (t.combined ≤ t.gross) (.valueError "combined non-issuance exceeds the gross cutoff claim")
  RevertLeakRetention.writeAtomic outputCsv replace
  match t.loaded.retained.rows with
  | [] => .error .indexError
  | first :: _ => do
    let claimBlock ← intField py.toPyText first "cutoff_block"
    RevertLeakRetention.writeAtomic summaryOutput replace
    .ok (t.loaded.retained.rows.insertionSort fun a b =>
        ((a.lookup "address_hex").join.getD "") ≤ ((b.lookup "address_hex").join.getD ""),
      { status := "passed"
        claimBlockShard0 := claimBlock
        balanceVerificationBlock := t.loaded.verificationBlock
        balanceVerificationHash := inputs.retainedSummary.blockHash
        existingRows := t.loaded.existing.rows.length
        existingPositive := KeyedTable.total Category.positiveRows t.loaded.existing.categories
        existingNotIssuedAtto := toString t.existingTotal
        retainedPositive := t.loaded.retained.rows.length
        retainedNotIssuedAtto := toString t.retainedTotal
        leakPositive := (t.leak.map fun leak => leak.seen.length).getD 0
        leakOverlap := (t.leak.map fun leak =>
          leak.overlapRetained.insertionSort fun a b => a ≤ b).getD []
        leakNotIssuedAtto := toString t.leakTotal
        totals := ⟨toString t.gross, toString t.combined, toString (t.gross - t.combined)⟩ })

end NonIssuanceTotals
