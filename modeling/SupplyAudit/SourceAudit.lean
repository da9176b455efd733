import Mathlib.Data.List.Sort
import SupplyAudit.AuditFiles
import SupplyAudit.KeyedTable
import SupplyAudit.TraceInspection

/-!
# The source audit

`cx-source-audit.py` selects canonical receipts from ledgers, asks a node for
the source transaction of each and classifies the debit, by the transaction
itself, by its replay or by independent evidence. The node's answers may differ
from call to call, so they are given by the place in the run.
-/

namespace SourceAudit

open NumeralText ScriptValues FallibleScan KeyedTable HarmonyAddress TraceInspection AuditFiles

variable (py : AuditText)

/-! ## Identities -/

/-- The first named field that the row has and that is not empty. -/
def rowField (row : Row) (names : List String) : Except AuditError (Option String) :=
  match names.findSome? fun name => (row.lookup name).filter fun cell => cell ≠ some "" with
  | some cell => .ok cell
  | none => .error (.keyError ("expected one of " ++ ", ".intercalate names))

def rowInteger (row : Row) (names : List String) : Except AuditError Int := do
  let cell ← rowField row names
  raisePython (py.parsed cell)

def rowText (row : Row) (names : List String) : Except AuditError (Option String) :=
  rowField row names

def isLowerHex (c : Char) : Bool := ('0' ≤ c ∧ c ≤ '9') ∨ ('a' ≤ c ∧ c ≤ 'f')

/-- `TX_HASH_RE.fullmatch` -/
def isHash (text : String) : Bool :=
  match text.toList with
  | '0' :: 'x' :: digits => digits.length = 64 ∧ digits.all isLowerHex
  | _ => false

/-- `SHA256_RE.fullmatch` -/
def isDigest (text : String) : Bool := text.length = 64 ∧ text.toList.all isLowerHex

def addressField (row : Row) (field : String) : Except AuditError String := do
  let cell ← raisePython (row.get field)
  raiseAddress (decodeAddress py.lower cell)

def receiptIdentity (row : Row) : Except AuditError ReceiptIdentity := do
  let sourceShard ← rowInteger py row ["audit_source_shard", "signed_source_shard", "source_shard"]
  let destinationShard ←
    rowInteger py row ["audit_destination_shard", "destination_shard", "to_shard"]
  let sourceBlock ← rowInteger py row ["audit_source_block", "signed_source_block", "source_block"]
  let blockHashCell ← rowText row ["audit_source_block_hash", "signed_source_header_hash",
    "source_block_hash", "claimed_source_block_hash"]
  let sourceBlockHash ← raisePython (py.lowered blockHashCell)
  let receiptIndex ← rowInteger py row ["receipt_index"]
  let txHashCell ← raisePython (row.get "tx_hash")
  let txHash ← raisePython (py.lowered txHashCell)
  let sender ← addressField py row "from"
  let recipient ← addressField py row "to"
  let amountCell ← raisePython (row.get "amount_atto")
  let amountAtto ← raisePython (py.parsed amountCell)
  require (isHash sourceBlockHash) (.valueError "source block hash is not a 32-byte hash")
  require (isHash txHash) (.valueError "receipt transaction hash is not a transaction hash")
  .ok ⟨sourceShard, destinationShard, sourceBlock, sourceBlockHash, receiptIndex, txHash, sender,
    recipient, amountAtto⟩

/-! ## Independent evidence -/

inductive DebitStatus where
  | absent
  | persisted
  deriving DecidableEq

def DebitStatus.text : DebitStatus → String
  | .absent => "absent"
  | .persisted => "persisted"

/-- `EVIDENCE_STATUS_CLASSIFICATION` -/
def DebitStatus.classification : DebitStatus → Classification
  | .absent => .sourceDebitAbsent
  | .persisted => .validSourceDebit

def debitStatus (text : String) : Option DebitStatus :=
  [DebitStatus.absent, DebitStatus.persisted].find? fun status => status.text = text

structure Evidence where
  sourceDebitStatus : DebitStatus
  type : String
  reference : String
  sha256 : String
  deriving DecidableEq

def Evidence.classification (e : Evidence) : Classification := e.sourceDebitStatus.classification

abbrev EvidenceTable := List (ReceiptIdentity × Evidence)

/-- An evidence file, and the digests of the artifacts its references name. -/
structure EvidenceFile where
  path : String
  rows : List Row
  artifact : String → Option String

def strippedField (row : Row) (field : String) : Except AuditError String := do
  let cell ← raisePython (row.get field)
  match cell with
  | none => .error (.attributeError "'NoneType' object has no attribute 'strip'")
  | some text => .ok (py.strip text)

def evidenceIdentity (place : String) (row : Row) : Except AuditError ReceiptIdentity := do
  let sourceShard ← rowInteger py row ["source_shard"]
  let destinationShard ← rowInteger py row ["destination_shard"]
  let sourceBlock ← rowInteger py row ["source_block"]
  let blockHashCell ← raisePython (row.get "source_block_hash")
  let sourceBlockHash ← raisePython (py.lowered blockHashCell)
  let receiptIndex ← rowInteger py row ["receipt_index"]
  let txHashCell ← raisePython (row.get "receipt_tx_hash")
  let txHash ← raisePython (py.lowered txHashCell)
  let sender ← addressField py row "from"
  let recipient ← addressField py row "to"
  let amountCell ← raisePython (row.get "amount_atto")
  let amountAtto ← raisePython (py.parsed amountCell)
  require (isHash sourceBlockHash)
    (.valueError (place ++ "source_block_hash is not a 32-byte hash"))
  require (isHash txHash) (.valueError (place ++ "receipt_tx_hash is not a transaction hash"))
  .ok ⟨sourceShard, destinationShard, sourceBlock, sourceBlockHash, receiptIndex, txHash, sender,
    recipient, amountAtto⟩

def evidenceOf (place : String) (artifact : String → Option String) (row : Row) :
    Except AuditError Evidence := do
  let statusCell ← raisePython (row.get "source_debit_status")
  let statusText ← raisePython (py.lowered statusCell)
  match debitStatus statusText with
  | none => .error (.valueError
      (place ++ "source_debit_status must be 'absent' or 'persisted'"))
  | some status => do
    let type ← strippedField py row "evidence_type"
    let reference ← strippedField py row "evidence_reference"
    let stripped ← strippedField py row "evidence_sha256"
    let digest := py.lower stripped
    require (type ≠ "" ∧ reference ≠ "")
      (.valueError (place ++ "evidence type and reference are required"))
    require (isDigest digest)
      (.valueError (place ++ "evidence_sha256 is not a SHA-256 digest"))
    match artifact reference with
    | none => .error (.valueError (place ++ "evidence artifact does not exist: " ++ reference))
    | some actual => do
      require (actual = digest)
        (.valueError (place ++ "evidence SHA-256 mismatch for " ++ reference))
      .ok ⟨status, type, reference, digest⟩

/-- The identity as the error for repeated evidence shows it. -/
def identityText (identity : ReceiptIdentity) : String :=
  let quoted (text : String) := "'" ++ text ++ "'"
  "(" ++ ", ".intercalate [toString identity.sourceShard, toString identity.destinationShard,
    toString identity.sourceBlock, quoted identity.sourceBlockHash,
    toString identity.receiptIndex, quoted identity.txHash, quoted identity.sender,
    quoted identity.recipient, toString identity.amountAtto] ++ ")"

/-- The body of the loop over one file's rows. -/
def addEvidence (file : EvidenceFile) (table : EvidenceTable) (numbered : Row × Nat) :
    Except AuditError EvidenceTable := do
  let place := rowPlace file.path numbered.2
  let identity ← evidenceIdentity py place numbered.1
  let evidence ← evidenceOf py place file.artifact numbered.1
  require (table.lookup identity = none)
    (.valueError (place ++ "duplicate evidence for " ++ identityText identity))
  .ok (table ++ [(identity, evidence)])

def loadIndependentEvidence (files : List EvidenceFile) : Except AuditError EvidenceTable :=
  files.foldlM (fun table file => file.rows.zipIdx.foldlM (addEvidence py file) table) []

/-! ## Selection -/

structure Args where
  output : String
  minSourceBlock : Int := 0
  maxSourceBlock : Option Int := none
  sourceShard : Option Int := none
  destinationShard : Option Int := none
  address : List String := []

/-- `row_integer` with a fallback for the fields that a ledger lacks. -/
def shardField (row : Row) (names : List String) (fallback : Option Int) (refused : String) :
    Except AuditError Int :=
  match rowInteger py row names with
  | .error (.keyError _) =>
    match fallback with
    | none => .error (.valueError refused)
    | some shard => .ok shard
  | result => result

/-- The sender of a row is among the selected addresses. -/
def addressSelected (args : Args) (row : Row) : Except AuditError Bool :=
  if args.address = [] then .ok true
  else do
    let cell ← raisePython (row.get "from")
    let sender ← raisePython (py.lowered cell)
    .ok (sender ∈ args.address.map py.lower)

/-- The row with its audit fields, if it is selected. -/
def selectRow (args : Args) (path : String) (row : Row) : Except AuditError (Option Row) := do
  let sourceBlock ← rowInteger py row ["signed_source_block", "source_block"]
  let blockHashCell ← rowText row
    ["signed_source_header_hash", "source_block_hash", "claimed_source_block_hash"]
  let sourceBlockHash ← raisePython (py.lowered blockHashCell)
  let sourceShard ← shardField py row ["signed_source_shard", "source_shard"] args.sourceShard
    (path ++ ": source shard is absent; pass --source-shard")
  let destinationShard ← shardField py row ["destination_shard", "to_shard"] args.destinationShard
    (path ++ ": destination shard is absent; pass --destination-shard")
  if sourceBlock < args.minSourceBlock ∨ (∃ most ∈ args.maxSourceBlock, most < sourceBlock) ∨
      (∃ shard ∈ args.sourceShard, sourceShard ≠ shard) ∨
      (∃ shard ∈ args.destinationShard, destinationShard ≠ shard) then .ok none
  else do
    let selected ← addressSelected py args row
    if selected then
      .ok (some ([("receipt_file", path), ("audit_source_block", toString sourceBlock),
        ("audit_source_block_hash", sourceBlockHash), ("audit_source_shard", toString sourceShard),
        ("audit_destination_shard", toString destinationShard)].foldl
          (fun (row : Row) (field : String × String) => set row field.1 (some field.2)) row))
    else .ok none

def selectRows (args : Args) (ledgers : List CsvFile) : Except AuditError (List Row) := do
  let chosen ← (ledgers.flatMap fun ledger => ledger.rows.map fun row => (ledger.path, row)).mapM
    fun (path, row) => selectRow py args path row
  .ok (chosen.filterMap id)

/-- `int(row["audit_source_block"])`, which the selection has set. -/
def sortKey (row : Row) : Int :=
  match rowInteger py row ["audit_source_block"] with
  | .ok block => block
  | .error _ => 0

def sortRows (rows : List Row) : List Row :=
  rows.insertionSort fun a b => sortKey py a ≤ sortKey py b

/-! ## One receipt -/

structure Transaction where
  hash : String
  ethHash : String
  sender : Option String
  recipient : Option String
  shardID : Int
  toShardID : Int
  value : String
  input : String

/-- The node's answers at one place of the run; a failed call gives an error. -/
structure Node where
  transactionByHash : Nat → String → Except AuditError (Option Transaction)
  transactionReceipt : Nat → String → Except AuditError (Option Int)
  traceTransaction : Nat → String → Except AuditError Trace

def resolveClassification (direct : Option Classification) (replay : Classification)
    (evidence : Option Evidence) :
    Except AuditError (Classification × String × Option Classification) :=
  let replayFinal := direct.getD replay
  match evidence with
  | some evidence =>
    let status := evidence.sourceDebitStatus
    if (replayFinal = .validSourceDebit ∧ status = .absent) ∨
        (replayFinal = .rollbackLeak ∧ status = .persisted) then
      .error (.valueError ("independent source-debit evidence conflicts with " ++
        replayFinal.text ++ " classification"))
    else if replayFinal = .rollbackLeak ∨ replayFinal = .validSourceDebit then
      .ok (replayFinal,
        if direct.isSome then "direct_transaction_and_independent_evidence"
        else "compatible_replay_and_independent_evidence", some evidence.classification)
    else .ok (evidence.classification, "independent_source_debit_evidence",
      some evidence.classification)
  | none =>
    if replayFinal = .rollbackLeak ∨ replayFinal = .sourceDebitAbsent ∨
        replayFinal = .validSourceDebit then
      .ok (replayFinal, if direct.isSome then "direct_transaction" else "compatible_replay", none)
    else .ok (.unclassified, "unresolved", none)

/-- How the source transaction of a receipt was judged. -/
structure Judgement where
  direct : Option Classification
  replay : Classification
  traceRootError : Option JsonValue
  replayStatus : String
  replayCompatible : String
  replayIssue : String
  inspection : List String
  trace : Option Trace

def inspectionFields : List String :=
  ["precompile_call_count", "completed_precompile_call_count", "precompile_payload_match_count",
    "completed_precompile_payload_match_count", "failed_precompile_path_count",
    "failed_matching_precompile_path_count"]

/-- A transaction that itself debits the source is not traced. -/
def judgeDirect (sourceTo : String) (receiptStatus : Int) : Judgement where
  direct := if receiptStatus = 1 then some .validSourceDebit else none
  replay := if receiptStatus = 1 then .notTraced else .receiptInconsistent
  traceRootError := none
  replayStatus := ""
  replayCompatible := if receiptStatus = 1 then "" else "False"
  replayIssue := if receiptStatus = 1 then ""
    else "canonical outgoing receipt has a failed direct source transaction status"
  inspection := [if sourceTo = cxPrecompile then "1" else "0", "", "", "", "0", "0"]
  trace := none

def judgeReplay (identity : ReceiptIdentity) (receiptStatus : Int) (trace : Trace) : Judgement :=
  let inspection := inspectTrace py identity trace
  let replay := classifyReplay receiptStatus trace.label inspection
  { direct := none
    replay := replay.classification
    traceRootError := trace.label.error
    replayStatus := toString replay.status
    replayCompatible := if replay.compatible then "True" else "False"
    replayIssue := replay.issue
    inspection := [inspection.precompileCallCount, inspection.completedPrecompileCallCount,
      inspection.precompilePayloadMatchCount, inspection.completedPrecompilePayloadMatchCount,
      inspection.failedPrecompilePathCount,
      inspection.failedMatchingPrecompilePathCount].map fun (n : Nat) => toString n
    trace := some trace }

def judge (node : Node) (index : Nat) (identity : ReceiptIdentity) (transaction : Transaction)
    (sourceTo : String) (receiptStatus : Int) : Except AuditError Judgement :=
  if sourceTo = cxPrecompile ∨ transaction.shardID ≠ transaction.toShardID then
    .ok (judgeDirect sourceTo receiptStatus)
  else do
    let trace ← node.traceTransaction index transaction.hash
    .ok (judgeReplay py identity receiptStatus trace)

/-- A receipt with everything that was found out about it. -/
structure Audited where
  row : Row
  identity : ReceiptIdentity
  evidence : Option Evidence
  transaction : Transaction
  sourceTo : String
  sourceFrom : String
  receiptStatus : Int
  judgement : Judgement
  classification : Classification
  classificationSource : String
  evidenceClassification : Option Classification

/-- A failed stored receipt is not overridden by evidence. -/
def evidenceRefused (txHash : String) : AuditError :=
  .valueError (txHash ++ ": independent evidence cannot override a failed stored source " ++
    "transaction receipt")

def prefixError (txHash : String) : Except AuditError α → Except AuditError α
  | .error (.valueError text) => .error (.valueError (txHash ++ ": " ++ text))
  | result => result

/-- The body of the loop over selected rows, up to the classification. -/
def examine (node : Node) (table : EvidenceTable) (index : Nat) (row : Row) :
    Except AuditError Audited := do
  let identity ← receiptIdentity py row
  let evidence := table.lookup identity
  let txHashCell ← raisePython (row.get "tx_hash")
  let txHash := txHashCell.getD ""
  let found ← node.transactionByHash index txHash
  match found with
  | none => .error (.runtimeError ("source transaction missing: " ++ txHash))
  | some transaction => do
    require (py.lower txHash ∈ [py.lower transaction.hash, py.lower transaction.ethHash])
      (.runtimeError ("source transaction hash mismatch: " ++ txHash))
    let sourceTo ← raiseAddress (decodeAddress py.lower transaction.recipient)
    let receipt ← node.transactionReceipt index transaction.hash
    match receipt with
    | none => .error (.runtimeError ("source transaction receipt missing: " ++ transaction.hash))
    | some receiptStatus => do
      let judgement ← judge py node index identity transaction sourceTo receiptStatus
      require (¬ (evidence.isSome ∧ receiptStatus ≠ 1)) (evidenceRefused txHash)
      let (classification, source, evidenceClassification) ← prefixError txHash
        (resolveClassification judgement.direct judgement.replay evidence)
      let sourceFrom ← raiseAddress (decodeAddress py.lower transaction.sender)
      .ok ⟨row, identity, evidence, transaction, sourceTo, sourceFrom, receiptStatus, judgement,
        classification, source, evidenceClassification⟩

/-! ## The run -/

abbrev Totals := List (Classification × Int)

/-- `totals[classification] += amount` -/
def addTotal (totals : Totals) (classification : Classification) (amount : Int) :
    Except AuditError Totals :=
  match totals.lookup classification with
  | none => .error (.keyError classification.text)
  | some value => .ok (set totals classification (value + amount))

structure RunState where
  totals : Totals := [(.rollbackLeak, 0), (.sourceDebitAbsent, 0), (.validSourceDebit, 0),
    (.unclassified, 0)]
  replayTotals : Totals := [(.rollbackLeak, 0), (.validSourceDebit, 0), (.replayIncompatible, 0),
    (.receiptInconsistent, 0), (.unclassified, 0), (.notTraced, 0)]
  evidenceCount : Nat := 0
  evidenceAmount : Int := 0
  usedEvidenceKeys : List ReceiptIdentity := []
  outputRows : List Row := []

/-- The selector of the input: its first ten characters. -/
def inputSelector (input : String) : String := String.ofList (input.toList.take 10)

/-- `trace.get("error", "")` as a cell. -/
def errorCell : Option JsonValue → String
  | none => ""
  | some .null => ""
  | some value => value.text

def Audited.output (a : Audited) : Row :=
  ([("source_transaction_hash", a.transaction.hash),
    ("source_transaction_from", a.sourceFrom),
    ("source_transaction_to", a.sourceTo),
    ("source_transaction_value_atto", a.transaction.value),
    ("source_transaction_status", toString a.receiptStatus),
    ("source_input_selector", inputSelector a.transaction.input),
    ("trace_root_error", errorCell a.judgement.traceRootError),
    ("replay_status", a.judgement.replayStatus),
    ("replay_compatible", a.judgement.replayCompatible),
    ("replay_issue", a.judgement.replayIssue)] ++
    inspectionFields.zip a.judgement.inspection ++
    [("replay_classification", a.judgement.replay.text),
    ("independent_evidence_classification",
      (a.evidenceClassification.map Classification.text).getD ""),
    ("independent_source_debit_status",
      (a.evidence.map fun e => e.sourceDebitStatus.text).getD ""),
    ("independent_evidence_type", (a.evidence.map Evidence.type).getD ""),
    ("independent_evidence_reference", (a.evidence.map Evidence.reference).getD ""),
    ("independent_evidence_sha256", (a.evidence.map Evidence.sha256).getD ""),
    ("classification_source", a.classificationSource),
    ("classification", a.classification.text)]).foldl
      (fun (row : Row) (field : String × String) => set row field.1 (some field.2)) a.row

/-- The rest of the loop body. -/
def record (st : RunState) (a : Audited) : Except AuditError RunState := do
  let totals ← addTotal st.totals a.classification a.identity.amountAtto
  let replayTotals ← addTotal st.replayTotals a.judgement.replay a.identity.amountAtto
  .ok
    { totals := totals
      replayTotals := replayTotals
      evidenceCount := st.evidenceCount + if a.evidence.isSome then 1 else 0
      evidenceAmount := st.evidenceAmount + if a.evidence.isSome then a.identity.amountAtto else 0
      usedEvidenceKeys :=
        if a.evidence.isSome then a.identity :: st.usedEvidenceKeys else st.usedEvidenceKeys
      outputRows := st.outputRows ++ [a.output] }

def auditRow (node : Node) (table : EvidenceTable) (st : RunState) (numbered : Row × Nat) :
    Except AuditError RunState := do
  let a ← examine py node table numbered.2 numbered.1
  record st a

structure Summary where
  receipts : Nat
  totals : Totals
  replayTotals : Totals
  independentEvidenceReceipts : Nat
  independentEvidenceAtto : Int
  independentEvidenceSupplied : Nat

structure Output where
  fields : List String
  rows : List Row
  summary : Summary

/-- The field names of the written file: those of its first row. -/
def outputFields (rows : List Row) : List String := (rows.head?.map fun row => row.map Prod.fst).getD []

def main (args : Args) (node : Node) (outputExists : Bool) (evidenceFiles : List EvidenceFile)
    (ledgers : List CsvFile) : Except AuditError Output := do
  let table ← loadIndependentEvidence py evidenceFiles
  let selected ← selectRows py args ledgers
  let rows := sortRows py selected
  let keys ← rows.mapM (receiptIdentity py)
  require keys.Nodup (.valueError "duplicate canonical receipt rows in selected inputs")
  let st ← rows.zipIdx.foldlM (auditRow py node table) {}
  let unused := (table.map Prod.fst).filter fun key => key ∉ st.usedEvidenceKeys
  require (unused = []) (.valueError (toString unused.length ++
    " independent evidence rows did not match the selected canonical receipts"))
  require (outputExists = false) (.fileExists args.output)
  let fields := outputFields st.outputRows
  require (∀ row ∈ st.outputRows, ∀ cell ∈ row, cell.1 ∈ fields)
    (.valueError "dict contains fields not in fieldnames")
  .ok ⟨fields, st.outputRows, ⟨rows.length, st.totals, st.replayTotals, st.evidenceCount,
    st.evidenceAmount, table.length⟩⟩

end SourceAudit
