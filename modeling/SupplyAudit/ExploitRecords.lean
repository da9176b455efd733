import Mathlib.Data.List.Infix
import SupplyAudit.AuditFiles
import SupplyAudit.BatchReplies
import SupplyAudit.BlacklistedAddresses
import SupplyAudit.ExploitFlow
import SupplyAudit.PagedListing
import SupplyAudit.TablePublication

/-!
# The records of the exploit flow export

`historical-exploit-flow-export.py` keeps one record for every shard and
transaction hash. Two source audits fill it first; then the node completes the
records, and the histories of the incidents and a known path add others, which
are traced. The node's answers are a parameter, with their numbers as `int`
reads them.
-/

namespace ExploitRecords

open ScriptValues AuditFiles HarmonyAddress BlacklistedAddresses TraceInspection ExploitFlow
open BatchReplies PagedListing

/-! ## Scopes -/

structure IncidentScope where
  name : String
  root : String
  rootCutoff : Int
  contract : String
  drainStart : Int
  drainEnd : Int

/-- `INCIDENTS` -/
def incidentScopes : List IncidentScope :=
  [{ name := "may-2025"
     root := "0x68a0313e0919ab6f4574ab4f16477b776e096b43"
     rootCutoff := 73386866
     contract := "0x70a217631472a276976ab572d48959dc74f6065a"
     drainStart := 73386869
     drainEnd := 73386956 },
   { name := "april-2026"
     root := "0x113f0d7cfdcdf59be960905e0a86b09b28cc3cb6"
     rootCutoff := 87337195
     contract := "0x5d229bc02eae8c46225425a1dd7d37047b61c148"
     drainStart := 87337199
     drainEnd := 87337269 }]

def kucoinPathHashes : List String :=
  ["0xca05532a6b8a7c63d96b30ab58c9a2bae96c976cf0a91b3808806a29e65b8fac",
    "0x78acdfb9817c99414784cd029e97e99621e0259b303592dc5e24992fb92f74dc",
    "0xc7e8196bad209ffda9c7d5a46e58fcb3d5605aeb13b373a9c5a93da92927cac2",
    "0x250848d9ebfbd59be5a264f49867ea852d11c9b9da1157fb5adb18f9d7b53907",
    "0x24e75eabdcacc53331bd3537f303823e58c6ac43b11acaf02f2899ad005dce93",
    "0xd92bb9ad207dfde425531cea52ce3252b0122ee77f0d0f11bc28785c29fd5adb"]

/-! ## Records -/

/-- What the source audits have written about a transaction. -/
structure SourceAuditFields where
  receiptClassifications : List (Option String) := []
  classificationSources : List String := []
  replayClassifications : List String := []
  evidenceReferences : List String := []
  evidenceSha256 : List String := []
  receiptDirections : List String := []
  receiptCount : Nat := 0
  receiptAmountAtto : Int := 0
  precompileCalls : Int := 0
  failedPrecompilePaths : Int := 0
  deriving DecidableEq

/-- A record with all its fields; the trace counters are those of `Record`. -/
structure FullRecord extends Record where
  ethHash : String := ""
  timestampUnix : Int := 0
  sender : String := ""
  recipient : String := ""
  valueAtto : Int := 0
  nonce : Int := 0
  inputSelector : Option String := some ""
  status : String := ""
  audit : SourceAuditFields := {}
  deriving DecidableEq

abbrev FullRecords := List (Key × FullRecord)

/-- The text functions of the export. -/
structure ExportText extends FlowText where
  lower_lower : ∀ text, lower (lower text) = lower text

/-- On ASCII letters and plain numerals only. -/
def ExportText.ascii : ExportText where
  toFlowText := FlowText.ascii
  lower_lower := AuditText.ascii.lower_lower

variable (py : ExportText)

def blankRecord (shardId : Int) (transactionHash : String) (blockNumber : Int) : FullRecord where
  shardId := shardId
  blockNumber := blockNumber
  transactionIndex := 0
  transactionHash := py.lower transactionHash

def keyOf (shardId : Int) (transactionHash : String) : Key := ⟨shardId, py.lower transactionHash⟩

/-- `get_record`; the record is written back under its key. -/
def getRecord (records : FullRecords) (shardId : Int) (transactionHash : String)
    (blockNumber : Int) : FullRecord :=
  (records.lookup (keyOf py shardId transactionHash)).getD
    (blankRecord py shardId transactionHash blockNumber)

/-! ## The source audits -/

/-- `row.get(field)`, where a text without characters counts as none. -/
def presentText (row : Row) (field : String) : Option String :=
  (row.lookup field).join.filter (· ≠ "")

/-- `int(row.get(field) or 0)` -/
def intOrZero (row : Row) (field : String) : Except AuditError Int :=
  match presentText row field with
  | none => .ok 0
  | some text => raisePython (py.parsed (some text))

/-- `needle in text` -/
def contains (text needle : String) : Bool := needle.toList <:+: text.toList

def sourceBlock (row : Row) : Except AuditError Int :=
  match presentText row "audit_source_block", presentText row "signed_source_block" with
  | some text, _ => raisePython (py.parsed (some text))
  | none, some text => raisePython (py.parsed (some text))
  | none, none => intField py.toPyText row "source_block"

def incidentForSourceRow (row : Row) : Except AuditError String := do
  let address ← lowerField py.toPyText row "from"
  match incidentScopes.find? (·.root = address) with
  | some scope => .ok scope.name
  | none => do
    let classification ← raisePython (row.get "classification")
    if classification = some "rollback_leak" then .ok "smaller-2026"
    else if classification = some "source_debit_absent" then .ok "source-debit-absent"
    else .ok "valid-control"

/-- The methods that a classification source stands for. -/
def sourceMethods : Option String → List String
  | none => ["legacy-source-audit"]
  | some source =>
    (if contains source "independent" then ["independent-source-debit-evidence"] else []) ++
      (if contains source "compatible_replay" then ["compatible-source-replay"] else []) ++
      (if contains source "direct_transaction" then ["direct-source-transaction"] else []) ++
      (if source = "unresolved" then ["incompatible-or-inconclusive-source-replay"] else [])

/-- `for text in texts: target.add(text)` -/
def addAll (target texts : List String) : List String := texts.foldl (fun s t => s.insert t) target

/-- What a row of a source audit says about its receipt. -/
structure SourceRow where
  classification : Option String
  classificationSource : Option String
  replayClassification : Option String
  evidenceReference : Option String
  evidenceSha256 : Option String
  direction : String
  amountAtto : Int
  precompileCalls : Int
  failedPrecompilePaths : Int
  deriving DecidableEq

def SourceAuditFields.add (fields : SourceAuditFields) (row : SourceRow) : SourceAuditFields where
  receiptClassifications := fields.receiptClassifications.insert row.classification
  classificationSources := addAll fields.classificationSources row.classificationSource.toList
  replayClassifications := addAll fields.replayClassifications row.replayClassification.toList
  evidenceReferences := addAll fields.evidenceReferences row.evidenceReference.toList
  evidenceSha256 := addAll fields.evidenceSha256 row.evidenceSha256.toList
  receiptDirections := fields.receiptDirections.insert row.direction
  receiptCount := fields.receiptCount + 1
  receiptAmountAtto := fields.receiptAmountAtto + row.amountAtto
  precompileCalls := fields.precompileCalls + row.precompileCalls
  failedPrecompilePaths := fields.failedPrecompilePaths + row.failedPrecompilePaths

def readSourceRow (shardId : Int) (row : Row) : Except AuditError SourceRow := do
  let classification ← raisePython (row.get "classification")
  let amountAtto ← intField py.toPyText row "amount_atto"
  let precompileCalls ← intOrZero py row "precompile_call_count"
  let failedPrecompilePaths ← intOrZero py row "failed_precompile_path_count"
  .ok
    { classification := classification
      classificationSource := presentText row "classification_source"
      replayClassification := presentText row "replay_classification"
      evidenceReference := presentText row "independent_evidence_reference"
      evidenceSha256 := presentText row "independent_evidence_sha256"
      direction := toString shardId ++ "->" ++ toString (if shardId = 0 then (1 : Int) else 0)
      amountAtto := amountAtto
      precompileCalls := precompileCalls
      failedPrecompilePaths := failedPrecompilePaths }

/-- All that a row says about its transaction. -/
structure LoadedRow where
  incident : String
  source : SourceRow
  status : Option String
  sender : String
  recipient : String
  valueAtto : Int
  inputSelector : Option String

/-- `int(row.get("source_transaction_value_atto") or row["amount_atto"])` -/
def transactionValue (row : Row) : Except AuditError Int :=
  match presentText row "source_transaction_value_atto" with
  | some text => raisePython (py.parsed (some text))
  | none => intField py.toPyText row "amount_atto"

def readLoadedRow (shardId : Int) (row : Row) : Except AuditError LoadedRow := do
  let incident ← incidentForSourceRow py row
  let source ← readSourceRow py shardId row
  let sender ← lowerField py.toPyText row "source_transaction_from"
  let recipient ← lowerField py.toPyText row "source_transaction_to"
  let valueAtto ← transactionValue py row
  let inputSelector ← raisePython (row.get "source_input_selector")
  .ok
    { incident := incident
      source := source
      status := presentText row "source_transaction_status"
      sender := sender
      recipient := recipient
      valueAtto := valueAtto
      inputSelector := inputSelector }

def FullRecord.load (record : FullRecord) (row : LoadedRow) : FullRecord :=
  { record with
    roles := record.roles.insert "receipt-source"
    incidents := record.incidents.insert row.incident
    traceMethods := addAll (record.traceMethods.insert "existing-source-audit")
      (sourceMethods row.source.classificationSource)
    audit := record.audit.add row.source
    status := row.status.getD record.status
    sender := row.sender
    recipient := row.recipient
    valueAtto := row.valueAtto
    inputSelector := row.inputSelector }

/-- The body of the loop of `load_source_audit`. -/
def loadRow (shardId : Int) (records : FullRecords) (row : Row) :
    Except AuditError FullRecords := do
  let transactionHash ← lowerField py.toPyText row "source_transaction_hash"
  let blockNumber ← sourceBlock py row
  let loaded ← readLoadedRow py shardId row
  .ok (KeyedTable.set records (keyOf py shardId transactionHash)
    ((getRecord py records shardId transactionHash blockNumber).load loaded))

def loadSourceAudit (records : FullRecords) (rows : List Row) (shardId : Int) :
    Except AuditError FullRecords :=
  rows.foldlM (loadRow py shardId) records

/-! ## Transactions of the node -/

/-- A transaction as the node reports it; a missing field is `none`. -/
structure Transaction where
  shardId : Option Int := none
  blockNumber : Int
  transactionIndex : Option Int := none
  hash : String
  ethHash : Option String := none
  timestamp : Option Int := none
  sender : Option String := none
  recipient : Option String := none
  value : Option Int := none
  nonce : Option Int := none
  input : Option String := none
  deriving DecidableEq

structure Normalized where
  shardId : Int
  blockNumber : Int
  transactionIndex : Int
  transactionHash : String
  ethHash : String
  timestampUnix : Int
  sender : String
  recipient : String
  valueAtto : Int
  nonce : Int
  inputSelector : String
  status : String
  deriving DecidableEq

def normalizeTransaction (transaction : Transaction) (shardId : Int) :
    Except AuditError Normalized := do
  let sender ← raiseAddress (exportDecodeAddress py.lower transaction.sender)
  let recipient ← raiseAddress (exportDecodeAddress py.lower transaction.recipient)
  .ok
    { shardId := transaction.shardId.getD shardId
      blockNumber := transaction.blockNumber
      transactionIndex := transaction.transactionIndex.getD 0
      transactionHash := py.lower transaction.hash
      ethHash := py.lower (transaction.ethHash.getD "")
      timestampUnix := transaction.timestamp.getD 0
      sender := sender
      recipient := recipient
      valueAtto := transaction.value.getD 0
      nonce := transaction.nonce.getD 0
      inputSelector := String.ofList ((transaction.input.getD "").toList.take 10)
      status := "" }

/-- `merge_transaction`: what is known of the transaction is replaced, and what was found about it
is kept. -/
def mergeTransaction (record : FullRecord) (transaction : Normalized) : FullRecord :=
  { record with
    shardId := transaction.shardId
    blockNumber := transaction.blockNumber
    transactionIndex := transaction.transactionIndex
    transactionHash := transaction.transactionHash
    ethHash := transaction.ethHash
    timestampUnix := transaction.timestampUnix
    sender := transaction.sender
    recipient := transaction.recipient
    valueAtto := transaction.valueAtto
    nonce := transaction.nonce
    inputSelector := some transaction.inputSelector
    status := if record.status ≠ "" ∧ transaction.status = "" then record.status
      else transaction.status }

/-! ## Calls -/

inductive ExportError where
  | audit (err : AuditError)
  | flow (err : FlowError)
  | call (err : CallError)
  deriving DecidableEq

def retried : CallError → Bool
  | .connection _ => true
  | .reported _ => false
  | .other _ => false

def requestJson {β : Type} (attempts : Nat → Except CallError β) : Except CallError β :=
  retryIf retried attempts 0 5

/-- `rpc`; an error that the node reports is raised after the response has been read. -/
def rpc {β : Type} (method : String) (attempts : Nat → Except CallError β) :
    Except ExportError β :=
  match requestJson attempts with
  | .ok result => .ok result
  | .error (.reported text) => .error (.audit (.runtimeError (method ++ ": " ++ text)))
  | .error err => .error (.call err)

/-- The replies to a batch; a result may be missing or `null`. -/
abbrev Replies (β : Type) := List (Reply String (Option β))

def readReplies {β : Type} (method : String) (parameters : List String) (replies : Replies β) :
    Except ExportError (List (Option β)) :=
  answersAt (fun id => .audit (.keyError (toString id)))
    ((List.range parameters.length).map fun i : Nat => (i : Int))
    (replies.map fun reply => ⟨reply.id, reply.outcome.mapError fun text =>
      .audit (.runtimeError (method ++ ": " ++ text))⟩)

/-- `rpc_batch` -/
def rpcBatch {β : Type} (method : String) (chunkSize : Nat)
    (send : List String → Nat → Except CallError (Replies β)) (parameters : List String) :
    Except ExportError (List (Option β)) :=
  answerBatches chunkSize
    (fun chunk => do
      let replies ← (requestJson (send chunk)).mapError .call
      readReplies method chunk replies)
    parameters.length parameters

/-- What comes of each attempt of the calls of a run. -/
structure Archive where
  transactionByHash : Int → List String → Nat → Except CallError (Replies Transaction)
  transactionsHistory : String → String → Nat → Nat → Except CallError (List Transaction)
  transactionReceipt : List String → Nat → Except CallError (Replies (Option JsonValue))
  flow : ArchiveNode

variable (archive : Archive)

def pageSize : Nat := 1000

def pageBound : Nat := 1000

def transactionHistory (address txType : String) : Except ExportError (List Transaction) :=
  (scanPages (fun page => rpc "hmyv2_getTransactionsHistory"
      (archive.transactionsHistory address txType page))
    (short pageSize) (fun transactions batch => .ok (transactions ++ batch)) pageBound 0 []).getD
    (.error (.audit (.runtimeError
      ("transaction history exceeded pagination bound: " ++ address))))

/-! ## Completing and adding records -/

/-- The body of the loop of `enrich_records`. The records of a shard have keys of their own, so
each is still as it was when it was chosen. -/
def enrichRecord (shardId : Int) (records : FullRecords)
    (asked : (Key × FullRecord) × Option Transaction) : Except ExportError FullRecords :=
  match asked.2 with
  | none => .error (.audit (.runtimeError ("missing transaction " ++ asked.1.2.transactionHash)))
  | some transaction => do
    let normalized ← (normalizeTransaction py transaction shardId).mapError .audit
    .ok (KeyedTable.set records asked.1.1 (mergeTransaction asked.1.2 normalized))

def enrichShard (records : FullRecords) (shardId : Int) : Except ExportError FullRecords :=
  let shardRecords := records.filter fun entry => entry.1.shardId = shardId ∧ entry.2.ethHash = ""
  if shardRecords.isEmpty then .ok records
  else do
    let results ← rpcBatch "hmyv2_getTransactionByHash" 50 (archive.transactionByHash shardId)
      (shardRecords.map fun entry => entry.2.transactionHash)
    (shardRecords.zip results).foldlM (enrichRecord py shardId) records

def enrichRecords (records : FullRecords) : Except ExportError FullRecords :=
  [0, 1].foldlM (enrichShard py archive) records

/-- Records, and the keys of those that are to be traced. -/
structure Scoped where
  records : FullRecords
  traceKeys : List Key := []

def FullRecord.scope (record : FullRecord) (role incident : String) : FullRecord :=
  { record with
    roles := record.roles.insert role
    incidents := record.incidents.insert incident }

/-- A transaction of shard 0 is merged into its record, which gets a role. -/
def addScoped (role incident : String) (st : Scoped) (transaction : Transaction) :
    Except ExportError Scoped := do
  let normalized ← (normalizeTransaction py transaction 0).mapError .audit
  let record := getRecord py st.records 0 normalized.transactionHash normalized.blockNumber
  .ok
    { records := KeyedTable.set st.records (keyOf py 0 normalized.transactionHash)
        ((mergeTransaction record normalized).scope role incident)
      traceKeys := st.traceKeys.insert ⟨0, normalized.transactionHash⟩ }

/-- The body of the loop of `add_history_scopes`. -/
def addIncident (st : Scoped) (scope : IncidentScope) : Except ExportError Scoped := do
  let rootHistory ← transactionHistory archive scope.root "SENT"
  let st ← (rootHistory.filter fun t => ¬ t.blockNumber ≤ scope.rootCutoff).foldlM
    (addScoped py "root-post-mint" scope.name) st
  let contractHistory ← transactionHistory archive scope.contract "RECEIVED"
  (contractHistory.filter fun t =>
      scope.drainStart ≤ t.blockNumber ∧ t.blockNumber ≤ scope.drainEnd).foldlM
    (addScoped py "initial-distribution-call" scope.name) st

def addHistoryScopes (records : FullRecords) : Except ExportError Scoped :=
  incidentScopes.foldlM (addIncident py archive) { records := records }

/-- The body of the loop of `add_kucoin_path`. -/
def addPathTransaction (st : Scoped) (transaction : Option Transaction) :
    Except ExportError Scoped :=
  match transaction with
  | none => .error (.audit (.runtimeError "missing KuCoin path transaction"))
  | some transaction => addScoped py "confirmed-kucoin-path" "may-2025" st transaction

/-- `add_kucoin_path`; its keys join those of the histories. -/
def addKucoinPath (st : Scoped) : Except ExportError Scoped := do
  let results ← rpcBatch "hmyv2_getTransactionByHash" 50 (archive.transactionByHash 0)
    kucoinPathHashes
  results.foldlM (addPathTransaction py) st

/-! ## Tracing -/

/-- The part of the records that tracing and the distributions use. -/
def flowRecords (records : FullRecords) : Records := records.map (Prod.map id FullRecord.toRecord)

/-- The records after tracing. -/
def withTraced (records : FullRecords) (traced : Records) : FullRecords :=
  records.map fun entry =>
    (entry.1, { entry.2 with toRecord := (traced.lookup entry.1).getD entry.2.toRecord })

def traceRecords (order : List Key → List Key) (st : Scoped) :
    Except ExportError (FullRecords × List Edge) := do
  let (traced, edges) ← (traceTransactions py.toFlowText (flowRecords st.records) []
    (order st.traceKeys) archive.flow).mapError .flow
  .ok (withTraced st.records traced, edges)

def addReceiptStatus (records : FullRecords)
    (asked : (Key × FullRecord) × Option (Option JsonValue)) : FullRecords :=
  match asked.2 with
  | none => records
  | some status => KeyedTable.set records asked.1.1
      { asked.1.2 with status := (status.map JsonValue.text).getD "" }

def addReceiptStatuses (records : FullRecords) : Except ExportError FullRecords := do
  let candidates := records.filter fun entry =>
    "callTracer" ∈ entry.2.traceMethods ∧ entry.2.status = ""
  let results ← rpcBatch "hmyv2_getTransactionReceipt" 50 archive.transactionReceipt
    (candidates.map fun entry => entry.2.transactionHash)
  .ok ((candidates.zip results).foldl addReceiptStatus records)

/-! ## The export -/

structure Exported where
  records : FullRecords
  edges : List Edge
  head : String
  distributions : List (String × Summary)

/-- The records and edges of a run. The trace keys are a set, which is listed in an order of its
own before it is sorted. -/
def collectRecords (order : List Key → List Key) (shard0 shard1 : List Row) :
    Except ExportError (FullRecords × List Edge) := do
  let records ← (loadSourceAudit py [] shard0 0).mapError .audit
  let records ← (loadSourceAudit py records shard1 1).mapError .audit
  let records ← enrichRecords py archive records
  let st ← addHistoryScopes py archive records
  let st ← addKucoinPath py archive st
  let (records, edges) ← traceRecords py archive order st
  let records ← addReceiptStatuses archive records
  .ok (records, edges)

/-- What `main` collects before it writes its files. -/
def collect (order : List Key → List Key) (shard0 shard1 : List Row) :
    Except ExportError Exported := do
  let (records, edges) ← collectRecords py archive order shard0 shard1
  let (head, distributions) ← (distributionSummary py.toFlowText (flowRecords records) edges
    archive.flow).mapError .flow
  .ok ⟨records, edges, head, distributions⟩

/-- The order of the transaction rows. -/
def RowPrecedes (a b : FullRecord) : Prop :=
  a.shardId < b.shardId ∨ a.shardId = b.shardId ∧
    (a.blockNumber < b.blockNumber ∨ a.blockNumber = b.blockNumber ∧
      (a.transactionIndex < b.transactionIndex ∨
        a.transactionIndex = b.transactionIndex ∧ a.transactionHash ≤ b.transactionHash))

instance : DecidableRel RowPrecedes := fun a b =>
  inferInstanceAs (Decidable (a.shardId < b.shardId ∨ a.shardId = b.shardId ∧
    (a.blockNumber < b.blockNumber ∨ a.blockNumber = b.blockNumber ∧
      (a.transactionIndex < b.transactionIndex ∨
        a.transactionIndex = b.transactionIndex ∧ a.transactionHash ≤ b.transactionHash))))

/-- The records in the order of the transaction rows. -/
def listedRecords (records : FullRecords) : List FullRecord :=
  (records.map Prod.snd).insertionSort RowPrecedes

/-- `ENTITY_NOTES` -/
def entityTexts : List (String × String) :=
  [("0x15e5bf28ee8516bb8b4eed5f1a85bec970dd821c", "KuCoin-linked Harmony hot/payout wallet"),
    ("0x2933782b5a8d72f2754103d1489614f29bfa4625", "publicly attributed KuCoin wallet"),
    ("0xd6216fc19db775df9774a6e33526131da7d19a2c", "publicly attributed KuCoin wallet")]

def entityNotes (record : FullRecord) : String :=
  "; ".intercalate ([("from", record.sender), ("to", record.recipient)].filterMap fun field =>
    (entityTexts.lookup field.2).map fun note => field.1 ++ ": " ++ note)

/-- The texts of a set; `None` cannot be joined with texts. -/
def joinOptional (texts : List (Option String)) : Except AuditError String :=
  match texts.mapM id with
  | none => .error (.typeError "sequence item 0: expected str instance, NoneType found")
  | some texts => .ok (joinSorted texts)

/-- A JSON value in a cell. -/
def valueCell : JsonValue → String
  | .null => ""
  | value => value.text

/-- The columns of a transaction row. -/
def transactionRow (record : FullRecord) : Except AuditError (List (String × String)) := do
  let classifications ← joinOptional record.audit.receiptClassifications
  .ok
    [("incident", joinSorted record.incidents),
      ("shard_id", toString record.shardId),
      ("block_number", toString record.blockNumber),
      ("timestamp_unix", toString record.timestampUnix),
      ("transaction_index", toString record.transactionIndex),
      ("transaction_hash", record.transactionHash),
      ("eth_hash", record.ethHash),
      ("from", record.sender),
      ("to", record.recipient),
      ("value_atto", toString record.valueAtto),
      ("nonce", toString record.nonce),
      ("status", record.status),
      ("input_selector", record.inputSelector.getD ""),
      ("roles", joinSorted record.roles),
      ("trace_methods", joinSorted record.traceMethods),
      ("trace_root_error", valueCell record.traceRootError),
      ("trace_call_count", toString record.traceCallCount),
      ("trace_failed_call_count", toString record.traceFailedCallCount),
      ("trace_positive_value_edge_count", toString record.tracePositiveValueEdgeCount),
      ("trace_effective_value_edge_count", toString record.traceEffectiveValueEdgeCount),
      ("trace_effective_value_atto", toString record.traceEffectiveValueAtto),
      ("trace_selfdestruct_edge_count", toString record.traceSelfdestructEdgeCount),
      ("trace_selfdestruct_value_atto", toString record.traceSelfdestructValueAtto),
      ("receipt_count", toString record.audit.receiptCount),
      ("receipt_amount_atto", toString record.audit.receiptAmountAtto),
      ("receipt_classifications", classifications),
      ("receipt_directions", joinSorted record.audit.receiptDirections),
      ("source_audit_classification_sources", joinSorted record.audit.classificationSources),
      ("source_audit_replay_classifications", joinSorted record.audit.replayClassifications),
      ("source_audit_evidence_references", joinSorted record.audit.evidenceReferences),
      ("source_audit_evidence_sha256", joinSorted record.audit.evidenceSha256),
      ("source_audit_precompile_calls", toString record.audit.precompileCalls),
      ("source_audit_failed_precompile_paths", toString record.audit.failedPrecompilePaths),
      ("entity_notes", entityNotes record)]

/-- How many records have each of the texts, in the order of the texts. -/
def textCounts (texts : FullRecord → List String) (records : FullRecords) : List (String × Nat) :=
  TablePublication.sorted ((records.flatMap fun entry => texts entry.2).foldl
    (fun counts text => KeyedTable.update counts text 0 (· + 1)) [])

def kucoinWallet : String := "0x15e5bf28ee8516bb8b4eed5f1a85bec970dd821c"

def kucoinBoundary (records : FullRecords) : Int :=
  ((records.filter fun entry => "confirmed-kucoin-path" ∈ entry.2.roles ∧
    entry.2.recipient = kucoinWallet).map fun entry => entry.2.valueAtto).sum

def transactionRows (records : FullRecords) : Except AuditError (List (List (String × String))) :=
  (listedRecords records).mapM transactionRow

/-- The figures of the printed summary. -/
structure ExportSummary where
  transactionRows : Nat
  internalValueEdgeRows : Nat
  roleCounts : List (String × Nat)
  incidentCounts : List (String × Nat)
  confirmedKucoinBoundaryAtto : String

def exportSummary (out : Exported) : ExportSummary where
  transactionRows := (listedRecords out.records).length
  internalValueEdgeRows := out.edges.length
  roleCounts := textCounts (fun record => record.roles) out.records
  incidentCounts := textCounts (fun record => record.incidents) out.records
  confirmedKucoinBoundaryAtto := toString (kucoinBoundary out.records)

end ExploitRecords
