import Mathlib.Data.List.Dedup
import Mathlib.Data.List.Sort
import SupplyAudit.KeyedTable
import SupplyAudit.TraceInspection

/-!
# The exploit flow export

`historical-exploit-flow-export.py` traces the transactions of two incidents and
lists every call with a value as an edge. It compares what the incident contracts
paid out with what the recipients still hold.
-/

namespace ExploitFlow

open ScriptValues LabelledTrees TraceInspection

/-- `int(text, 16)`, and `int` of a JSON value that is neither a text nor a plain number. -/
structure FlowText extends PyText where
  hexInt : String → Option Int
  otherInt : String → Option Int

/-- A hexadecimal numeral after `0x`. -/
def readHex (text : String) : Option Int :=
  match text.toList with
  | '0' :: 'x' :: digits =>
    (digits.mapM hexValue).map fun values =>
      values.foldl (fun (n : Int) (value : UInt8) => n * 16 + value.toNat) 0
  | _ => none

/-- Plain numerals only, and no other value. -/
def FlowText.ascii : FlowText where
  toPyText := PyText.ascii
  hexInt := readHex
  otherInt _ := none

inductive FlowError where
  | value (err : PyError)
  | node (text : String)
  deriving DecidableEq

def FlowText.hex (py : FlowText) (text : String) : Except PyError Int :=
  (py.hexInt text).elim (.error (.invalidInteger text)) .ok

/-! ## Traces -/

structure FlowFrame extends CallFrame where
  value : Option JsonValue := none
  deriving DecidableEq

abbrev FlowTrace := LabelledTrees.Tree FlowFrame

/-- The value of a frame; a missing field is `"0x0"`. -/
def FlowText.frameValue (py : FlowText) (node : FlowFrame) : Except PyError Int :=
  match node.value.getD (.str "0x0") with
  | .str text => py.hex text
  | .null => .ok 0
  | .bool b => .ok (if b then 1 else 0)
  | .int n => .ok n
  | .other text truth => if truth then (py.otherInt text).elim (.error .typeError) .ok else .ok 0

/-- `node.get(field, "").lower()` -/
def FlowText.lowerField (py : FlowText) : Option JsonValue → Except PyError String
  | none => .ok (py.lower "")
  | some (.str text) => .ok (py.lower text)
  | some _ => .error .attributeError

/-- The part of a transaction record that tracing and the summary use. -/
structure Record where
  shardId : Int
  blockNumber : Int
  transactionIndex : Int
  transactionHash : String
  roles : List String := []
  incidents : List String := []
  traceMethods : List String := []
  traceRootError : JsonValue := .str ""
  traceCallCount : Nat := 0
  traceFailedCallCount : Nat := 0
  tracePositiveValueEdgeCount : Nat := 0
  traceEffectiveValueEdgeCount : Nat := 0
  traceEffectiveValueAtto : Int := 0
  traceSelfdestructEdgeCount : Nat := 0
  traceSelfdestructValueAtto : Int := 0
  deriving DecidableEq

/-- The pair by which the records are kept. -/
structure Key where
  shardId : Int
  transactionHash : String
  deriving DecidableEq

def Key.text (key : Key) : String :=
  "(" ++ toString key.shardId ++ ", '" ++ key.transactionHash ++ "')"

abbrev Records := List (Key × Record)

structure Edge where
  incident : String
  shardId : Int
  blockNumber : Int
  transactionHash : String
  edgeIndex : Nat
  depth : Nat
  callType : JsonValue
  sender : String
  recipient : String
  valueAtto : Int
  effective : Bool
  error : JsonValue
  positive : 0 < valueAtto
  deriving DecidableEq

/-- `";".join(sorted(texts))` -/
def joinSorted (texts : List String) : String := ";".intercalate (texts.insertionSort (· ≤ ·))

/-- `text.split(";")` -/
def splitText (text : String) : List String := (text.toList.splitOn ';').map String.ofList

/-- What `walk` changes outside of itself. -/
structure Walk where
  record : Record
  edges : List Edge
  edgeIndex : Nat
  deriving DecidableEq

structure WalkContext where
  failedAncestor : Bool
  depth : Nat

variable (py : FlowText)

def Record.countCall (record : Record) (node : FlowFrame) : Record :=
  { record with
    traceCallCount := record.traceCallCount + 1
    traceFailedCallCount := record.traceFailedCallCount + if node.failed then 1 else 0 }

def Record.countValue (record : Record) (effective selfdestruct : Bool) (value : Int) : Record :=
  { record with
    tracePositiveValueEdgeCount := record.tracePositiveValueEdgeCount + 1
    traceEffectiveValueEdgeCount :=
      record.traceEffectiveValueEdgeCount + if effective then 1 else 0
    traceEffectiveValueAtto := record.traceEffectiveValueAtto + if effective then value else 0
    traceSelfdestructEdgeCount :=
      record.traceSelfdestructEdgeCount + if selfdestruct then 1 else 0
    traceSelfdestructValueAtto :=
      record.traceSelfdestructValueAtto + if selfdestruct then value else 0 }

/-- `walk` on a node, without the loop over its children. -/
def enter (context : WalkContext) (node : FlowFrame) (walk : Walk) : Except PyError Walk := do
  let edgeIndex := walk.edgeIndex + 1
  let record := walk.record.countCall node
  let failed := context.failedAncestor || node.failed
  let value ← py.frameValue node
  if positive : 0 < value then
    let effective := !failed
    let callType := node.type.getD (.str "")
    let sender ← py.lowerField node.sender
    let recipient ← py.lowerField node.recipient
    .ok
      { record := record.countValue effective (effective && callType == .str "SELFDESTRUCT") value
        edges := walk.edges ++
          [{ incident := joinSorted record.incidents
             shardId := record.shardId
             blockNumber := record.blockNumber
             transactionHash := record.transactionHash
             edgeIndex := edgeIndex
             depth := context.depth
             callType := callType
             sender := sender
             recipient := recipient
             valueAtto := value
             effective := effective
             error := node.error.getD (.str "")
             positive := positive }]
        edgeIndex := edgeIndex }
  else
    .ok { walk with record := record, edgeIndex := edgeIndex }

def childContext (context : WalkContext) (node _child : FlowFrame) : WalkContext where
  failedAncestor := context.failedAncestor || node.failed
  depth := context.depth + 1

/-- The loop body of `trace_transactions` after the trace has been fetched. -/
def traceTransaction (record : Record) (edges : List Edge) (trace : FlowTrace) :
    Except PyError (Record × List Edge) := do
  let record :=
    { record with
      traceMethods := record.traceMethods.insert "callTracer"
      traceRootError := trace.label.error.getD (.str "") }
  let walk ← visit (fun context node (result : Except PyError Walk) =>
    result.bind (enter py context node)) childContext ⟨false, 0⟩ trace (.ok ⟨record, edges, 0⟩)
  .ok (walk.record, walk.edges)

/-- `records[key]` -/
def find (records : Records) (key : Key) : Except PyError Record :=
  (records.lookup key).elim (.error (.keyError key.text)) .ok

theorem find_eq_ok {records : Records} {key : Key} {record : Record} :
    find records key = .ok record ↔ records.lookup key = some record := by
  rw [find]
  cases records.lookup key <;> simp

/-- Block, index in the block and hash, in this order. -/
def Precedes (a b : Record × Key) : Prop :=
  a.1.blockNumber < b.1.blockNumber ∨ a.1.blockNumber = b.1.blockNumber ∧
    (a.1.transactionIndex < b.1.transactionIndex ∨
      a.1.transactionIndex = b.1.transactionIndex ∧ a.2.transactionHash ≤ b.2.transactionHash)

instance : DecidableRel Precedes := fun a b =>
  inferInstanceAs (Decidable (a.1.blockNumber < b.1.blockNumber ∨
    a.1.blockNumber = b.1.blockNumber ∧ (a.1.transactionIndex < b.1.transactionIndex ∨
      a.1.transactionIndex = b.1.transactionIndex ∧
        a.2.transactionHash ≤ b.2.transactionHash)))

/-- The answers of the node that the export asks. -/
structure ArchiveNode where
  trace : String → Except String FlowTrace
  blockNumber : Except String String
  balance : String → String → Except String String
  transactionCount : String → String → Except String String

/-- The body of the loop of `trace_transactions`. -/
def traceKey (node : ArchiveNode) (state : Records × List Edge) (key : Key) :
    Except FlowError (Records × List Edge) := do
  let record ← (find state.1 key).mapError .value
  let trace ← (node.trace record.transactionHash).mapError .node
  let traced ← (traceTransaction py record state.2 trace).mapError .value
  .ok (KeyedTable.set state.1 key traced.1, traced.2)

def orderKeys (records : Records) (traceKeys : List Key) : Except PyError (List Key) := do
  let keyed ← traceKeys.mapM fun key => do
    let record ← find records key
    .ok (record, key)
  .ok ((keyed.insertionSort Precedes).map Prod.snd)

/-- The keys are a set, listed here in the order in which the set serves them. -/
def traceTransactions (records : Records) (edges : List Edge) (traceKeys : List Key)
    (node : ArchiveNode) : Except FlowError (Records × List Edge) := do
  let ordered ← (orderKeys records traceKeys).mapError .value
  ordered.foldlM (traceKey py node) (records, edges)

/-! ## Distributions -/

structure Incident where
  name : String
  contract : String
  deriving DecidableEq

/-- The incidents with their contracts. -/
def incidents : List Incident :=
  [⟨"may-2025", "0x70a217631472a276976ab572d48959dc74f6065a"⟩,
    ⟨"april-2026", "0x5d229bc02eae8c46225425a1dd7d37047b61c148"⟩]

/-- The body of the loop over the edges. -/
def addEdge (records : Records) (incident : Incident) (received : List (String × Int))
    (edge : Edge) : Except PyError (List (String × Int)) :=
  if edge.effective ∧ edge.sender = incident.contract ∧ incident.name ∈ splitText edge.incident then
    do
      let record ← find records ⟨0, edge.transactionHash⟩
      if "initial-distribution-call" ∈ record.roles then
        .ok (KeyedTable.update received edge.recipient 0 fun amount => amount + edge.valueAtto)
      else
        .ok received
  else
    .ok received

/-- `batch_account_field`, the answers of the addresses in their order. -/
def batchAccountField (answer : String → String → Except String String) (addresses : List String)
    (block : String) : Except FlowError (List (String × Int)) :=
  addresses.mapM fun address => do
    let result ← (answer address block).mapError .node
    let field ← (py.hex result).mapError .value
    .ok (address, field)

structure Summary where
  recipients : Nat
  distributedAtto : String
  heldCapAtto : String
  movedOrSpentAtto : String
  intactCount : Nat
  zeroBalanceCount : Nat
  partialCount : Nat
  nonceZeroMovedCount : Nat
  noncePositiveMovedCount : Nat
  deriving DecidableEq

/-- The fields have an entry for every address that has received something. -/
def fieldOf (fields : List (String × Int)) (address : String) : Int :=
  (fields.lookup address).getD 0

def summarize (balances nonces : List (String × Int)) (received : List (String × Int)) : Summary :=
  let held := (received.map fun r => min r.2 (fieldOf balances r.1)).sum
  let distributed := (received.map Prod.snd).sum
  { recipients := received.length
    distributedAtto := toString distributed
    heldCapAtto := toString held
    movedOrSpentAtto := toString (distributed - held)
    intactCount := received.countP fun r => r.2 ≤ fieldOf balances r.1
    zeroBalanceCount := received.countP fun r => fieldOf balances r.1 = 0
    partialCount := received.countP fun r =>
      0 < fieldOf balances r.1 ∧ fieldOf balances r.1 < r.2
    nonceZeroMovedCount := received.countP fun r =>
      fieldOf balances r.1 < r.2 ∧ fieldOf nonces r.1 = 0
    noncePositiveMovedCount := received.countP fun r =>
      fieldOf balances r.1 < r.2 ∧ 0 < fieldOf nonces r.1 }

def distributionSummary (records : Records) (edges : List Edge) (node : ArchiveNode) :
    Except FlowError (String × List (String × Summary)) := do
  let head ← node.blockNumber.mapError .node
  let received ← incidents.mapM fun incident =>
    (edges.foldlM (addEdge records incident) []).mapError .value
  let addresses := ((received.flatMap fun r => r.map Prod.fst).dedup).insertionSort (· ≤ ·)
  let balances ← batchAccountField py node.balance addresses head
  let nonces ← batchAccountField py node.transactionCount addresses head
  .ok (head, (incidents.map Incident.name).zip (received.map (summarize balances nonces)))

/-- The retained total that `verify-reconciliation.py` takes from the summaries. -/
def retainedFromFlow (summaries : List (String × Summary)) : Except PyError Int := do
  let caps ← summaries.mapM fun s => py.parsed (some s.2.heldCapAtto)
  .ok caps.sum

end ExploitFlow
