import Mathlib.Data.List.Sort
import SupplyAudit.AuditFiles
import SupplyAudit.KeyedTable
import SupplyAudit.TraceInspection

/-!
# The summary of source audits

`summarize-cx-source-audit.py` adds up the receipts of several source audits by
final classification, by replay classification and by source shard. A receipt
that a second row lists stops it.
-/

namespace SourceAuditSummary

open ScriptValues FallibleScan KeyedTable TraceInspection AuditFiles

/-- `FINAL_CLASSIFICATIONS` -/
def finalClassifications : List Classification :=
  [.rollbackLeak, .sourceDebitAbsent, .validSourceDebit, .unclassified]

def finalClassification (text : String) : Option Classification :=
  finalClassifications.find? fun classification => classification.text = text

/-- The first named field of the row that has a text. -/
def required (row : Row) (names : List String) (path : String) : Except AuditError String :=
  match names.findSome? fun name => ((row.lookup name).join).filter fun text => text ≠ "" with
  | some text => .ok text
  | none => .error (.keyError (path ++ ": expected one of " ++ ", ".intercalate names))

variable (py : PyText)

def requiredInteger (row : Row) (names : List String) (path : String) : Except AuditError Int := do
  let text ← required row names path
  raisePython (py.parsed (some text))

/-- The key of a canonical receipt. -/
structure CanonicalKey where
  sourceShard : Int
  destinationShard : Int
  sourceBlock : Int
  sourceBlockHash : String
  receiptIndex : Int
  txHash : String
  deriving DecidableEq

/-- The key as the error for a repeated receipt shows it. -/
def CanonicalKey.text (key : CanonicalKey) : String :=
  "(" ++ ", ".intercalate [toString key.sourceShard, toString key.destinationShard,
    toString key.sourceBlock, "'" ++ key.sourceBlockHash ++ "'", toString key.receiptIndex,
    "'" ++ key.txHash ++ "'"] ++ ")"

def canonicalKey (path : String) (row : Row) : Except AuditError CanonicalKey := do
  let sourceShard ← requiredInteger py row
    ["audit_source_shard", "signed_source_shard", "source_shard"] path
  let destinationShard ← requiredInteger py row
    ["audit_destination_shard", "destination_shard", "to_shard"] path
  let sourceBlock ← requiredInteger py row
    ["audit_source_block", "signed_source_block", "source_block"] path
  let sourceBlockHash ← required row ["audit_source_block_hash", "signed_source_header_hash",
    "source_block_hash", "claimed_source_block_hash"] path
  let receiptIndex ← requiredInteger py row ["receipt_index"] path
  let txHash ← required row ["tx_hash"] path
  .ok ⟨sourceShard, destinationShard, sourceBlock, py.lower sourceBlockHash, receiptIndex,
    py.lower txHash⟩

/-! ## Counters -/

structure Counter where
  count : Nat := 0
  amountAtto : Int := 0
  deriving DecidableEq

/-- A counter of a key that starts at nothing. -/
def addCount {κ : Type} [DecidableEq κ] (table : List (κ × Counter)) (key : κ) (amount : Int) :
    List (κ × Counter) :=
  update table key {} fun counter => ⟨counter.count + 1, counter.amountAtto + amount⟩

structure SummaryState where
  seen : List CanonicalKey := []
  final : List (Classification × Counter) := finalClassifications.map fun c => (c, {})
  replay : List (String × Counter) := []
  bySourceShard : List (Int × List (Classification × Counter)) := []
  inputs : List (String × Nat) := []

/-- `row.get("replay_classification") or "legacy"` -/
def replayClassification (row : Row) : String :=
  (((row.lookup "replay_classification").join).filter fun text => text ≠ "").getD "legacy"

/-- The body of the loop over one file's rows. -/
def addRow (path : String) (st : SummaryState) (row : Row) : Except AuditError SummaryState := do
  let key ← canonicalKey py path row
  require (key ∉ st.seen)
    (.valueError (path ++ ": duplicate canonical receipt " ++ key.text))
  let amount ← requiredInteger py row ["amount_atto"] path
  let text ← required row ["classification"] path
  match finalClassification text with
  | none => .error (.valueError (path ++ ": unsupported final classification '" ++ text ++ "'"))
  | some classification =>
    .ok
      { st with
        seen := key :: st.seen
        final := addCount st.final classification amount
        replay := addCount st.replay (replayClassification row) amount
        bySourceShard := update st.bySourceShard key.sourceShard [] fun shard =>
          addCount shard classification amount }

def addFile (st : SummaryState) (file : CsvFile) : Except AuditError SummaryState := do
  let next ← file.rows.foldlM (addRow py file.path) st
  .ok { next with inputs := next.inputs ++ [(file.path, file.rows.length)] }

/-! ## The result -/

structure Summary where
  inputs : List (String × Nat)
  receipts : Nat
  byFinalClassification : List (String × Counter)
  byReplayClassification : List (String × Counter)
  bySourceShard : List (String × List (String × Counter))
  traceProvenRollbackLeakageAtto : Int
  canonicalStateProvenSourceDebitAbsenceAtto : Int
  unbackedCrossShardCreditAtto : Int
  unclassifiedAtto : Int

/-- Counters in the order of their names. -/
def encoded (table : List (String × Counter)) : List (String × Counter) :=
  table.insertionSort fun a b => a.1 ≤ b.1

def named (table : List (Classification × Counter)) : List (String × Counter) :=
  table.map fun entry => (entry.1.text, entry.2)

def amountOf (table : List (Classification × Counter)) (classification : Classification) : Int :=
  shareAt Counter.amountAtto table classification

def SummaryState.summary (st : SummaryState) : Summary where
  inputs := st.inputs
  receipts := st.seen.length
  byFinalClassification := encoded (named st.final)
  byReplayClassification := encoded st.replay
  bySourceShard := (st.bySourceShard.insertionSort fun a b => a.1 ≤ b.1).map fun entry =>
    (toString entry.1, encoded (named entry.2))
  traceProvenRollbackLeakageAtto := amountOf st.final .rollbackLeak
  canonicalStateProvenSourceDebitAbsenceAtto := amountOf st.final .sourceDebitAbsent
  unbackedCrossShardCreditAtto :=
    amountOf st.final .rollbackLeak + amountOf st.final .sourceDebitAbsent
  unclassifiedAtto := amountOf st.final .unclassified

def classify (files : List CsvFile) : Except AuditError Summary := do
  let st ← files.foldlM (addFile py) {}
  .ok st.summary

end SourceAuditSummary
