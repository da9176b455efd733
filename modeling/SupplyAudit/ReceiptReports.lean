import SupplyAudit.HexText
import SupplyAudit.PendingReceipts
import SupplyAudit.PublishedTotals

/-!
# The receipt report as the ledger reads it

The report is a JSON document. Hashes and addresses are written as lower-case
hexadecimal text, and a list that was never appended to is `null`. The ledger
loads every report that the scan writes.
-/

namespace ReceiptReports

open ByteWords NumeralText HexText ReceiptKeys ChainDatabase FallibleScan KeyedTable ScriptValues
  CrossShardSupply ReceiptOutcomes PublishedTotals ActualSupplyLedger LedgerReaders PendingReceipts

/-- One entry of `receipts`; the ledger does not look at the transaction hash. -/
def receiptRow (receipt : ReceiptDetail) : Row :=
  [("transaction_hash", some (prefixedHex receipt.transactionHash.data)),
    ("to", some (prefixedHex receipt.recipient.data)),
    ("secure_key", some (prefixedHex receipt.secureKey.data)),
    ("amount_atto", some receipt.amountAtto)]

def reportGroup (group : ReceiptGroup) : ReportGroup := ⟨some (group.receipts.map receiptRow)⟩

def reportDirection (direction : DirectionTotals) : ReportDirection where
  pendingGroups :=
    if direction.pendingGroups = [] then none
    else some (direction.pendingGroups.map reportGroup)

/-- The fields of the report that the ledger reads. -/
def reportOf (summary : Summary) : ReceiptReport where
  directions := summary.directions.map reportDirection
  pendingActiveAtto := summary.pendingActiveAtto
  unsupportedPendingAtto := summary.unsupportedPendingAtto

/-- The pending receipts of both directions. -/
def pendingReceipts (summary : Summary) : List ReceiptDetail :=
  summary.directions.flatMap fun direction =>
    direction.pendingGroups.flatMap ReceiptGroup.receipts

theorem reportOf_receipts (summary : Summary) :
    (reportOf summary).receipts = (pendingReceipts summary).map receiptRow := by
  rw [ReceiptReport.receipts, reportOf, pendingReceipts, List.flatMap_map, List.map_flatMap]
  congr 1
  funext direction
  rw [reportDirection, List.map_flatMap]
  by_cases hempty : direction.pendingGroups = []
  · rw [if_pos hempty, hempty]
    rfl
  · rw [if_neg hempty, Option.getD_some, List.flatMap_map]
    rfl

/-! ## What a run reports -/

/-- A receipt as it is listed. -/
def detail (lib : Codec) (receipt : Receipt) : ReceiptDetail where
  transactionHash := receipt.txHash
  recipient := receipt.recipient
  secureKey := lib.keccak256 receipt.recipient.data
  amountAtto := toString receipt.amount

/-- A successful scan lists its pending receipts and publishes their sum. -/
theorem pending_of_ok {lib : Codec} {input : ScanInput} {totals : DirectionTotals}
    (h : sumReceipts lib input = (totals, none)) :
    ∃ rs : List Receipt,
      totals.pendingGroups.flatMap ReceiptGroup.receipts = rs.map (detail lib) ∧
        totals.pendingAmountAtto = toString (rs.map Receipt.amount).sum := by
  obtain ⟨-, os, -, rfl⟩ := (sumReceipts_ok_iff lib input totals).mp h
  refine ⟨(groupsIn .pending os).flatMap Group.receipts, ?_, ?_⟩
  · rw [List.map_flatMap, MutableDirectionTotals.finish]
    dsimp only
    rw [pendingGroups_tallied, List.flatMap_map]
    rfl
  · rw [sum_map_flatMap]
    exact congrArg toString (amount_tallied lib input os .pending)

/-- The receipts that the command reports, and the total it publishes. -/
theorem main_pending {lib : Codec} {flags : Flags} {shard0 shard1 : Database} {summary : Summary}
    (h : main lib flags shard0 shard1 = .ok summary) :
    ∃ rs : List Receipt, pendingReceipts summary = rs.map (detail lib) ∧
      summary.pendingActiveAtto = toString (rs.map Receipt.amount).sum := by
  rw [main] at h
  split at h
  · cases h
  split at h
  · cases h
  rename_i direction0 h0
  split at h
  · cases h
  rename_i direction1 h1
  obtain ⟨rs0, hlisted0, hamount0⟩ := pending_of_ok h0
  obtain ⟨rs1, hlisted1, hamount1⟩ := pending_of_ok h1
  split at h
  · cases h
  rename_i pending unsupported hadd
  cases h
  refine ⟨rs0 ++ rs1, ?_, ?_⟩
  · simp only [pendingReceipts, List.flatMap_cons, List.flatMap_nil, List.append_nil, hlisted0,
      hlisted1, List.map_append]
  · simp only [addDirections, hamount0, hamount1, readInt_toString] at hadd
    split at hadd
    · cases hadd
    · split at hadd
      · cases hadd
      · cases hadd
        rw [List.map_append, List.sum_append, zero_add]

/-! ## Loading the report -/

variable {py : PyText}

theorem receiptRow_key (receipt : ReceiptDetail) :
    rowKey py (receiptRow receipt) = .ok (prefixedHex receipt.secureKey.data) := by
  have hlower : py.lower (prefixedHex receipt.secureKey.data) =
      prefixedHex receipt.secureKey.data := by
    rw [py.lower_ascii _ (ascii_prefixedHex _), toLower_prefixedHex]
  rw [rowKey, bind_eq_ok]
  refine ⟨some (prefixedHex receipt.secureKey.data), rfl, ?_⟩
  rw [PyText.lowered, hlower]

/-- A listed receipt as the ledger takes it. -/
def claimOf (lib : Codec) (receipt : Receipt) : ReceiptClaim where
  key := prefixedHex (lib.keccak256 receipt.recipient.data).data
  address := prefixedHex receipt.recipient.data
  amount := receipt.amount

theorem readsReceipt (lib : Codec) (receipt : Receipt) :
    ReadsReceipt py (receiptRow (detail lib receipt)) (claimOf lib receipt) where
  key := receiptRow_key _
  address := rfl
  amount := ⟨toString receipt.amount, rfl, py.int_toString receipt.amount⟩
  nonneg := receipt.nonneg

theorem readsReceipts (lib : Codec) (rs : List Receipt) :
    List.Forall₂ (ReadsReceipt py) ((rs.map (detail lib)).map receiptRow)
      (rs.map (claimOf lib)) := by
  rw [List.map_map, List.forall₂_map_left_iff, List.forall₂_map_right_iff]
  exact List.forall₂_same.mpr fun receipt _ => readsReceipt lib receipt

end ReceiptReports
