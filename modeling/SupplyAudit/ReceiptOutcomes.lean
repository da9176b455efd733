import SupplyAudit.CrossShardSupply

/-!
# What the scan decides about one record

The scan's verdict on a record does not look at the running totals. It is
stated here on its own, together with the effect of each verdict on the
totals, and the scan is shown to be the list of verdicts followed by that
effect. Facts about published totals then reduce to facts about verdicts.
-/

namespace ReceiptOutcomes

open ByteWords ReceiptKeys ChainDatabase FallibleScan CrossShardSupply

/-- A receipt group whose receipts passed the scan's checks. -/
structure Group where
  destination : UInt32
  blockNumber : UInt64
  blockHash : Hash
  receipts : List Receipt
  deriving DecidableEq

namespace Group

def amount (g : Group) : Int := groupAmount g.receipts

def listing (lib : Codec) (g : Group) : ReceiptGroup :=
  makeReceiptGroup lib g.destination g.blockNumber g.blockHash g.receipts g.amount

end Group

inductive Outcome where
  | skipped
  | empty
  | afterCutoff
  | nonCanonical
  | unsupported (g : Group)
  | spent (g : Group)
  | pending (g : Group)
  deriving DecidableEq

/-- The verdict on one supported group. -/
def groupVerdict (lib : Codec) (input : ScanInput) (destinationDB : Database) (g : Group) :
    Except ScanError Outcome :=
  (destinationLoop lib input g.destination destinationDB g.blockNumber g.receipts 0).map
    fun spent => if spent then .spent g else .pending g

/-- The verdict on a record whose source block is canonical and within the cutoff. -/
def canonicalVerdict (lib : Codec) (input : ScanInput) (destination : UInt32)
    (blockNumber : UInt64) (blockHash : Hash) (value : Bytes) : Except ScanError Outcome :=
  match lib.decodeReceipts value with
  | .error err => .error (.decodeGroup input.sourceShard blockNumber err)
  | .ok decoded =>
    match checkReceipts input.sourceShard destination blockNumber 0 decoded with
    | .error err => .error err
    | .ok receipts =>
      let g : Group := ⟨destination, blockNumber, blockHash, receipts⟩
      match input.destinations destination with
      | none => .ok (.unsupported g)
      | some destinationDB => groupVerdict lib input destinationDB g

/-- The verdict on a nonempty group within the source cutoff. -/
def sourceVerdict (lib : Codec) (input : ScanInput) (destination : UInt32)
    (blockNumber : UInt64) (blockHash : Hash) (value : Bytes) : Except ScanError Outcome :=
  match readCanonicalHash input.source blockNumber with
  | .error err => .error (.readSourceHash input.sourceShard blockNumber err)
  | .ok none => .error (.missingSourceHash input.sourceShard blockNumber)
  | .ok (some canonicalHash) =>
    if canonicalHash ≠ blockHash then .ok .nonCanonical
    else canonicalVerdict lib input destination blockNumber blockHash value

def verdict (lib : Codec) (input : ScanInput) (record : Record) : Except ScanError Outcome :=
  match receiptKeyParts record.1 with
  | none => .ok .skipped
  | some (destination, blockNumber, blockHash) =>
    if record.2 = [0xc0] then .ok .empty
    else if blockNumber > input.sourceCutoff then .ok .afterCutoff
    else sourceVerdict lib input destination blockNumber blockHash record.2

section Cases
variable {lib : Codec} {input : ScanInput} {record : Record}
variable {destination : UInt32} {blockNumber : UInt64} {blockHash : Hash}

theorem verdict_skipped (key : receiptKeyParts record.1 = none) :
    verdict lib input record = .ok .skipped := by
  rw [verdict, key]

theorem verdict_empty
    (key : receiptKeyParts record.1 = some (destination, blockNumber, blockHash))
    (empty : record.2 = [0xc0]) : verdict lib input record = .ok .empty := by
  simp only [verdict, key, if_pos empty]

theorem verdict_after
    (key : receiptKeyParts record.1 = some (destination, blockNumber, blockHash))
    (nonempty : record.2 ≠ [0xc0]) (after : blockNumber > input.sourceCutoff) :
    verdict lib input record = .ok .afterCutoff := by
  simp only [verdict, key, if_neg nonempty, if_pos after]

theorem verdict_within
    (key : receiptKeyParts record.1 = some (destination, blockNumber, blockHash))
    (nonempty : record.2 ≠ [0xc0]) (within : ¬ blockNumber > input.sourceCutoff) :
    verdict lib input record =
      sourceVerdict lib input destination blockNumber blockHash record.2 := by
  simp only [verdict, key, if_neg nonempty, if_neg within]

end Cases

/-- The effect of a verdict on the running totals. -/
def tally (lib : Codec) (t : MutableDirectionTotals) : Outcome → MutableDirectionTotals
  | .skipped => t
  | .empty => { t with emptyReceiptGroups := t.emptyReceiptGroups + 1 }
  | .afterCutoff => { t with afterCutoffGroups := t.afterCutoffGroups + 1 }
  | .nonCanonical => { t with nonCanonicalReceiptGroups := t.nonCanonicalReceiptGroups + 1 }
  | .unsupported g => { t with
      unsupportedReceiptGroups := t.unsupportedReceiptGroups + 1
      unsupportedReceiptCount := t.unsupportedReceiptCount + g.receipts.length
      unsupportedAmount := t.unsupportedAmount + g.amount
      unsupportedGroups := t.unsupportedGroups ++ [g.listing lib] }
  | .spent g => { t with
      canonicalReceiptGroups := t.canonicalReceiptGroups + 1
      spentReceiptGroups := t.spentReceiptGroups + 1
      spentReceiptCount := t.spentReceiptCount + g.receipts.length
      spentAmount := t.spentAmount + g.amount }
  | .pending g => { t with
      canonicalReceiptGroups := t.canonicalReceiptGroups + 1
      pendingReceiptGroups := t.pendingReceiptGroups + 1
      pendingReceiptCount := t.pendingReceiptCount + g.receipts.length
      pendingAmount := t.pendingAmount + g.amount
      pendingGroups := t.pendingGroups ++ [g.listing lib] }

/-- The scan's loop body is its verdict followed by the effect on the totals. -/
theorem scanRecord_eq (lib : Codec) (input : ScanInput) (t : MutableDirectionTotals)
    (record : Record) :
    scanRecord lib input t record = (verdict lib input record).map (tally lib t) := by
  rw [scanRecord, verdict]
  cases receiptKeyParts record.1 with
  | none => rfl
  | some parts =>
    obtain ⟨destination, blockNumber, blockHash⟩ := parts
    dsimp only
    by_cases hempty : record.2 = [0xc0]
    · simp only [if_pos hempty]
      rfl
    simp only [if_neg hempty]
    by_cases hafter : blockNumber > input.sourceCutoff
    · simp only [if_pos hafter]
      rfl
    simp only [if_neg hafter, sourceVerdict]
    cases readCanonicalHash input.source blockNumber with
    | error err => rfl
    | ok found =>
      cases found with
      | none => rfl
      | some canonicalHash =>
        dsimp only
        by_cases hne : canonicalHash ≠ blockHash
        · simp only [if_pos hne]
          rfl
        simp only [if_neg hne, canonicalVerdict]
        cases lib.decodeReceipts record.2 with
        | error err => rfl
        | ok decoded =>
          dsimp only
          cases checkReceipts input.sourceShard destination blockNumber 0 decoded with
          | error err => rfl
          | ok receipts =>
            dsimp only
            cases input.destinations destination with
            | none => rfl
            | some destinationDB =>
              dsimp only [groupVerdict]
              cases destinationLoop lib input destination destinationDB blockNumber receipts 0 with
              | error err => rfl
              | ok spent => cases spent <;> rfl

/-- The records the scan iterates over. -/
def iterated (input : ScanInput) : List Record := (input.source.newIterator receiptPrefix).1

def verdicts (lib : Codec) (input : ScanInput) : Except ScanError (List Outcome) :=
  (iterated input).mapM (verdict lib input)

/-- The totals built from a list of outcomes. -/
def tallied (lib : Codec) (input : ScanInput) (os : List Outcome) : MutableDirectionTotals :=
  os.foldl (tally lib) { sourceShard := input.sourceShard }

theorem foldlM_scanRecord (lib : Codec) (input : ScanInput) :
    (iterated input).foldlM (scanRecord lib input) { sourceShard := input.sourceShard } =
      (verdicts lib input).map (tallied lib input) :=
  foldlM_eq_mapM (scanRecord_eq lib input) _ _

/-- A successful scan publishes the tally of its verdicts. -/
theorem sumReceipts_ok_iff (lib : Codec) (input : ScanInput) (totals : DirectionTotals) :
    sumReceipts lib input = (totals, none) ↔
      (input.source.newIterator receiptPrefix).2 = none ∧
        ∃ os, verdicts lib input = .ok os ∧ (tallied lib input os).finish = totals := by
  have hfold := foldlM_scanRecord lib input
  rw [iterated] at hfold
  simp only [sumReceipts, hfold]
  cases verdicts lib input with
  | error err => simp [Except.map]
  | ok os => cases (input.source.newIterator receiptPrefix).2 <;> simp [Except.map]

/-- An aborted scan publishes no totals. -/
theorem sumReceipts_aborts_iff (lib : Codec) (input : ScanInput) :
    (∃ err, sumReceipts lib input = ({}, some err)) ↔
      Rejects (List.mapM (verdict lib input)) (iterated input) ∨
        (input.source.newIterator receiptPrefix).2 ≠ none := by
  have hfold := foldlM_scanRecord lib input
  rw [iterated] at hfold
  simp only [sumReceipts, hfold]
  change _ ↔ (∃ e, verdicts lib input = .error e) ∨ _
  cases verdicts lib input with
  | error err => simp [Except.map]
  | ok os => cases (input.source.newIterator receiptPrefix).2 <;> simp [Except.map]

theorem sumReceipts_ok_or_aborts (lib : Codec) (input : ScanInput) :
    (∃ totals, sumReceipts lib input = (totals, none)) ∨
      ∃ err, sumReceipts lib input = ({}, some err) := by
  rw [sumReceipts]
  split
  · exact Or.inr ⟨_, rfl⟩
  · split
    · exact Or.inr ⟨_, rfl⟩
    · exact Or.inl ⟨_, rfl⟩

/-- The databases and cutoffs of one scan, by their contents. -/
structure ScanStores where
  sourceShard : UInt32
  source : Store
  destinations : UInt32 → Option Store
  sourceCutoff : UInt64
  destinationCutoffs : UInt32 → Option UInt64

namespace ScanStores

/-- The scan over truthful storage. -/
def input (x : ScanStores) : ScanInput where
  sourceShard := x.sourceShard
  source := x.source.database
  destinations shard := (x.destinations shard).map Store.database
  sourceCutoff := x.sourceCutoff
  destinationCutoffs := x.destinationCutoffs

/-- The same scan over failing storage. -/
def faulty (x : ScanStores) (atSource : Faults) (atDestination : UInt32 → Faults) :
    ScanInput where
  sourceShard := x.sourceShard
  source := x.source.faulty atSource
  destinations shard := (x.destinations shard).map fun s => s.faulty (atDestination shard)
  sourceCutoff := x.sourceCutoff
  destinationCutoffs := x.destinationCutoffs

end ScanStores
end ReceiptOutcomes
