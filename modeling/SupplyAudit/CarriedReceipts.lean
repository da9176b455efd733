import SupplyAudit.IntervalAudit
import SupplyAudit.LaterCutoffs
import SupplyAudit.ReceiptAccounting

/-!
# Carrying a receipt report forward

`verify-pending-receipts.py` publishes an earlier report for later cutoffs. It
wants an interval of shard 0 without cross-shard transactions and asks one node
about every pending receipt. That node answers for the receipts to shard 0;
receipts to shard 1, new receipts of shard 1 and receipts made inside same-shard
transactions are looked at by nothing.
-/

namespace CarriedReceipts

open ByteWords NumeralText ScriptValues ReceiptKeys ChainDatabase FallibleScan AuditFiles
open CrossShardSupply ReceiptOutcomes DestinationView SourceRecords ReceiptClassification
  ReceiptAccounting CutConsistency LaterCutoffs IntervalAudit

/-! ## The script -/

/-- `int(value, 16)` and the one call of the script, after its retries. -/
structure ReceiptNode where
  hex : String → Option Int
  getCXReceiptByHash : String → Except AuditError (Option Transaction)

/-- `block_number`: texts are hexadecimal. -/
def blockNumber (node : ReceiptNode) (receipt : Transaction) : Except AuditError Int :=
  match firstValue receipt ["blockNumber", "block_number"] with
  | none | some .null => .error (.valueError "CX receipt has no block number")
  | some (.number value) => .ok value
  | some (.text value) =>
    match node.hex value with
    | none => .error (.valueError
        ("invalid literal for int() with base 16: '" ++ value ++ "'"))
    | some block => .ok block

structure CheckedReceipt where
  transactionHash : String
  result : String
  consumedBlock : Option Int
  deriving DecidableEq

/-- `block_number(consumed) if consumed else None` -/
def consumedBlock (node : ReceiptNode) (consumed : Option Transaction) :
    Except AuditError (Option Int) :=
  match consumed with
  | none => .ok none
  | some [] => .ok none
  | some receipt => do
    let block ← blockNumber node receipt
    .ok (some block)

/-- The body of the loop over the pending receipts. -/
def checkReceipt (node : ReceiptNode) (shard0Cutoff : Int) (receipt : ReceiptDetail) :
    Except AuditError CheckedReceipt := do
  let txHash := ScanError.hashText receipt.transactionHash
  let consumed ← node.getCXReceiptByHash txHash
  let block ← consumedBlock node consumed
  require (∀ n ∈ block, ¬ n ≤ shard0Cutoff)
    (.valueError ("previously pending receipt " ++ txHash ++ " was consumed at block " ++
      toString (block.getD 0)))
  .ok ⟨txHash, if consumed = none then "not_found" else "consumed_after_cutoff", block⟩

structure Args where
  shard0Cutoff : Int
  shard1Cutoff : Int
  outputFree : Bool

structure CarriedReport where
  report : CrossShardSupply.Summary
  shard0Block : Int
  shard1Block : Int
  newCrossShardTransactions : Nat
  pendingReceiptResults : List CheckedReceipt

def pendingReceipts (report : CrossShardSupply.Summary) : List ReceiptDetail :=
  report.directions.flatMap fun totals => totals.pendingGroups.flatMap ReceiptGroup.receipts

def main (node : ReceiptNode) (args : Args) (original : CrossShardSupply.Summary)
    (interval : IntervalAudit.Summary) : Except AuditError CarriedReport := do
  require (args.outputFree = true) (.fileExists "output")
  require (interval.start = 93529888 ∧ interval.stop = args.shard0Cutoff)
    (.valueError "unexpected shard-0 interval")
  require (interval.crossShardTransactions = 0)
    (.valueError "new cross-shard source transactions require full reclassification")
  let checked ← (pendingReceipts original).mapM (checkReceipt node args.shard0Cutoff)
  .ok ⟨original, args.shard0Cutoff, args.shard1Cutoff, 0, checked⟩

/-! ## Acceptance -/

/-- The node returns the application of a receipt on its shard. -/
def Answers (lib : Codec) (s : Store) (node : ReceiptNode) : Prop :=
  ∀ txHash block, AppliedAt lib s txHash block → ∃ consumed,
    node.getCXReceiptByHash (ScanError.hashText txHash) = .ok (some consumed) ∧
      consumed ≠ [] ∧ blockNumber node consumed = .ok (block.toNat : Int)

theorem main_ok {node : ReceiptNode} {args : Args} {original : CrossShardSupply.Summary}
    {interval : IntervalAudit.Summary} {published : CarriedReport}
    (h : main node args original interval = .ok published) :
    interval.crossShardTransactions = 0 ∧ published.report = original ∧
      ∀ receipt ∈ pendingReceipts original, ∃ checked,
        checkReceipt node args.shard0Cutoff receipt = .ok checked := by
  simp only [main, bind_eq_ok, require_ok] at h
  obtain ⟨-, -, -, -, -, hzero, checked, hchecked, hpublished⟩ := h
  cases hpublished
  refine ⟨hzero, rfl, fun receipt hreceipt => ?_⟩
  obtain ⟨c, -, hc⟩ := mapM_ok_left hchecked hreceipt
  exact ⟨c, hc⟩

/-- A receipt that the script lets pass is not applied within the shard-0 cutoff. -/
theorem not_applied_of_checked {lib : Codec} {s : Store} {node : ReceiptNode}
    (hanswers : Answers lib s node) {cutoff : UInt64} {receipt : ReceiptDetail}
    {checked : CheckedReceipt}
    (h : checkReceipt node (cutoff.toNat : Int) receipt = .ok checked) {block : UInt64}
    (happ : AppliedAt lib s receipt.transactionHash block) : ¬ block ≤ cutoff := by
  obtain ⟨consumed, hget, hne, hblock⟩ := hanswers _ _ happ
  have hconsumed : consumedBlock node (some consumed) = .ok (some (block.toNat : Int)) := by
    cases consumed with
    | nil => exact absurd rfl hne
    | cons field rest =>
      rw [consumedBlock, hblock, bind_ok]
      nofun
  simp only [checkReceipt, hget, bind_ok, hconsumed, bind_eq_ok, require_ok] at h
  obtain ⟨-, hlater, -⟩ := h
  intro hle
  refine hlater _ rfl ?_
  exact_mod_cast UInt64.le_iff_toNat_le.mp hle

/-! ## The later scan -/

def laterFlags (flags : Flags) (shard0Cutoff shard1Cutoff : UInt64) : Flags :=
  { flags with shard0Cutoff := shard0Cutoff, shard1Cutoff := shard1Cutoff }

theorem direction_later {flags : Flags} {shard0 shard1 : Store} {b0 b1 : UInt64}
    (h0 : flags.shard0Cutoff ≤ b0) (h1 : flags.shard1Cutoff ≤ b1) (sourceShard : UInt32) :
    Later (direction flags shard0 shard1 sourceShard)
      (direction (laterFlags flags b0 b1) shard0 shard1 sourceShard) := by
  constructor
  case sourceShard => rfl
  case source => rfl
  case destinations => rfl
  case sourceCutoff =>
    simp only [direction, laterFlags]
    split
    · exact h0
    · exact h1
  case destinationCutoffs =>
    intro shard cutoff hcutoff
    simp only [direction, laterFlags] at hcutoff ⊢
    split at hcutoff
    · rename_i hshard
      rw [if_pos hshard]
      exact ⟨b0, rfl, Option.some.inj hcutoff ▸ h0⟩
    · rename_i hshard
      rw [if_neg hshard]
      split at hcutoff
      · rename_i hone
        rw [if_pos hone]
        exact ⟨b1, rfl, Option.some.inj hcutoff ▸ h1⟩
      · cases hcutoff

theorem not_missing_of_ok {lib : Codec} {flags : Flags} {shard0 shard1 : Database}
    {summary : CrossShardSupply.Summary}
    (h : CrossShardSupply.main lib flags shard0 shard1 = .ok summary) : ¬ flags.Missing := by
  intro hmissing
  rw [CrossShardSupply.main, if_pos hmissing] at h
  cases h

/-- A later cutoff is given when the earlier one is. -/
theorem not_missing_later {flags : Flags} {b0 b1 : UInt64} (h : ¬ flags.Missing)
    (h0 : flags.shard0Cutoff ≤ b0) (h1 : flags.shard1Cutoff ≤ b1) :
    ¬ (laterFlags flags b0 b1).Missing := by
  have hzero {a b : UInt64} (hle : a ≤ b) (hb : b = 0) : a = 0 := by
    rw [hb] at hle
    exact UInt64.le_antisymm hle UInt64.zero_le
  rintro (hpath | hpath | hcutoff | hcutoff | houtput)
  · exact h (.inl hpath)
  · exact h (.inr (.inl hpath))
  · exact h (.inr (.inr (.inl (hzero h0 hcutoff))))
  · exact h (.inr (.inr (.inr (.inl (hzero h1 hcutoff)))))
  · exact h (.inr (.inr (.inr (.inr houtput))))

/-- The pending total is read off the listed groups. -/
theorem pendingActive_of_ok {lib : Codec} {flags : Flags} {shard0 shard1 : Store}
    {summary : CrossShardSupply.Summary}
    (h : CrossShardSupply.main lib flags shard0.database shard1.database = .ok summary) :
    ∃ totals0 totals1 amounts0 amounts1, summary.directions = [totals0, totals1] ∧
      sumReceipts lib (direction flags shard0 shard1 0).input = (totals0, none) ∧
      sumReceipts lib (direction flags shard0 shard1 1).input = (totals1, none) ∧
      (totals0.pendingGroups.flatMap ReceiptGroup.receipts).mapM
        (fun d => readInt d.amountAtto) = some amounts0 ∧
      (totals1.pendingGroups.flatMap ReceiptGroup.receipts).mapM
        (fun d => readInt d.amountAtto) = some amounts1 ∧
      summary.pendingActiveAtto = toString (amounts0.sum + amounts1.sum) := by
  obtain ⟨totals0, totals1, hdirections, hok0, hok1⟩ := CutConsistency.main_ok h
  have hcounts0 := accountsFor_of_ok hok0
  have hcounts1 := accountsFor_of_ok hok1
  obtain ⟨amounts0, hlisted0, hpending0, -⟩ := hcounts0.pending_relisted
  obtain ⟨amounts1, hlisted1, hpending1, -⟩ := hcounts1.pending_relisted
  obtain ⟨-, -, unsupported0, -, -, hunsupported0, -⟩ := hcounts0.amounts
  obtain ⟨-, -, unsupported1, -, -, hunsupported1, -⟩ := hcounts1.amounts
  refine ⟨totals0, totals1, amounts0, amounts1, hdirections, hok0, hok1, hlisted0, hlisted1, ?_⟩
  rw [direction_input] at hok0 hok1
  rw [CrossShardSupply.main] at h
  split at h
  · cases h
  · simp only [hok0, hok1,
      addDirections_of_relisted hpending0 hpending1 hunsupported0 hunsupported1] at h
    cases h
    rfl

theorem main_of_ok {lib : Codec} {flags : Flags} {shard0 shard1 : Store}
    (hflags : ¬ flags.Missing) {totals0 totals1 : DirectionTotals}
    (h0 : sumReceipts lib (direction flags shard0 shard1 0).input = (totals0, none))
    (h1 : sumReceipts lib (direction flags shard0 shard1 1).input = (totals1, none)) :
    ∃ summary, CrossShardSupply.main lib flags shard0.database shard1.database = .ok summary := by
  rw [direction_input] at h0 h1
  obtain ⟨-, -, hmain⟩ :=
    main_accounts_for_receipts lib flags shard0.database shard1.database totals0 totals1 h0 h1
  obtain ⟨summary, hsummary, -⟩ := hmain hflags
  exact ⟨summary, hsummary⟩

/-! ## Soundness -/

/-- The published report has the pending groups and the pending total of a run
at its own cutoffs. -/
def SoundlyCarried (lib : Codec) (flags : Flags) (shard0 shard1 : Store)
    (published : CarriedReport) : Prop :=
  ∃ fresh, CrossShardSupply.main lib flags shard0.database shard1.database = .ok fresh ∧
    published.report.directions.map DirectionTotals.pendingGroups =
      fresh.directions.map DirectionTotals.pendingGroups ∧
    published.report.pendingActiveAtto = fresh.pendingActiveAtto

/-- The receipt belongs to a transaction of its block whose own fields are
cross-shard. -/
def SentByTransaction (py : PyText) (history : Int → Block) (g : Group) (r : Receipt) : Prop :=
  ∃ transaction ∈ (history (g.blockNumber.toNat : Int)).transactions,
    transactionValue transaction ["hash", "transactionHash"] =
      .text (ScanError.hashText r.txHash) ∧ crossShard py transaction = .ok true

/-- Nothing happened that the script does not look at: the later scan meets no
aborting record, no pending receipt group of shard 0 was applied, and the new
groups of shard 1, and those of shard 0 without a cross-shard transaction, are
applied already. -/
structure NothingMissed (lib : Codec) (py : PyText) (history : Int → Block) (flags : Flags)
    (b0 b1 : UInt64) (shard0 shard1 : Store) : Prop where
  readable : ∀ shard ∈ [(0 : UInt32), 1],
    ∀ record ∈ (direction (laterFlags flags b0 b1) shard0 shard1 shard).source.records,
      ¬ Aborts lib (direction (laterFlags flags b0 b1) shard0 shard1 shard) record
  waiting : ∀ record g s, Supported lib (direction flags shard0 shard1 0) record g s →
    ¬ Consumed lib (direction flags shard0 shard1 0) s g →
      ¬ Consumed lib (direction (laterFlags flags b0 b1) shard0 shard1 0) s g
  returned : ∀ record g s,
    Supported lib (direction (laterFlags flags b0 b1) shard0 shard1 1) record g s →
      flags.shard1Cutoff < g.blockNumber →
        Consumed lib (direction (laterFlags flags b0 b1) shard0 shard1 1) s g
  internal : ∀ record g s,
    Supported lib (direction (laterFlags flags b0 b1) shard0 shard1 0) record g s →
      flags.shard0Cutoff < g.blockNumber →
        (∀ r ∈ g.receipts, ¬ SentByTransaction py history g r) →
          Consumed lib (direction (laterFlags flags b0 b1) shard0 shard1 0) s g

/-- A successful scan met no aborting record. -/
theorem readable_iff {lib : Codec} {x : ScanStores} :
    (∃ totals, sumReceipts lib x.input = (totals, none)) ↔
      ∀ record ∈ x.source.records, ¬ Aborts lib x record := by
  have haborts := sumReceipts_aborts_iff_record lib x
  constructor
  · rintro ⟨totals, hok⟩ record hmem habort
    obtain ⟨err, herr⟩ := haborts.mpr ⟨record, hmem, habort⟩
    rw [hok] at herr
    cases herr
  · intro hnone
    rcases sumReceipts_ok_or_aborts lib x.input with hok | habort
    · exact hok
    · obtain ⟨record, hmem, hrecord⟩ := haborts.mp habort
      exact absurd hrecord (hnone record hmem)

/-- What the node's answers rule out: a pending receipt to shard 0 is applied
within the later cutoff. -/
theorem waiting_of_accepted {lib : Codec} {flags : Flags} {shard0 shard1 : Store}
    {b0 b1 : UInt64} {node : ReceiptNode} (hanswers : Answers lib shard0 node)
    {original : CrossShardSupply.Summary} {totals0 totals1 : DirectionTotals}
    (hdirections : original.directions = [totals0, totals1])
    (hok : sumReceipts lib (direction flags shard0 shard1 1).input = (totals1, none))
    (hchecked : ∀ receipt ∈ pendingReceipts original, ∃ checked,
      checkReceipt node (b0.toNat : Int) receipt = .ok checked)
    {record : Record} {g : Group} {s : Store}
    (h : Supported lib (direction flags shard0 shard1 1) record g s)
    (hnot : ¬ Consumed lib (direction flags shard0 shard1 1) s g) :
    ¬ Consumed lib (direction (laterFlags flags b0 b1) shard0 shard1 1) s g := by
  intro hconsumed
  have hlisted := (listed_iff_not_consumed hok h).mpr hnot
  obtain ⟨r, hr⟩ := List.exists_mem_of_ne_nil _ h.holds.receipts_ne_nil
  obtain ⟨block, hat, cutoff, hcutoff, hle⟩ := hconsumed r hr
  have hdestination := h.destination
  have hone : ¬ (1 : UInt32) = 0 := by decide
  simp only [direction, if_neg hone] at hdestination
  split at hdestination
  · rename_i hzero
    cases hdestination
    have hmem : (⟨r.txHash, r.recipient, lib.keccak256 r.recipient.data, toString r.amount⟩ :
        ReceiptDetail) ∈ pendingReceipts original := by
      rw [pendingReceipts, hdirections]
      refine List.mem_flatMap.mpr ⟨totals1, by simp, List.mem_flatMap.mpr ⟨_, hlisted, ?_⟩⟩
      exact List.mem_map.mpr ⟨r, hr, rfl⟩
    obtain ⟨checked, hcheck⟩ := hchecked _ hmem
    have hbound : cutoff = b0 := by
      simp only [direction, laterFlags, hzero, if_true] at hcutoff
      exact (Option.some.inj hcutoff).symm
    exact not_applied_of_checked hanswers hcheck hat (hbound ▸ hle)
  · cases hdestination

/-- Groups above the earlier cutoff of shard 0 are of blocks of the interval. -/
theorem not_sent_of_audited {py : PyText} {node : Node} {history : Int → Block}
    (hserves : Serves node history) {args : IntervalAudit.Args} {interval : IntervalAudit.Summary}
    (haudit : IntervalAudit.main py node args = .ok interval)
    (hzero : interval.crossShardTransactions = 0) {a0 b0 : UInt64}
    (hstart : args.start = (a0.toNat : Int) + 1) (hstop : args.stop = (b0.toNat : Int))
    {g : Group} (hafter : a0 < g.blockNumber) (hwithin : g.blockNumber ≤ b0) (r : Receipt) :
    ¬ SentByTransaction py history g r := by
  rintro ⟨transaction, hmem, -, hcross⟩
  obtain ⟨-, -, hnone⟩ := not_crossShard_of_main hserves haudit
  have hlow := UInt64.lt_iff_toNat_lt.mp hafter
  have hhigh := UInt64.le_iff_toNat_le.mp hwithin
  have hfalse := hnone hzero (g.blockNumber.toNat : Int) (by omega) (by omega) transaction hmem
  cases hcross.symm.trans hfalse

/-- An accepted report is that of a fresh run exactly when nothing was missed. -/
theorem carried_iff {lib : Codec} {flags : Flags} {shard0 shard1 : Store} {b0 b1 : UInt64}
    (h0 : flags.shard0Cutoff ≤ b0) (h1 : flags.shard1Cutoff ≤ b1)
    {original : CrossShardSupply.Summary}
    (horiginal : CrossShardSupply.main lib flags shard0.database shard1.database = .ok original)
    {py : PyText} {node : Node} {history : Int → Block} (hserves : Serves node history)
    {chunkSize : Int} {outputsFree : Bool} {interval : IntervalAudit.Summary}
    (haudit : IntervalAudit.main py node
      ⟨0, (flags.shard0Cutoff.toNat : Int) + 1, (b0.toNat : Int), chunkSize, outputsFree⟩ =
        .ok interval)
    {receiptNode : ReceiptNode} (hanswers : Answers lib shard0 receiptNode) {outputFree : Bool}
    {published : CarriedReport}
    (h : main receiptNode ⟨(b0.toNat : Int), (b1.toNat : Int), outputFree⟩ original interval =
      .ok published) :
    SoundlyCarried lib (laterFlags flags b0 b1) shard0 shard1 published ↔
      NothingMissed lib py history flags b0 b1 shard0 shard1 := by
  obtain ⟨hzero, hreport, hchecked⟩ := main_ok h
  obtain ⟨totals0, totals1, amounts0, amounts1, hdirections, hok0, hok1, hlisted0, hlisted1,
    hactive⟩ := pendingActive_of_ok horiginal
  have hlater (shard : UInt32) : Later (direction flags shard0 shard1 shard)
      (direction (laterFlags flags b0 b1) shard0 shard1 shard) := direction_later h0 h1 shard
  constructor
  · rintro ⟨fresh, hfresh, hgroups, -⟩
    obtain ⟨fresh0, fresh1, hfreshDirections, hfresh0, hfresh1⟩ := CutConsistency.main_ok hfresh
    rw [hreport, hdirections, hfreshDirections] at hgroups
    simp only [List.map_cons, List.map_nil, List.cons.injEq, and_true] at hgroups
    have hunmoved0 := (pendingGroups_eq_iff (hlater 0) hok0 hfresh0).mp hgroups.1
    have hunmoved1 := (pendingGroups_eq_iff (hlater 1) hok1 hfresh1).mp hgroups.2
    constructor
    case readable =>
      intro shard hshard
      rcases List.mem_cons.mp hshard with rfl | hshard
      · exact readable_iff.mp ⟨fresh0, hfresh0⟩
      · rw [List.mem_singleton.mp hshard]
        exact readable_iff.mp ⟨fresh1, hfresh1⟩
    case waiting => exact hunmoved0.waiting
    case returned => exact hunmoved1.created
    case internal => exact fun record g s hg hafter _ => hunmoved0.created record g s hg hafter
  · intro hnothing
    obtain ⟨fresh0, hfresh0⟩ := readable_iff.mpr (hnothing.readable 0 (by simp))
    obtain ⟨fresh1, hfresh1⟩ := readable_iff.mpr (hnothing.readable 1 (by simp))
    have hunmoved0 : Unmoved lib (direction flags shard0 shard1 0)
        (direction (laterFlags flags b0 b1) shard0 shard1 0) :=
      ⟨hnothing.waiting, fun record g s hg hafter => hnothing.internal record g s hg hafter
        fun r _ => not_sent_of_audited hserves haudit hzero rfl rfl hafter hg.within r⟩
    have hunmoved1 : Unmoved lib (direction flags shard0 shard1 1)
        (direction (laterFlags flags b0 b1) shard0 shard1 1) :=
      ⟨fun record g s hg hnot => waiting_of_accepted hanswers hdirections hok1 hchecked hg hnot,
        hnothing.returned⟩
    have hgroups0 := (pendingGroups_eq_iff (hlater 0) hok0 hfresh0).mpr hunmoved0
    have hgroups1 := (pendingGroups_eq_iff (hlater 1) hok1 hfresh1).mpr hunmoved1
    have hflags := not_missing_later (not_missing_of_ok horiginal) h0 h1
    obtain ⟨fresh, hfresh⟩ := main_of_ok hflags hfresh0 hfresh1
    refine ⟨fresh, hfresh, ?_⟩
    obtain ⟨later0, later1, laterAmounts0, laterAmounts1, hlaterDirections, hlater0, hlater1,
      hlaterListed0, hlaterListed1, hlaterActive⟩ := pendingActive_of_ok hfresh
    cases hlater0.symm.trans hfresh0
    cases hlater1.symm.trans hfresh1
    rw [← hgroups0, hlisted0] at hlaterListed0
    rw [← hgroups1, hlisted1] at hlaterListed1
    cases hlaterListed0
    cases hlaterListed1
    rw [hreport, hdirections, hlaterDirections, hactive, hlaterActive]
    simp only [List.map_cons, List.map_nil, hgroups0, hgroups1, and_self]

/-! ## A receipt of shard 0 that shard 1 applies in block 20 -/

def emptyBlock (number : Int) : Block where
  number := .number number
  hash := "0x" ++ toString number
  parentHash := "0x" ++ toString (number - 1)
  timestamp := .number 0
  stateRoot := ""
  transactionsRoot := none
  receiptsRoot := none
  outgoingReceiptsRoot := none
  incomingReceiptsRoot := none
  gasUsed := .number 0
  transactions := []
  stakingTransactions := []

/-- A node whose blocks have no transactions. -/
def emptyNode : Node where
  getBlockByNumber number := .ok (emptyBlock number)
  getBlocks first last :=
    .ok ((List.range (last - first + 1).toNat).map fun (i : Nat) => emptyBlock (first + i))

theorem emptyNode_serves : Serves emptyNode emptyBlock := by
  intro first last blocks hblocks i hi
  cases hblocks
  simp

/-- Shard 0 applied nothing. -/
def silentNode : ReceiptNode where
  hex _ := none
  getCXReceiptByHash _ := .ok none

theorem silentNode_answers : Answers sampleCodec singleSource silentNode := by
  rintro txHash block ⟨entry, ⟨encoded, hlookup, -⟩, -⟩
  have hne : cxLookupKey txHash ≠ receiptKey 1 10 (.fill 32 10) := by
    intro heq
    have hlength := congrArg List.length heq
    rw [length_cxLookupKey] at hlength
    exact absurd hlength (by decide +kernel)
  rw [singleSource, Store.lookup_put, if_neg (cxLookupKey_ne_canonicalHashKey txHash 10),
    Store.lookup_put, if_neg hne] at hlookup
  cases hlookup

def reportFlags : Flags where
  shard0Path := "shard0"
  shard1Path := "shard1"
  shard0Cutoff := 93529887
  shard1Cutoff := 10
  output := "receipts.json"

theorem checkReceipt_silent (cutoff : Int) (receipt : ReceiptDetail) :
    checkReceipt silentNode cutoff receipt =
      .ok ⟨ScanError.hashText receipt.transactionHash, "not_found", none⟩ := by
  simp [checkReceipt, silentNode, consumedBlock, require]

/-- The report at shard-1 cutoff 10 is carried to any shard-1 cutoff. -/
theorem sample_accepted (shard1Cutoff : UInt64) : ∃ original interval published,
    CrossShardSupply.main sampleCodec reportFlags singleSource.database
      sampleDestination.database = .ok original ∧
    IntervalAudit.main PyText.ascii emptyNode ⟨0, 93529888, 93529888, 1, true⟩ = .ok interval ∧
    main silentNode ⟨93529888, (shard1Cutoff.toNat : Int), true⟩ original interval =
      .ok published ∧ published.report = original := by
  obtain ⟨original, horiginal⟩ := exists_of_isOk (by decide +kernel :
    (CrossShardSupply.main sampleCodec reportFlags singleSource.database
      sampleDestination.database).isOk = true)
  obtain ⟨interval, hinterval⟩ := exists_of_isOk (by decide +kernel :
    (IntervalAudit.main PyText.ascii emptyNode ⟨0, 93529888, 93529888, 1, true⟩).isOk = true)
  have hfields : (IntervalAudit.main PyText.ascii emptyNode ⟨0, 93529888, 93529888, 1, true⟩).map
      (fun s => (s.start, s.stop, s.crossShardTransactions)) = .ok (93529888, 93529888, 0) := by
    decide +kernel
  rw [hinterval, Except.map, Except.ok.injEq, Prod.mk.injEq, Prod.mk.injEq] at hfields
  obtain ⟨hstart, hstop, hzero⟩ := hfields
  have hreceipts : ∀ receipt ∈ pendingReceipts original, ∃ checked,
      checkReceipt silentNode 93529888 receipt = .ok checked :=
    fun receipt _ => ⟨_, checkReceipt_silent 93529888 receipt⟩
  obtain ⟨checked, hchecked⟩ := exists_forall₂ hreceipts
  refine ⟨original, interval, ⟨original, 93529888, (shard1Cutoff.toNat : Int), 0, checked⟩,
    horiginal, hinterval, ?_, rfl⟩
  rw [main, require_of rfl, bind_ok, require_of ⟨hstart, hstop⟩, bind_ok, require_of hzero,
    bind_ok, mapM_ok_iff.mpr hchecked, bind_ok]

/-- At shard-1 cutoff 15 the receipt is still pending. -/
theorem carried_iff_pending : ∃ published,
    SoundlyCarried sampleCodec (laterFlags reportFlags 93529888 15) singleSource sampleDestination
      published ↔
    NothingMissed sampleCodec PyText.ascii emptyBlock reportFlags 93529888 15 singleSource
      sampleDestination := by
  obtain ⟨original, interval, published, horiginal, hinterval, hpublished, -⟩ := sample_accepted 15
  exact ⟨published, carried_iff (by decide) (by decide) horiginal emptyNode_serves hinterval
    silentNode_answers hpublished⟩

/-- How many groups a run lists as pending, by direction. -/
def pendingCounts (flags : Flags) : Option (List Nat) :=
  (CrossShardSupply.main sampleCodec flags singleSource.database
    sampleDestination.database).toOption.map
      fun summary => summary.directions.map fun totals => totals.pendingGroups.length

/-- At shard-1 cutoff 20 shard 1 has applied the receipt that is still published
as pending. -/
theorem applied_receipt_carried : ∃ original interval published,
    CrossShardSupply.main sampleCodec reportFlags singleSource.database
      sampleDestination.database = .ok original ∧
    Serves emptyNode emptyBlock ∧
    IntervalAudit.main PyText.ascii emptyNode ⟨0, 93529888, 93529888, 1, true⟩ = .ok interval ∧
    Answers sampleCodec singleSource silentNode ∧
    main silentNode ⟨93529888, 20, true⟩ original interval = .ok published ∧
    ¬ SoundlyCarried sampleCodec (laterFlags reportFlags 93529888 20) singleSource
      sampleDestination published := by
  obtain ⟨original, interval, published, horiginal, hinterval, hpublished, hreport⟩ :=
    sample_accepted 20
  refine ⟨original, interval, published, horiginal, emptyNode_serves, hinterval,
    silentNode_answers, hpublished, ?_⟩
  rintro ⟨fresh, hfresh, hgroups, -⟩
  have hbefore : pendingCounts reportFlags = some [1, 0] := by decide +kernel
  have hafter : pendingCounts (laterFlags reportFlags 93529888 20) = some [0, 0] := by
    decide +kernel
  have hlengths := congrArg (List.map List.length) hgroups
  rw [pendingCounts, horiginal] at hbefore
  rw [pendingCounts, hfresh] at hafter
  rw [hreport, List.map_map, List.map_map] at hlengths
  have hcounts := (Option.some.inj hbefore).symm.trans
    (hlengths.trans (Option.some.inj hafter))
  cases hcounts

end CarriedReceipts
