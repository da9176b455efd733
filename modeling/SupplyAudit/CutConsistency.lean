import SupplyAudit.ReceiptClassification

/-!
# Independent cutoffs

The command takes one cutoff for each shard and skips every group above its
source cutoff before any destination lookup. Such a group is still held by the
source state at the cutoff. If the destination already applied it, its value is
counted twice, and nothing in the scan notices.
-/

namespace CutConsistency

open ByteWords ReceiptKeys ChainDatabase FallibleScan CrossShardSupply ReceiptOutcomes
open DestinationView SourceRecords PublishedTotals ReceiptClassification

/-- The scan of one direction, by the contents of the two databases. -/
def direction (flags : Flags) (shard0 shard1 : Store) (sourceShard : UInt32) : ScanStores where
  sourceShard := sourceShard
  source := if sourceShard = 0 then shard0 else shard1
  destinations shard :=
    if sourceShard = 0 then (if shard = 1 then some shard1 else none)
    else if shard = 0 then some shard0 else none
  sourceCutoff := if sourceShard = 0 then flags.shard0Cutoff else flags.shard1Cutoff
  destinationCutoffs shard :=
    if shard = 0 then some flags.shard0Cutoff
    else if shard = 1 then some flags.shard1Cutoff else none

theorem direction_input (flags : Flags) (shard0 shard1 : Store) (sourceShard : UInt32) :
    (direction flags shard0 shard1 sourceShard).input =
      directionInput flags shard0.database shard1.database sourceShard := by
  rw [ScanStores.input, direction, directionInput]
  congr 1
  · split <;> rfl
  · funext shard
    dsimp only
    split
    · split <;> rfl
    · split <;> rfl

/-- A published summary comes from two successful scans. -/
theorem main_ok {lib : Codec} {flags : Flags} {shard0 shard1 : Store} {summary : Summary}
    (h : main lib flags shard0.database shard1.database = .ok summary) :
    ∃ totals0 totals1, summary.directions = [totals0, totals1] ∧
      sumReceipts lib (direction flags shard0 shard1 0).input = (totals0, none) ∧
      sumReceipts lib (direction flags shard0 shard1 1).input = (totals1, none) := by
  rw [main] at h
  split at h
  · cases h
  · rw [direction_input, direction_input]
    split at h
    · cases h
    · rename_i totals0 h0
      split at h
      · cases h
      · rename_i totals1 h1
        split at h
        · cases h
        · cases h
          exact ⟨totals0, totals1, rfl, h0, h1⟩

variable {lib : Codec} {x : ScanStores}

/-- The receipt's group is above the source cutoff: its value was not yet debited. -/
def HeldBySource (x : ScanStores) (g : Group) : Prop := x.sourceCutoff < g.blockNumber

def HeldAsPending (lib : Codec) (totals : DirectionTotals) (g : Group) : Prop :=
  g.listing lib ∈ totals.pendingGroups

/-- The receipt was applied within the destination cutoff: its value is credited. -/
def HeldByDestination (lib : Codec) (x : ScanStores) (s : Store) (g : Group) (r : Receipt) :
    Prop :=
  ∃ block, Applied lib x g.destination s r.txHash block

open Classical in
/-- How often the ledger total counts the value of a canonical receipt. -/
noncomputable def timesCounted (lib : Codec) (x : ScanStores) (totals : DirectionTotals)
    (s : Store) (g : Group) (r : Receipt) : Nat :=
  (if HeldBySource x g then 1 else 0) + (if HeldAsPending lib totals g then 1 else 0) +
    (if HeldByDestination lib x s g r then 1 else 0)

/-- No canonical group above the source cutoff has an applied receipt. -/
def ConsistentCut (lib : Codec) (x : ScanStores) : Prop :=
  ∀ record g s, HoldsGroup lib x record g → x.destinations g.destination = some s →
    HeldBySource x g → ∀ r ∈ g.receipts, ¬ HeldByDestination lib x s g r

/-- Every canonical receipt to a scanned destination is counted once. -/
def CountedOnce (lib : Codec) (x : ScanStores) (totals : DirectionTotals) : Prop :=
  ∀ record g s, HoldsGroup lib x record g → x.destinations g.destination = some s →
    ∀ r ∈ g.receipts, timesCounted lib x totals s g r = 1

/-- A group that is listed as pending is within the cutoff and has that verdict. -/
theorem pending_of_listed {totals : DirectionTotals}
    (hok : sumReceipts lib x.input = (totals, none)) {record : Record} {g : Group}
    (holds : HoldsGroup lib x record g) (hl : HeldAsPending lib totals g) :
    g.blockNumber ≤ x.sourceCutoff ∧ ∃ s, x.destinations g.destination = some s ∧
      groupVerdict lib x.input s.database g = .ok (.pending g) := by
  obtain ⟨-, os, hos, hfinish⟩ := (sumReceipts_ok_iff lib x.input totals).mp hok
  obtain ⟨g', hg', heq⟩ := (mem_pendingGroups_iff hfinish _).mp hl
  obtain ⟨record', hmem, hv⟩ := mapM_ok_right hos hg'
  cases decides_of_verdict ((mem_iterated_iff record').mp hmem).1 hv with
  | pending _ holds' within s supported decided =>
    -- the listing names the key, and a key has one record
    have hkey : record'.1 = record.1 := by
      have hd : g'.destination = g.destination := congrArg ReceiptGroup.destinationShard heq
      have hn : g'.blockNumber = g.blockNumber := congrArg ReceiptGroup.blockNumber heq
      have hh : g'.blockHash = g.blockHash := congrArg ReceiptGroup.blockHash heq
      rw [eq_receiptKey_of_parts holds'.key, eq_receiptKey_of_parts holds.key, hd, hn, hh]
    have hrecord := x.source.eq_of_mem_of_key_eq holds'.stored holds.stored hkey
    subst hrecord
    have hg := holds'.unique holds
    subst hg
    exact ⟨within, s, supported, decided⟩

theorem not_pending_of_after {totals : DirectionTotals}
    (hok : sumReceipts lib x.input = (totals, none)) {record : Record} {g : Group}
    (holds : HoldsGroup lib x record g) (after : HeldBySource x g) :
    ¬ HeldAsPending lib totals g := by
  intro hl
  exact UInt64.not_le.mpr after (pending_of_listed hok holds hl).1

/-- Above the cutoff an applied receipt is counted twice, any other receipt once. -/
theorem timesCounted_after {totals : DirectionTotals}
    (hok : sumReceipts lib x.input = (totals, none)) {record : Record} {g : Group}
    (holds : HoldsGroup lib x record g) (s : Store) (after : HeldBySource x g) (r : Receipt) :
    (HeldByDestination lib x s g r ∧ timesCounted lib x totals s g r = 2) ∨
      (¬ HeldByDestination lib x s g r ∧ timesCounted lib x totals s g r = 1) := by
  have hl := not_pending_of_after hok holds after
  by_cases hd : HeldByDestination lib x s g r
  · exact Or.inl ⟨hd, by simp [timesCounted, after, hl, hd]⟩
  · exact Or.inr ⟨hd, by simp [timesCounted, after, hl, hd]⟩

/-- Within the cutoff the receipts of a group that is not mixed are counted once. -/
theorem timesCounted_within {totals : DirectionTotals}
    (hok : sumReceipts lib x.input = (totals, none)) {record : Record} {g : Group} {s : Store}
    (h : Supported lib x record g s) (hmixed : ¬ Mixed lib x s g) {r : Receipt}
    (hr : r ∈ g.receipts) : timesCounted lib x totals s g r = 1 := by
  have hsource : ¬ HeldBySource x g := UInt64.not_lt.mpr h.within
  rcases groupVerdict_of_not_mixed hmixed (not_stopsScan_of_ok hok h) h.holds.receipts_ne_nil with
    ⟨⟨block, happ⟩, hv⟩ | ⟨happ, hv⟩
  · have hd : HeldByDestination lib x s g r := ⟨block, happ r hr⟩
    have hl : ¬ HeldAsPending lib totals g := by
      intro hl
      obtain ⟨-, s', hs', hv'⟩ := pending_of_listed hok h.holds hl
      rw [h.destination, Option.some.injEq] at hs'
      rw [← hs', hv] at hv'
      cases hv'
    simp [timesCounted, hsource, hl, hd]
  · have hd : ¬ HeldByDestination lib x s g r := fun ⟨block, hb⟩ => happ r hr block hb
    have hl : HeldAsPending lib totals g := listing_mem_of_pending hok h hv
    simp [timesCounted, hsource, hl, hd]

/-- How a successful scan of one direction counts the canonical receipts. -/
structure CountsByCut (lib : Codec) (x : ScanStores) (totals : DirectionTotals) : Prop where
  within : ∀ record g s, Supported lib x record g s → ¬ Mixed lib x s g → ∀ r ∈ g.receipts,
    timesCounted lib x totals s g r = 1
  after : ∀ record g s, HoldsGroup lib x record g → x.destinations g.destination = some s →
    HeldBySource x g → ¬ HeldAsPending lib totals g ∧ ∀ r ∈ g.receipts,
      (HeldByDestination lib x s g r ∧ timesCounted lib x totals s g r = 2) ∨
        (¬ HeldByDestination lib x s g r ∧ timesCounted lib x totals s g r = 1)
  once_iff : (∀ record g s, Supported lib x record g s → ¬ Mixed lib x s g) →
    (CountedOnce lib x totals ↔ ConsistentCut lib x)

theorem countsByCut_of_ok {totals : DirectionTotals}
    (hok : sumReceipts lib x.input = (totals, none)) : CountsByCut lib x totals where
  within _ _ _ h hmixed _ hr := timesCounted_within hok h hmixed hr
  after _ _ s holds _ hafter :=
    ⟨not_pending_of_after hok holds hafter, fun r _ => timesCounted_after hok holds s hafter r⟩
  once_iff hmixed := by
    constructor
    · intro honce record g s holds hs hafter r hr hd
      have hone := honce record g s holds hs r hr
      rcases timesCounted_after hok holds s hafter r with ⟨-, htwo⟩ | ⟨hnot, -⟩
      · omega
      · exact hnot hd
    · intro hcut record g s holds hs r hr
      by_cases hafter : HeldBySource x g
      · rcases timesCounted_after hok holds s hafter r with ⟨hd, -⟩ | ⟨-, hone⟩
        · exact absurd hd (hcut record g s holds hs hafter r hr)
        · exact hone
      · have h : Supported lib x record g s := ⟨holds, UInt64.not_lt.mp hafter, hs⟩
        exact timesCounted_within hok h (hmixed record g s h) hr

/-- Whenever the command succeeds, receipts to the other active shard are counted
once, except those of groups above the source cutoff that the destination applied
within its own: these are counted twice. -/
theorem main_counts_by_cut (lib : Codec) (flags : Flags) (shard0 shard1 : Store)
    (summary : Summary) (h : main lib flags shard0.database shard1.database = .ok summary) :
    ∃ totals0 totals1, summary.directions = [totals0, totals1] ∧
      CountsByCut lib (direction flags shard0 shard1 0) totals0 ∧
      CountsByCut lib (direction flags shard0 shard1 1) totals1 := by
  obtain ⟨totals0, totals1, hd, h0, h1⟩ := main_ok h
  exact ⟨totals0, totals1, hd, countsByCut_of_ok h0, countsByCut_of_ok h1⟩

/-- One canonical receipt at block 10. -/
def singleSource : Store :=
  (Store.empty.put (receiptKey 1 10 (.fill 32 10)) sampleSingleBytes).put (canonicalHashKey 10)
    (List.replicate 32 10)

def cutFlags (shard0Cutoff : UInt64) : Flags where
  shard0Path := "shard0"
  shard1Path := "shard1"
  shard0Cutoff := shard0Cutoff
  shard1Cutoff := 20
  output := "receipts.json"

theorem main_counts_single_receipt :
    ∃ summary totals0 totals1,
      main sampleCodec (cutFlags 10) singleSource.database sampleDestination.database =
        .ok summary ∧ summary.directions = [totals0, totals1] ∧
      CountsByCut sampleCodec (direction (cutFlags 10) singleSource sampleDestination 0) totals0 := by
  obtain ⟨summary, h⟩ := exists_of_isOk (by decide +kernel :
    (main sampleCodec (cutFlags 10) singleSource.database sampleDestination.database).isOk = true)
  obtain ⟨totals0, totals1, hd, hcounts, -⟩ := main_counts_by_cut _ _ _ _ _ h
  exact ⟨summary, totals0, totals1, h, hd, hcounts⟩

theorem hundred_nonneg : (0 : Int) ≤ 100 := by decide

def singleGroup : Group where
  destination := 1
  blockNumber := 10
  blockHash := .fill 32 10
  receipts := [⟨.fill 32 1, .fill 20 0xbb, 100, hundred_nonneg⟩]

/-- With shard-0 cutoff 9 the receipt of block 10 is not yet debited, shard 1
credited it in block 20, and the command succeeds. -/
theorem single_receipt_counted_twice :
    ∃ summary totals0 totals1,
      main sampleCodec (cutFlags 9) singleSource.database sampleDestination.database =
        .ok summary ∧ summary.directions = [totals0, totals1] ∧
      ¬ ConsistentCut sampleCodec (direction (cutFlags 9) singleSource sampleDestination 0) ∧
      ¬ CountedOnce sampleCodec (direction (cutFlags 9) singleSource sampleDestination 0)
        totals0 := by
  obtain ⟨summary, h⟩ := exists_of_isOk (by decide +kernel :
    (main sampleCodec (cutFlags 9) singleSource.database sampleDestination.database).isOk = true)
  obtain ⟨totals0, totals1, hd, hok, -⟩ := main_ok h
  have holds : HoldsGroup sampleCodec (direction (cutFlags 9) singleSource sampleDestination 0)
      (receiptKey 1 10 (.fill 32 10), sampleSingleBytes) singleGroup :=
    { stored := Store.mem_of_lookup singleSource (by decide +kernel)
      key := by decide +kernel
      nonempty := by decide +kernel
      canonical := (by decide +kernel :
        singleSource.lookup (canonicalHashKey 10) = some (List.replicate 32 10) ∧
          FixedBytes.fill 32 10 ≠ FixedBytes.zero 32)
      decoded := ⟨[some (sampleReceipt 1)], by decide +kernel,
        (by decide +kernel :
          checkReceipts 0 1 10 0 [some (sampleReceipt 1)] = .ok singleGroup.receipts)⟩ }
  have happlied : HeldByDestination sampleCodec
      (direction (cutFlags 9) singleSource sampleDestination 0) sampleDestination singleGroup
      ⟨.fill 32 1, .fill 20 0xbb, 100, by decide⟩ :=
    ⟨20, ⟨sampleLookup 20, ⟨sampleLookupBytes 20, by decide +kernel, by decide +kernel⟩, rfl,
      by decide +kernel, by decide +kernel⟩, 20, rfl, by decide⟩
  have hafter : HeldBySource (direction (cutFlags 9) singleSource sampleDestination 0)
      singleGroup := (by decide : (9 : UInt64) < 10)
  refine ⟨summary, totals0, totals1, h, hd, ?_, ?_⟩
  · intro hcut
    exact hcut _ _ _ holds rfl hafter _ List.mem_cons_self happlied
  · intro honce
    have hone := honce _ _ _ holds rfl _ List.mem_cons_self
    rcases timesCounted_after hok holds sampleDestination hafter
      ⟨.fill 32 1, .fill 20 0xbb, 100, by decide⟩ with ⟨-, htwo⟩ | ⟨hnot, -⟩
    · omega
    · exact hnot happlied

end CutConsistency
