import SupplyAudit.PublishedTotals
import SupplyAudit.SourceRecords

/-!
# Every receipt is accounted for once

For any databases on which both directions succeed, each accepted key moves one
counter, the three amounts add up to the receipts of the canonical groups within
the cutoff, and the listed groups can be summed again to the published totals.
-/

namespace ReceiptAccounting

open ByteWords NumeralText ReceiptKeys ChainDatabase FallibleScan CrossShardSupply
open ReceiptOutcomes PublishedTotals

variable (lib : Codec) (input : ScanInput)

/-- The receipts that a record stores for a canonical block within the cutoff. -/
def canonicalReceipts (record : Record) : List (Option CxReceipt) :=
  match receiptKeyParts record.1 with
  | none => []
  | some (_, blockNumber, blockHash) =>
    if record.2 = [0xc0] ∨ blockNumber > input.sourceCutoff ∨
        readCanonicalHash input.source blockNumber ≠ .ok (some blockHash) then []
    else match lib.decodeReceipts record.2 with
      | .error _ => []
      | .ok decoded => decoded

def receiptAmount (receipt : Option CxReceipt) : Int := (receipt.bind CxReceipt.amount).getD 0

/-- The counter that the scan moves for a record. -/
def bucketOf (record : Record) : Option Bucket :=
  match verdict lib input record with
  | .error _ => none
  | .ok o => bucket o

/-- The listed receipts add up to a published amount and a receipt count. -/
def Relisted (groups : List ReceiptGroup) (amountAtto : String) (count : Nat) : Prop :=
  ∃ amounts, (groups.flatMap ReceiptGroup.receipts).mapM (fun d => readInt d.amountAtto) =
      some amounts ∧ readInt amountAtto = some amounts.sum ∧ amounts.length = count

/-- Nothing the scan iterated over is lost or counted twice. -/
structure AccountsFor (totals : DirectionTotals) : Prop where
  one_bucket : ∀ record ∈ iterated input,
    ((bucketOf lib input record).isSome ↔ (receiptKeyParts record.1).isSome) ∧
      ∀ t t', scanRecord lib input t record = .ok t' → ∀ b,
        counter t'.toDirectionTotals b =
          counter t.toDirectionTotals b + if bucketOf lib input record = some b then 1 else 0
  counters : ∀ b,
    counter totals b = (iterated input).countP (fun record => bucketOf lib input record = some b)
  accepted : totals.emptyReceiptGroups + totals.afterCutoffGroups +
      totals.nonCanonicalReceiptGroups + totals.unsupportedReceiptGroups +
      totals.spentReceiptGroups + totals.pendingReceiptGroups =
    (iterated input).countP (fun record => (receiptKeyParts record.1).isSome)
  canonical :
    totals.canonicalReceiptGroups = totals.spentReceiptGroups + totals.pendingReceiptGroups
  amounts : ∃ spent pending unsupported, readInt totals.spentAmountAtto = some spent ∧
    readInt totals.pendingAmountAtto = some pending ∧
    readInt totals.unsupportedAmountAtto = some unsupported ∧
    spent + pending + unsupported =
      (((iterated input).flatMap (canonicalReceipts lib input)).map receiptAmount).sum
  receipts : totals.spentReceiptCount + totals.pendingReceiptCount +
      totals.unsupportedReceiptCount =
    ((iterated input).flatMap (canonicalReceipts lib input)).length
  pending_relisted :
    Relisted totals.pendingGroups totals.pendingAmountAtto totals.pendingReceiptCount
  unsupported_relisted :
    Relisted totals.unsupportedGroups totals.unsupportedAmountAtto totals.unsupportedReceiptCount

/-- The group whose receipts an outcome accounts for. -/
def heldGroups (o : Outcome) : List Group :=
  groupIn .spent o ++ (groupIn .pending o ++ groupIn .unsupported o)

theorem receiptAmount_of_checked {sourceShard destination : UInt32} {blockNumber : UInt64}
    {i : Nat} {decoded : List (Option CxReceipt)} {receipts : List Receipt}
    (h : checkReceipts sourceShard destination blockNumber i decoded = .ok receipts) :
    (decoded.map receiptAmount).sum = groupAmount receipts := by
  induction decoded generalizing i receipts with
  | nil =>
    rw [checkReceipts, Except.ok.injEq] at h
    rw [← h]
    rfl
  | cons head rest ih =>
    by_cases hh : SourceRecords.Admissible sourceShard destination head
    · obtain ⟨txHash, recipient, amount, rfl, hamount⟩ := hh
      rw [SourceRecords.checkReceipts_cons _ _ _ _ hamount] at h
      cases hr : checkReceipts sourceShard destination blockNumber (i + 1) rest with
      | error err => rw [hr] at h; cases h
      | ok tail =>
        rw [hr] at h
        cases h
        rw [List.map_cons, List.sum_cons, ih hr]
        rfl
    · obtain ⟨err, herr⟩ :=
        SourceRecords.checkReceipts_rejects_head sourceShard destination blockNumber i hh rest
      rw [herr] at h
      cases h

variable {lib} {input}

/-- A verdict on a canonical record holds the one group of its decoded receipts. -/
theorem canonicalVerdict_holds {destination : UInt32} {blockNumber : UInt64} {blockHash : Hash}
    {value : Bytes} {o : Outcome}
    (h : canonicalVerdict lib input destination blockNumber blockHash value = .ok o) :
    (bucket o).isSome ∧ ∃ decoded receipts, lib.decodeReceipts value = .ok decoded ∧
      checkReceipts input.sourceShard destination blockNumber 0 decoded = .ok receipts ∧
      heldGroups o = [⟨destination, blockNumber, blockHash, receipts⟩] := by
  rw [canonicalVerdict] at h
  cases hd : lib.decodeReceipts value with
  | error err => rw [hd] at h; cases h
  | ok decoded =>
    simp only [hd] at h
    cases hc : checkReceipts input.sourceShard destination blockNumber 0 decoded with
    | error err => rw [hc] at h; cases h
    | ok receipts =>
      simp only [hc] at h
      rw [← exists_and_left]
      refine ⟨decoded, ?_⟩
      rw [← exists_and_left]
      refine ⟨receipts, ?_⟩
      cases hs : input.destinations destination with
      | none =>
        simp only [hs, Except.ok.injEq] at h
        subst h
        exact ⟨rfl, rfl, hc, rfl⟩
      | some destinationDB =>
        simp only [hs, groupVerdict] at h
        cases hl : destinationLoop lib input destination destinationDB blockNumber receipts 0 with
        | error err => rw [hl] at h; cases h
        | ok spent =>
          rw [hl] at h
          cases spent with
          | false =>
            cases h
            exact ⟨rfl, rfl, hc, rfl⟩
          | true =>
            cases h
            exact ⟨rfl, rfl, hc, rfl⟩

/-- A verdict on a canonical record accounts for its decoded receipts. -/
theorem canonicalVerdict_shares {destination : UInt32} {blockNumber : UInt64} {blockHash : Hash}
    {value : Bytes} {o : Outcome}
    (h : canonicalVerdict lib input destination blockNumber blockHash value = .ok o) :
    (bucket o).isSome ∧ ∃ decoded, lib.decodeReceipts value = .ok decoded ∧
      (decoded.map receiptAmount).sum = ((heldGroups o).map Group.amount).sum ∧
      decoded.length = ((heldGroups o).map (·.receipts.length)).sum := by
  obtain ⟨hbucket, decoded, receipts, hd, hc, hheld⟩ := canonicalVerdict_holds h
  refine ⟨hbucket, decoded, hd, ?_, ?_⟩
  · rw [receiptAmount_of_checked hc, hheld, List.map_singleton, List.sum_singleton]
    rfl
  · rw [← SourceRecords.checkReceipts_length hc, hheld, List.map_singleton, List.sum_singleton]

/-- Every verdict accounts for the receipts of its record, and for its key. -/
theorem verdict_shares {record : Record} {o : Outcome}
    (h : verdict lib input record = .ok o) :
    ((bucket o).isSome ↔ (receiptKeyParts record.1).isSome) ∧
      ((canonicalReceipts lib input record).map receiptAmount).sum =
        ((heldGroups o).map Group.amount).sum ∧
      (canonicalReceipts lib input record).length =
        ((heldGroups o).map (·.receipts.length)).sum := by
  cases hk : receiptKeyParts record.1 with
  | none =>
    rw [verdict_skipped hk, Except.ok.injEq] at h
    subst h
    simp [canonicalReceipts, hk, bucket, heldGroups, groupIn]
  | some parts =>
    obtain ⟨destination, blockNumber, blockHash⟩ := parts
    by_cases hempty : record.2 = [0xc0]
    · rw [verdict_empty hk hempty, Except.ok.injEq] at h
      subst h
      simp [canonicalReceipts, hk, hempty, bucket, heldGroups, groupIn]
    by_cases hafter : blockNumber > input.sourceCutoff
    · rw [verdict_after hk hempty hafter, Except.ok.injEq] at h
      subst h
      simp [canonicalReceipts, hk, hafter, bucket, heldGroups, groupIn]
    rw [verdict_within hk hempty hafter, sourceVerdict] at h
    cases hr : readCanonicalHash input.source blockNumber with
    | error err => rw [hr] at h; cases h
    | ok found =>
      cases found with
      | none => rw [hr] at h; cases h
      | some hash =>
        simp only [hr] at h
        by_cases hne : hash ≠ blockHash
        · rw [if_pos hne, Except.ok.injEq] at h
          subst h
          simp [canonicalReceipts, hk, hr, hne, bucket, heldGroups, groupIn]
        · rw [if_neg hne] at h
          obtain ⟨hbucket, decoded, hd, hamount, hlength⟩ := canonicalVerdict_shares h
          have hcanon : canonicalReceipts lib input record = decoded := by
            simp [canonicalReceipts, hk, hempty, hafter, hr, not_not.mp hne, hd]
          rw [hcanon]
          exact ⟨iff_of_true hbucket rfl, hamount, hlength⟩

theorem bucketOf_eq {record : Record} {o : Outcome} (h : verdict lib input record = .ok o) :
    bucketOf lib input record = bucket o := by
  rw [bucketOf, h]

/-- One step moves exactly the counter of the record's bucket. -/
theorem counter_scanRecord {record : Record} {t t' : MutableDirectionTotals}
    (h : scanRecord lib input t record = .ok t') (b : Bucket) :
    counter t'.toDirectionTotals b =
      counter t.toDirectionTotals b + if bucketOf lib input record = some b then 1 else 0 := by
  rw [scanRecord_eq] at h
  cases hv : verdict lib input record with
  | error err => rw [hv] at h; cases h
  | ok o =>
    rw [hv] at h
    cases h
    rw [bucketOf_eq hv, counter_tally]

theorem counter_eq_countP {os : List Outcome} (hos : verdicts lib input = .ok os) (b : Bucket) :
    counter (tallied lib input os).toDirectionTotals b =
      (iterated input).countP (fun record => bucketOf lib input record = some b) := by
  have hmap : (iterated input).map (bucketOf lib input) = os.map bucket :=
    map_eq_of_mapM_ok hos (fun _ _ h => bucketOf_eq h)
  have hcount := congrArg (List.countP (fun c => decide (c = some b))) hmap
  rw [List.countP_map, List.countP_map] at hcount
  rw [counter_tallied]
  exact hcount.symm

theorem sum_counters (bs : List (Option Bucket)) :
    bs.countP (· = some .empty) + bs.countP (· = some .afterCutoff) +
        bs.countP (· = some .nonCanonical) + bs.countP (· = some .unsupported) +
        bs.countP (· = some .spent) + bs.countP (· = some .pending) =
      bs.countP Option.isSome := by
  induction bs with
  | nil => rfl
  | cons b bs ih =>
    simp only [List.countP_cons]
    rcases b with _ | _ | _ | _ | _ | _ | _ <;> simp <;> omega

/-- The listed receipts of the groups in a bucket add up to the bucket's amount and count. -/
theorem relisted (lib : Codec) (gs : List Group) (amount : Int) (count : Nat)
    (hamount : amount = (gs.map Group.amount).sum)
    (hcount : count = (gs.map (·.receipts.length)).sum) :
    Relisted (gs.map (Group.listing lib)) (toString amount) count := by
  refine ⟨(gs.flatMap Group.receipts).map Receipt.amount, ?_, ?_, ?_⟩
  · have hd : (gs.map (Group.listing lib)).flatMap ReceiptGroup.receipts =
        (gs.flatMap Group.receipts).map fun receipt =>
          { transactionHash := receipt.txHash
            recipient := receipt.recipient
            secureKey := lib.keccak256 receipt.recipient.data
            amountAtto := toString receipt.amount } := by
      rw [List.flatMap_map, List.map_flatMap]
      rfl
    rw [hd, List.mapM_map]
    exact mapM_readInt Receipt.amount _
  · rw [readInt_toString, hamount, sum_map_flatMap]
    rfl
  · rw [List.length_map, List.length_flatMap, hcount]

/-- A share of the held groups is the shares of the three buckets together. -/
theorem sum_heldGroups {M : Type} [AddCommMonoid M] (share : Group → M) (os : List Outcome) :
    (os.map fun o => ((heldGroups o).map share).sum).sum =
      ((groupsIn .spent os).map share).sum + ((groupsIn .pending os).map share).sum +
        ((groupsIn .unsupported os).map share).sum := by
  simp only [heldGroups, groupsIn, List.map_append, List.sum_append, List.sum_map_add,
    sum_map_flatMap, add_assoc]

/-- What the verdicts hold is what the canonical records store. -/
theorem sum_canonicalReceipts {os : List Outcome} (hos : verdicts lib input = .ok os) :
    (((iterated input).flatMap (canonicalReceipts lib input)).map receiptAmount).sum =
      (os.map fun o => ((heldGroups o).map Group.amount).sum).sum := by
  rw [sum_map_flatMap, map_eq_of_mapM_ok hos (fun _ _ h => (verdict_shares h).2.1)]

theorem length_canonicalReceipts {os : List Outcome} (hos : verdicts lib input = .ok os) :
    ((iterated input).flatMap (canonicalReceipts lib input)).length =
      (os.map fun o => ((heldGroups o).map (·.receipts.length)).sum).sum := by
  rw [List.length_flatMap, map_eq_of_mapM_ok hos (fun _ _ h => (verdict_shares h).2.2)]

theorem one_bucket_of_ok {os : List Outcome} (hos : verdicts lib input = .ok os) {record : Record}
    (hmem : record ∈ iterated input) :
    (bucketOf lib input record).isSome ↔ (receiptKeyParts record.1).isSome := by
  obtain ⟨o, -, hv⟩ := mapM_ok_left hos hmem
  rw [bucketOf_eq hv]
  exact (verdict_shares hv).1

/-- A successful scan loses nothing and counts nothing twice. -/
theorem accountsFor_of_ok {totals : DirectionTotals}
    (h : sumReceipts lib input = (totals, none)) : AccountsFor lib input totals := by
  obtain ⟨-, os, hos, rfl⟩ := (sumReceipts_ok_iff lib input totals).mp h
  have hcounter := counter_eq_countP hos
  have hcount := receiptCount_tallied lib input os
  have hamount := amount_tallied lib input os
  constructor
  case one_bucket =>
    exact fun record hmem =>
      ⟨one_bucket_of_ok hos hmem, fun t t' ht b => counter_scanRecord ht b⟩
  case counters => exact hcounter
  case accepted =>
    have hsum := sum_counters ((iterated input).map (bucketOf lib input))
    simp only [List.countP_map] at hsum
    have hsome : (iterated input).countP (Option.isSome ∘ bucketOf lib input) =
        (iterated input).countP (fun record => (receiptKeyParts record.1).isSome) :=
      List.countP_congr (fun record hmem => one_bucket_of_ok hos hmem)
    rw [hsome] at hsum
    rw [← hsum]
    have h1 := hcounter .empty
    have h2 := hcounter .afterCutoff
    have h3 := hcounter .nonCanonical
    have h4 := hcounter .unsupported
    have h5 := hcounter .spent
    have h6 := hcounter .pending
    exact congrArg₂ (· + ·) (congrArg₂ (· + ·) (congrArg₂ (· + ·) (congrArg₂ (· + ·)
      (congrArg₂ (· + ·) h1 h2) h3) h4) h5) h6
  case canonical => exact canonical_tallied lib input os
  case amounts =>
    refine ⟨_, _, _, readInt_toString _, readInt_toString _, readInt_toString _, ?_⟩
    rw [sum_canonicalReceipts hos, sum_heldGroups, ← hamount, ← hamount, ← hamount]
    rfl
  case receipts =>
    rw [length_canonicalReceipts hos, sum_heldGroups, ← hcount, ← hcount, ← hcount]
    rfl
  case pending_relisted =>
    have hl := relisted lib _ _ _ (hamount .pending) (hcount .pending)
    rw [← pendingGroups_tallied] at hl
    exact hl
  case unsupported_relisted =>
    have hl := relisted lib _ _ _ (hamount .unsupported) (hcount .unsupported)
    rw [← unsupportedGroups_tallied] at hl
    exact hl

/-- The two published pending totals are the sums over the two directions. -/
def AddsUp (direction0 direction1 : DirectionTotals) (summary : Summary) : Prop :=
  summary.directions = [direction0, direction1] ∧
    ∃ pending0 pending1 unsupported0 unsupported1,
      readInt direction0.pendingAmountAtto = some pending0 ∧
      readInt direction1.pendingAmountAtto = some pending1 ∧
      readInt direction0.unsupportedAmountAtto = some unsupported0 ∧
      readInt direction1.unsupportedAmountAtto = some unsupported1 ∧
      readInt summary.pendingActiveAtto = some (pending0 + pending1) ∧
      readInt summary.unsupportedPendingAtto = some (unsupported0 + unsupported1)

theorem addDirections_of_relisted {direction0 direction1 : DirectionTotals}
    {p0 p1 u0 u1 : Int} (hp0 : readInt direction0.pendingAmountAtto = some p0)
    (hp1 : readInt direction1.pendingAmountAtto = some p1)
    (hu0 : readInt direction0.unsupportedAmountAtto = some u0)
    (hu1 : readInt direction1.unsupportedAmountAtto = some u1) :
    addDirections [direction0, direction1] 0 0 = .ok (p0 + p1, u0 + u1) := by
  simp [addDirections, hp0, hp1, hu0, hu1]

/-- If both directions succeed, each accounts for its receipts, and the command
publishes totals that are the sums over the two directions. -/
theorem main_accounts_for_receipts (lib : Codec) (flags : Flags) (shard0 shard1 : Database)
    (direction0 direction1 : DirectionTotals)
    (h0 : sumReceipts lib (directionInput flags shard0 shard1 0) = (direction0, none))
    (h1 : sumReceipts lib (directionInput flags shard0 shard1 1) = (direction1, none)) :
    AccountsFor lib (directionInput flags shard0 shard1 0) direction0 ∧
      AccountsFor lib (directionInput flags shard0 shard1 1) direction1 ∧
      (¬ flags.Missing → ∃ summary, main lib flags shard0 shard1 = .ok summary ∧
        AddsUp direction0 direction1 summary) := by
  have hd0 := accountsFor_of_ok h0
  have hd1 := accountsFor_of_ok h1
  refine ⟨hd0, hd1, fun hflags => ?_⟩
  obtain ⟨-, p0, u0, -, hp0, hu0, -⟩ := hd0.amounts
  obtain ⟨-, p1, u1, -, hp1, hu1, -⟩ := hd1.amounts
  have hadd := addDirections_of_relisted hp0 hp1 hu0 hu1
  rw [main, if_neg hflags]
  simp only [h0, h1, hadd]
  exact ⟨_, rfl, rfl, p0, p1, u0, u1, hp0, hp1, hu0, hu1, readInt_toString _, readInt_toString _⟩

def sampleFlags : Flags where
  shard0Path := "shard0"
  shard1Path := "shard1"
  shard0Cutoff := 10
  shard1Cutoff := 20
  output := "receipts.json"

/-- What the scan of the sample group out of one shard publishes. -/
def sampleDirection (sourceShard : UInt32) : DirectionTotals :=
  (sumReceipts sampleCodec (directionInput sampleFlags SourceRecords.sampleSource.database
    SourceRecords.sampleDestination.database sourceShard)).1

theorem main_accounts_for_sample :
    (sampleDirection 0).pendingReceiptCount = 2 ∧
      ∃ summary, main sampleCodec sampleFlags SourceRecords.sampleSource.database
        SourceRecords.sampleDestination.database = .ok summary ∧
          AddsUp (sampleDirection 0) (sampleDirection 1) summary :=
  ⟨by decide +kernel, (main_accounts_for_receipts sampleCodec sampleFlags
    SourceRecords.sampleSource.database SourceRecords.sampleDestination.database
    (sampleDirection 0) (sampleDirection 1) (Prod.ext rfl (by decide +kernel))
    (Prod.ext rfl (by decide +kernel))).2.2 (by decide)⟩

end ReceiptAccounting
