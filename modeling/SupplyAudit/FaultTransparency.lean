import SupplyAudit.ReceiptOutcomes

/-!
# Failing storage cannot change the scan's answer

Two runs of the scan are compared: one over truthful storage, one in which any
set of `get` calls, `has` calls and the iterator fail. Read by read, loop by
loop, the failing run either stops with an error or agrees with the other.
-/

namespace FaultTransparency

open ByteWords ReceiptKeys ChainDatabase FallibleScan CrossShardSupply ReceiptOutcomes

variable (lib : Codec) (x : ScanStores) (atSource : Faults) (atDestination : UInt32 → Faults)

/-- The receipt loop either stops or decides as it does without faults. -/
theorem destinationLoop_faulty (destination : UInt32) (s : Store) (f : Faults)
    (blockNumber : UInt64) (receipts : List Receipt) (destinationBlock : UInt64) :
    (∃ err, destinationLoop lib (x.faulty atSource atDestination) destination (s.faulty f)
        blockNumber receipts destinationBlock = .error err) ∨
      destinationLoop lib (x.faulty atSource atDestination) destination (s.faulty f)
        blockNumber receipts destinationBlock =
      destinationLoop lib x.input destination s.database blockNumber receipts
        destinationBlock := by
  induction receipts generalizing destinationBlock with
  | nil => exact Or.inr rfl
  | cons receipt rest ih =>
    simp only [destinationLoop, ScanStores.faulty, ScanStores.input] at ih ⊢
    rcases readOptional_faulty s f (cxLookupKey receipt.txHash) with ⟨err, herr⟩ | hlookup
    · simp [herr]
    rw [hlookup, readOptional_database]
    cases s.lookup (cxLookupKey receipt.txHash) with
    | none =>
      rcases readOptional_faulty s f (spentKey x.sourceShard blockNumber) with
        ⟨err, herr⟩ | hmarker
      · simp [herr]
      · rw [hmarker]
        exact Or.inr rfl
    | some encoded =>
      dsimp only
      by_cases hl : encoded.length = 0
      · simp [hl]
      simp only [if_neg hl]
      cases lib.decodeLookup encoded with
      | error err => exact Or.inr rfl
      | ok entry =>
        dsimp only
        cases x.destinationCutoffs destination with
        | none => exact Or.inr rfl
        | some cutoff =>
          dsimp only
          by_cases hafter : entry.blockIndex > cutoff
          · simp [hafter]
          simp only [if_neg hafter]
          rcases readCanonicalHash_faulty s f entry.blockIndex with ⟨err, herr⟩ | hhash
          · simp [herr]
          rw [hhash]
          cases readCanonicalHash s.database entry.blockIndex with
          | error err => exact Or.inr rfl
          | ok found =>
            cases found with
            | none => exact Or.inr rfl
            | some canonicalHash =>
              dsimp only
              by_cases hne : canonicalHash ≠ entry.blockHash
              · simp [hne]
              simp only [if_neg hne]
              by_cases hsplit : destinationBlock ≠ 0 ∧ destinationBlock ≠ entry.blockIndex
              · simp [hsplit]
              simp only [if_neg hsplit]
              exact ih entry.blockIndex

/-- A group's verdict under faults is an error or the verdict without them. -/
theorem canonicalVerdict_faulty (destination : UInt32) (blockNumber : UInt64)
    (blockHash : Hash) (value : Bytes) :
    (∃ err, canonicalVerdict lib (x.faulty atSource atDestination) destination blockNumber
        blockHash value = .error err) ∨
      canonicalVerdict lib (x.faulty atSource atDestination) destination blockNumber blockHash
        value = canonicalVerdict lib x.input destination blockNumber blockHash value := by
  rw [canonicalVerdict, canonicalVerdict]
  cases lib.decodeReceipts value with
  | error err => exact Or.inr rfl
  | ok decoded =>
    dsimp only [ScanStores.faulty, ScanStores.input]
    cases checkReceipts x.sourceShard destination blockNumber 0 decoded with
    | error err => exact Or.inr rfl
    | ok receipts =>
      dsimp only
      cases x.destinations destination with
      | none => exact Or.inr rfl
      | some s =>
        simp only [Option.map_some, groupVerdict]
        rcases destinationLoop_faulty lib x atSource atDestination destination s
          (atDestination destination) blockNumber receipts 0 with ⟨err, herr⟩ | heq
        · simp only [ScanStores.faulty] at herr
          exact Or.inl ⟨err, by rw [herr]; rfl⟩
        · simp only [ScanStores.faulty, ScanStores.input] at heq
          exact Or.inr (by rw [heq])

theorem sourceVerdict_faulty (destination : UInt32) (blockNumber : UInt64) (blockHash : Hash)
    (value : Bytes) :
    (∃ err, sourceVerdict lib (x.faulty atSource atDestination) destination blockNumber
        blockHash value = .error err) ∨
      sourceVerdict lib (x.faulty atSource atDestination) destination blockNumber blockHash
        value = sourceVerdict lib x.input destination blockNumber blockHash value := by
  rw [sourceVerdict, sourceVerdict]
  have hread : (x.faulty atSource atDestination).source = x.source.faulty atSource := rfl
  have hshard : (x.faulty atSource atDestination).sourceShard = x.input.sourceShard := rfl
  rcases readCanonicalHash_faulty x.source atSource blockNumber with ⟨err, herr⟩ | hhash
  · simp [hread, herr]
  have htrue : x.input.source = x.source.database := rfl
  rw [hread, hhash, hshard, htrue]
  cases readCanonicalHash x.source.database blockNumber with
  | error err => exact Or.inr rfl
  | ok found =>
    cases found with
    | none => exact Or.inr rfl
    | some canonicalHash =>
      dsimp only
      by_cases hne : canonicalHash ≠ blockHash
      · simp [hne]
      simp only [if_neg hne]
      exact canonicalVerdict_faulty lib x atSource atDestination destination blockNumber
        blockHash value

/-- A record's verdict under faults is an error or the verdict without them. -/
theorem verdict_faulty (record : Record) :
    Rejects (verdict lib (x.faulty atSource atDestination)) record ∨
      verdict lib (x.faulty atSource atDestination) record = verdict lib x.input record := by
  cases hk : receiptKeyParts record.1 with
  | none => exact Or.inr (by rw [verdict_skipped hk, verdict_skipped hk])
  | some parts =>
    obtain ⟨destination, blockNumber, blockHash⟩ := parts
    by_cases hempty : record.2 = [0xc0]
    · exact Or.inr (by rw [verdict_empty hk hempty, verdict_empty hk hempty])
    have hcutoff : (x.faulty atSource atDestination).sourceCutoff = x.input.sourceCutoff := rfl
    by_cases hafter : blockNumber > x.input.sourceCutoff
    · exact Or.inr (by rw [verdict_after hk hempty (hcutoff ▸ hafter), verdict_after hk hempty hafter])
    · rw [Rejects, verdict_within hk hempty (hcutoff ▸ hafter), verdict_within hk hempty hafter]
      exact sourceVerdict_faulty lib x atSource atDestination destination blockNumber blockHash
        record.2

/-- An iterator fault always ends in an error; otherwise the same records are served. -/
theorem sumReceipts_faulty :
    (∃ err, sumReceipts lib (x.faulty atSource atDestination) = ({}, some err)) ∨
      sumReceipts lib (x.faulty atSource atDestination) = sumReceipts lib x.input := by
  cases hit : atSource.iterator with
  | some stop =>
    left
    rw [sumReceipts_aborts_iff]
    right
    simp [ScanStores.faulty, Store.faulty, hit]
  | none =>
    have hnext : (x.faulty atSource atDestination).source.newIterator receiptPrefix =
        x.input.source.newIterator receiptPrefix := by
      simp [ScanStores.faulty, Store.faulty, ScanStores.input, hit]
    have hrecords : iterated (x.faulty atSource atDestination) = iterated x.input := by
      rw [iterated, iterated, hnext]
    rcases mapM_error_or_eq (l := iterated x.input)
      (fun record _ => verdict_faulty lib x atSource atDestination record) with hbad | heq
    · left
      rw [sumReceipts_aborts_iff, hrecords]
      exact Or.inl hbad
    · right
      have hfold := foldlM_scanRecord lib (x.faulty atSource atDestination)
      have hfold' := foldlM_scanRecord lib x.input
      rw [verdicts, hrecords, heq] at hfold
      rw [verdicts] at hfold'
      simp only [sumReceipts, hnext]
      rw [← iterated, hfold, hfold']
      rfl

/-- Whatever set of reads fails, the scan answers with an error and zero totals,
or exactly as it does when no read fails; and no failing read is ever answered
as an absent key or a different value. -/
theorem sumReceipts_fault_transparent :
    ((∃ err, sumReceipts lib (x.faulty atSource atDestination) = ({}, some err)) ∨
      ((sumReceipts lib (x.faulty atSource atDestination)).2 = none ∧
        sumReceipts lib (x.faulty atSource atDestination) = sumReceipts lib x.input)) ∧
    (∀ (s : Store) (f : Faults) (key : Bytes),
      (∃ err, readOptional (s.faulty f) key = .error err) ∨
        readOptional (s.faulty f) key = .ok (s.lookup key)) := by
  constructor
  · rcases sumReceipts_ok_or_aborts lib (x.faulty atSource atDestination) with ⟨t, ht⟩ | habort
    · rcases sumReceipts_faulty lib x atSource atDestination with ⟨err, herr⟩ | heq
      · exact Or.inl ⟨err, herr⟩
      · exact Or.inr ⟨by rw [ht], heq⟩
    · exact Or.inl habort
  · intro s f key
    rw [← readOptional_database s key]
    exact readOptional_faulty s f key

end FaultTransparency
