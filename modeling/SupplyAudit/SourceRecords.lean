import SupplyAudit.DestinationView

/-!
# The source's receipt groups and the records that abort a scan

A stored record holds a receipt group when its block hash is canonical at the
source and its receipts pass the checks. Every way in which a record makes the
whole scan abort is listed by stored data alone, and the list is complete.
-/

namespace SourceRecords

open ByteWords ReceiptKeys ChainDatabase FallibleScan CrossShardSupply ReceiptOutcomes GroupWalk
open DestinationView

variable {lib : Codec} {x : ScanStores}

/-- A decoded receipt that the checks on its group let pass. -/
def Admissible (sourceShard destination : UInt32) (decoded : Option CxReceipt) : Prop :=
  ∃ txHash recipient amount,
    decoded = some ⟨txHash, some recipient, sourceShard, destination, some amount⟩ ∧ 0 ≤ amount

theorem checkReceipts_cons (sourceShard destination : UInt32) (blockNumber : UInt64) (i : Nat)
    {txHash : Hash} {recipient : Address} {amount : Int} (h : 0 ≤ amount)
    (rest : List (Option CxReceipt)) :
    checkReceipts sourceShard destination blockNumber i
        (some ⟨txHash, some recipient, sourceShard, destination, some amount⟩ :: rest) =
      (checkReceipts sourceShard destination blockNumber (i + 1) rest).map
        (fun receipts => ⟨txHash, recipient, amount, h⟩ :: receipts) := by
  have hn : ¬ amount < 0 := Int.not_lt.mpr h
  rw [checkReceipts]
  simp only [ne_eq, not_true_eq_false, or_self, if_false, dif_neg hn]
  cases checkReceipts sourceShard destination blockNumber (i + 1) rest <;> rfl

theorem checkReceipts_rejects_head (sourceShard destination : UInt32) (blockNumber : UInt64)
    (i : Nat) {head : Option CxReceipt} (h : ¬ Admissible sourceShard destination head)
    (rest : List (Option CxReceipt)) :
    ∃ err, checkReceipts sourceShard destination blockNumber i (head :: rest) = .error err := by
  rcases head with _ | ⟨txHash, _ | recipient, shardID, toShardID, _ | amount⟩
  · exact ⟨_, rfl⟩
  · exact ⟨_, rfl⟩
  · exact ⟨_, rfl⟩
  · exact ⟨_, rfl⟩
  · rw [checkReceipts]
    by_cases hid : shardID ≠ sourceShard ∨ toShardID ≠ destination
    · exact ⟨_, if_pos hid⟩
    · rw [if_neg hid]
      by_cases hneg : amount < 0
      · exact ⟨_, dif_pos hneg⟩
      · rw [not_or, not_not, not_not] at hid
        obtain ⟨rfl, rfl⟩ := hid
        exact absurd ⟨txHash, recipient, amount, rfl, Int.not_lt.mp hneg⟩ h

/-- The checks fail exactly at an inadmissible receipt. -/
theorem checkReceipts_rejects_iff (sourceShard destination : UInt32) (blockNumber : UInt64)
    (i : Nat) (decoded : List (Option CxReceipt)) :
    (∃ err, checkReceipts sourceShard destination blockNumber i decoded = .error err) ↔
      ∃ receipt ∈ decoded, ¬ Admissible sourceShard destination receipt := by
  induction decoded generalizing i with
  | nil => simp [checkReceipts]
  | cons head rest ih =>
    by_cases hh : Admissible sourceShard destination head
    · have hrest : (∃ receipt ∈ head :: rest, ¬ Admissible sourceShard destination receipt) ↔
          ∃ receipt ∈ rest, ¬ Admissible sourceShard destination receipt := by simp [hh]
      rw [hrest, ← ih (i + 1)]
      obtain ⟨txHash, recipient, amount, rfl, hamount⟩ := hh
      rw [checkReceipts_cons _ _ _ _ hamount]
      cases checkReceipts sourceShard destination blockNumber (i + 1) rest <;> simp [Except.map]
    · constructor
      · intro _
        exact ⟨head, List.mem_cons_self, hh⟩
      · intro _
        exact checkReceipts_rejects_head _ _ _ _ hh rest

theorem checkReceipts_length {sourceShard destination : UInt32} {blockNumber : UInt64}
    {i : Nat} {decoded : List (Option CxReceipt)} {receipts : List Receipt}
    (h : checkReceipts sourceShard destination blockNumber i decoded = .ok receipts) :
    receipts.length = decoded.length := by
  induction decoded generalizing i receipts with
  | nil =>
    rw [checkReceipts, Except.ok.injEq] at h
    rw [← h]
    rfl
  | cons head rest ih =>
    by_cases hh : Admissible sourceShard destination head
    · obtain ⟨txHash, recipient, amount, rfl, hamount⟩ := hh
      rw [checkReceipts_cons _ _ _ _ hamount] at h
      cases hr : checkReceipts sourceShard destination blockNumber (i + 1) rest with
      | error err => rw [hr] at h; cases h
      | ok tail =>
        rw [hr] at h
        cases h
        rw [List.length_cons, List.length_cons, ih hr]
    · obtain ⟨err, herr⟩ := checkReceipts_rejects_head sourceShard destination blockNumber i hh rest
      rw [herr] at h
      cases h

/-- A stored record that holds a receipt group of a canonical source block. -/
structure HoldsGroup (lib : Codec) (x : ScanStores) (record : Record) (g : Group) : Prop where
  stored : record ∈ x.source.records
  key : receiptKeyParts record.1 = some (g.destination, g.blockNumber, g.blockHash)
  nonempty : record.2 ≠ [0xc0]
  canonical : x.source.CanonicalAt g.blockNumber g.blockHash
  decoded : ∃ decoded, lib.decodeReceipts record.2 = .ok decoded ∧
    checkReceipts x.sourceShard g.destination g.blockNumber 0 decoded = .ok g.receipts

theorem HoldsGroup.receipts_ne_nil {record : Record} {g : Group}
    (h : HoldsGroup lib x record g) : g.receipts ≠ [] := by
  obtain ⟨decoded, hd, hc⟩ := h.decoded
  intro hnil
  have hl := checkReceipts_length hc
  rw [hnil, List.length_nil] at hl
  have hempty : decoded = [] := List.length_eq_zero_iff.mp hl.symm
  exact h.nonempty (lib.emptyList _ (hempty ▸ hd))

theorem mem_iterated_iff (record : Record) :
    record ∈ iterated x.input ↔
      record ∈ x.source.records ∧ receiptPrefix.isPrefixOf record.1 = true := by
  simp [iterated, ScanStores.input, Store.database]

theorem HoldsGroup.mem_iterated {record : Record} {g : Group} (h : HoldsGroup lib x record g) :
    record ∈ iterated x.input :=
  (mem_iterated_iff record).mpr ⟨h.stored, isPrefixOf_of_receiptKeyParts h.key⟩

/-- A record whose key names the group's block and hash holds that group only. -/
theorem HoldsGroup.unique {record : Record} {g g' : Group} (h : HoldsGroup lib x record g)
    (h' : HoldsGroup lib x record g') : g = g' := by
  have hk := h.key.symm.trans h'.key
  simp only [Option.some.injEq, Prod.mk.injEq] at hk
  obtain ⟨hdest, hnum, hhash⟩ := hk
  obtain ⟨decoded, hd, hc⟩ := h.decoded
  obtain ⟨decoded', hd', hc'⟩ := h'.decoded
  have he : decoded = decoded' := Except.ok.inj (hd.symm.trans hd')
  subst he
  rw [← hdest, ← hnum] at hc'
  have hr : g.receipts = g'.receipts := Except.ok.inj (hc.symm.trans hc')
  cases g
  cases g'
  simp_all

theorem verdict_of_canonical {record : Record} {destination : UInt32} {blockNumber : UInt64}
    {blockHash : Hash} (key : receiptKeyParts record.1 = some (destination, blockNumber, blockHash))
    (nonempty : record.2 ≠ [0xc0]) (within : blockNumber ≤ x.sourceCutoff)
    (canonical : x.source.CanonicalAt blockNumber blockHash) :
    verdict lib x.input record =
      canonicalVerdict lib x.input destination blockNumber blockHash record.2 := by
  have hhash := (readCanonicalHash_some_iff x.source blockNumber blockHash).mpr canonical
  rw [verdict_within key nonempty (UInt64.not_lt.mpr within), sourceVerdict]
  simp only [ScanStores.input, hhash, ne_eq, not_true_eq_false, if_false]

/-- A group above the cutoff is skipped, whatever the destination holds. -/
theorem HoldsGroup.verdict_after {record : Record} {g : Group} (h : HoldsGroup lib x record g)
    (after : ¬ g.blockNumber ≤ x.sourceCutoff) :
    verdict lib x.input record = .ok .afterCutoff :=
  ReceiptOutcomes.verdict_after h.key h.nonempty (UInt64.not_le.mp after)

theorem HoldsGroup.verdict_unsupported {record : Record} {g : Group}
    (h : HoldsGroup lib x record g) (within : g.blockNumber ≤ x.sourceCutoff)
    (unsupported : x.destinations g.destination = none) :
    verdict lib x.input record = .ok (.unsupported g) := by
  obtain ⟨decoded, hd, hc⟩ := h.decoded
  rw [verdict_of_canonical h.key h.nonempty within h.canonical, canonicalVerdict]
  simp only [hd]
  simp only [ScanStores.input, hc, unsupported, Option.map_none]

theorem HoldsGroup.verdict_supported {record : Record} {g : Group} {s : Store}
    (h : HoldsGroup lib x record g) (within : g.blockNumber ≤ x.sourceCutoff)
    (supported : x.destinations g.destination = some s) :
    verdict lib x.input record = groupVerdict lib x.input s.database g := by
  obtain ⟨decoded, hd, hc⟩ := h.decoded
  rw [verdict_of_canonical h.key h.nonempty within h.canonical, canonicalVerdict]
  simp only [hd]
  simp only [ScanStores.input, hc, supported, Option.map_some]

/-- The records that make the whole scan abort. -/
inductive Aborts (lib : Codec) (x : ScanStores) (record : Record) : Prop where
  | sourceHash (destination : UInt32) (blockNumber : UInt64) (blockHash : Hash)
      (key : receiptKeyParts record.1 = some (destination, blockNumber, blockHash))
      (nonempty : record.2 ≠ [0xc0]) (within : blockNumber ≤ x.sourceCutoff)
      (missing : ∀ hash, ¬ x.source.CanonicalAt blockNumber hash)
  | malformedGroup (destination : UInt32) (blockNumber : UInt64) (blockHash : Hash)
      (key : receiptKeyParts record.1 = some (destination, blockNumber, blockHash))
      (nonempty : record.2 ≠ [0xc0]) (within : blockNumber ≤ x.sourceCutoff)
      (canonical : x.source.CanonicalAt blockNumber blockHash)
      (err : String) (malformed : lib.decodeReceipts record.2 = .error err)
  | inadmissible (destination : UInt32) (blockNumber : UInt64) (blockHash : Hash)
      (key : receiptKeyParts record.1 = some (destination, blockNumber, blockHash))
      (nonempty : record.2 ≠ [0xc0]) (within : blockNumber ≤ x.sourceCutoff)
      (canonical : x.source.CanonicalAt blockNumber blockHash)
      (decoded : List (Option CxReceipt)) (decodes : lib.decodeReceipts record.2 = .ok decoded)
      (bad : ∃ receipt ∈ decoded, ¬ Admissible x.sourceShard destination receipt)
  | destination (g : Group) (holds : HoldsGroup lib x record g)
      (within : g.blockNumber ≤ x.sourceCutoff) (s : Store)
      (supported : x.destinations g.destination = some s) (stops : StopsScan lib x s g)

theorem rejects_of_aborts {record : Record} (h : Aborts lib x record) :
    Rejects (verdict lib x.input) record := by
  cases h with
  | sourceHash destination blockNumber blockHash key nonempty within missing =>
    rw [Rejects, verdict_within key nonempty (UInt64.not_lt.mpr within), sourceVerdict]
    cases hr : readCanonicalHash x.source.database blockNumber with
    | error err => exact ⟨_, by simp only [ScanStores.input, hr]; rfl⟩
    | ok found =>
      cases found with
      | none => exact ⟨_, by simp only [ScanStores.input, hr]; rfl⟩
      | some hash => exact absurd ((readCanonicalHash_some_iff _ _ _).mp hr) (missing hash)
  | malformedGroup destination blockNumber blockHash key nonempty within canonical err malformed =>
    rw [Rejects, verdict_of_canonical key nonempty within canonical, canonicalVerdict]
    simp only [malformed]
    exact ⟨_, rfl⟩
  | inadmissible destination blockNumber blockHash key nonempty within canonical decoded decodes
      bad =>
    obtain ⟨err, herr⟩ :=
      (checkReceipts_rejects_iff x.sourceShard destination blockNumber 0 decoded).mpr bad
    rw [Rejects, verdict_of_canonical key nonempty within canonical, canonicalVerdict]
    simp only [decodes]
    simp only [ScanStores.input, herr]
    exact ⟨_, rfl⟩
  | destination g holds within s supported stops =>
    rw [Rejects, holds.verdict_supported within supported]
    exact (groupVerdict_rejects_iff s g).mpr stops

/-- A rejected record of a canonical block within the cutoff is listed. -/
theorem aborts_of_canonical {record : Record} {destination : UInt32} {blockNumber : UInt64}
    {blockHash : Hash} (hmem : record ∈ x.source.records)
    (key : receiptKeyParts record.1 = some (destination, blockNumber, blockHash))
    (nonempty : record.2 ≠ [0xc0]) (within : blockNumber ≤ x.sourceCutoff)
    (canonical : x.source.CanonicalAt blockNumber blockHash)
    (h : Rejects (verdict lib x.input) record) : Aborts lib x record := by
  rw [Rejects, verdict_of_canonical key nonempty within canonical, canonicalVerdict] at h
  cases hd : lib.decodeReceipts record.2 with
  | error err =>
    exact .malformedGroup destination blockNumber blockHash key nonempty within canonical err hd
  | ok decoded =>
    simp only [hd] at h
    cases hc : checkReceipts x.sourceShard destination blockNumber 0 decoded with
    | error err =>
      exact .inadmissible destination blockNumber blockHash key nonempty within canonical
        decoded hd ((checkReceipts_rejects_iff _ _ _ _ _).mp ⟨err, hc⟩)
    | ok receipts =>
      have holds : HoldsGroup lib x record ⟨destination, blockNumber, blockHash, receipts⟩ :=
        ⟨hmem, key, nonempty, canonical, decoded, hd, hc⟩
      simp only [ScanStores.input, hc] at h
      cases hs : x.destinations destination with
      | none =>
        rw [hs] at h
        obtain ⟨err, herr⟩ := h
        cases herr
      | some s =>
        rw [hs] at h
        exact .destination _ holds within s hs ((groupVerdict_rejects_iff s _).mp h)

theorem aborts_of_rejects {record : Record} (hmem : record ∈ x.source.records)
    (h : Rejects (verdict lib x.input) record) : Aborts lib x record := by
  obtain ⟨err, herr⟩ := id h
  cases hk : receiptKeyParts record.1 with
  | none =>
    rw [verdict_skipped hk] at herr
    cases herr
  | some parts =>
    obtain ⟨destination, blockNumber, blockHash⟩ := parts
    by_cases hempty : record.2 = [0xc0]
    · rw [verdict_empty hk hempty] at herr
      cases herr
    by_cases hafter : blockNumber > x.sourceCutoff
    · rw [ReceiptOutcomes.verdict_after hk hempty hafter] at herr
      cases herr
    have within : blockNumber ≤ x.sourceCutoff := UInt64.not_lt.mp hafter
    by_cases hcanon : ∃ hash, x.source.CanonicalAt blockNumber hash
    · obtain ⟨hash, hhash⟩ := hcanon
      by_cases he : hash = blockHash
      · subst he
        exact aborts_of_canonical hmem hk hempty within hhash h
      · have hr := (readCanonicalHash_some_iff x.source blockNumber hash).mpr hhash
        rw [verdict_within hk hempty hafter, sourceVerdict] at herr
        simp only [ScanStores.input, hr, ne_eq, he, not_false_eq_true, if_true] at herr
        cases herr
    · exact .sourceHash destination blockNumber blockHash hk hempty within (not_exists.mp hcanon)

theorem aborts_iff_rejects {record : Record} (hmem : record ∈ x.source.records) :
    Aborts lib x record ↔ Rejects (verdict lib x.input) record :=
  ⟨rejects_of_aborts, aborts_of_rejects hmem⟩

theorem Aborts.exists_key {record : Record} (h : Aborts lib x record) :
    ∃ parts, receiptKeyParts record.1 = some parts := by
  cases h with
  | sourceHash _ _ _ key => exact ⟨_, key⟩
  | malformedGroup _ _ _ key => exact ⟨_, key⟩
  | inadmissible _ _ _ key => exact ⟨_, key⟩
  | destination _ holds => exact ⟨_, holds.key⟩

/-- What a verdict on a record says about the stored data behind it. -/
inductive Decides (lib : Codec) (x : ScanStores) (record : Record) : Outcome → Prop where
  | skipped (foreign : receiptKeyParts record.1 = none) : Decides lib x record .skipped
  | empty (destination : UInt32) (blockNumber : UInt64) (blockHash : Hash)
      (key : receiptKeyParts record.1 = some (destination, blockNumber, blockHash))
      (empty : record.2 = [0xc0]) : Decides lib x record .empty
  | afterCutoff (destination : UInt32) (blockNumber : UInt64) (blockHash : Hash)
      (key : receiptKeyParts record.1 = some (destination, blockNumber, blockHash))
      (nonempty : record.2 ≠ [0xc0]) (after : x.sourceCutoff < blockNumber) :
      Decides lib x record .afterCutoff
  | nonCanonical (destination : UInt32) (blockNumber : UInt64) (blockHash hash : Hash)
      (key : receiptKeyParts record.1 = some (destination, blockNumber, blockHash))
      (nonempty : record.2 ≠ [0xc0]) (within : blockNumber ≤ x.sourceCutoff)
      (canonical : x.source.CanonicalAt blockNumber hash) (other : hash ≠ blockHash) :
      Decides lib x record .nonCanonical
  | unsupported (g : Group) (holds : HoldsGroup lib x record g)
      (within : g.blockNumber ≤ x.sourceCutoff)
      (unsupported : x.destinations g.destination = none) : Decides lib x record (.unsupported g)
  | spent (g : Group) (holds : HoldsGroup lib x record g)
      (within : g.blockNumber ≤ x.sourceCutoff) (s : Store)
      (supported : x.destinations g.destination = some s)
      (decided : groupVerdict lib x.input s.database g = .ok (.spent g)) :
      Decides lib x record (.spent g)
  | pending (g : Group) (holds : HoldsGroup lib x record g)
      (within : g.blockNumber ≤ x.sourceCutoff) (s : Store)
      (supported : x.destinations g.destination = some s)
      (decided : groupVerdict lib x.input s.database g = .ok (.pending g)) :
      Decides lib x record (.pending g)

theorem decides_of_group {record : Record} {g : Group} {o : Outcome}
    (holds : HoldsGroup lib x record g) (within : g.blockNumber ≤ x.sourceCutoff)
    (h : verdict lib x.input record = .ok o) : Decides lib x record o := by
  cases hs : x.destinations g.destination with
  | none =>
    rw [holds.verdict_unsupported within hs, Except.ok.injEq] at h
    exact h ▸ .unsupported g holds within hs
  | some s =>
    rw [holds.verdict_supported within hs] at h
    rcases groupVerdict_cases lib x s g with hg | hg | ⟨err, hg⟩
    · rw [hg, Except.ok.injEq] at h
      exact h ▸ .spent g holds within s hs hg
    · rw [hg, Except.ok.injEq] at h
      exact h ▸ .pending g holds within s hs hg
    · rw [hg] at h
      cases h

theorem decides_of_verdict {record : Record} {o : Outcome} (hmem : record ∈ x.source.records)
    (h : verdict lib x.input record = .ok o) : Decides lib x record o := by
  cases hk : receiptKeyParts record.1 with
  | none =>
    rw [verdict_skipped hk, Except.ok.injEq] at h
    exact h ▸ .skipped hk
  | some parts =>
    obtain ⟨destination, blockNumber, blockHash⟩ := parts
    by_cases hempty : record.2 = [0xc0]
    · rw [verdict_empty hk hempty, Except.ok.injEq] at h
      exact h ▸ .empty destination blockNumber blockHash hk hempty
    by_cases hafter : blockNumber > x.sourceCutoff
    · rw [ReceiptOutcomes.verdict_after hk hempty hafter, Except.ok.injEq] at h
      exact h ▸ .afterCutoff destination blockNumber blockHash hk hempty hafter
    have within : blockNumber ≤ x.sourceCutoff := UInt64.not_lt.mp hafter
    have hnr : ¬ Rejects (verdict lib x.input) record := not_rejects_iff.mpr ⟨o, h⟩
    by_cases hcanon : ∃ hash, x.source.CanonicalAt blockNumber hash
    · obtain ⟨hash, hhash⟩ := hcanon
      by_cases he : hash = blockHash
      · subst he
        have hv := h
        rw [verdict_of_canonical hk hempty within hhash, canonicalVerdict] at hv
        cases hd : lib.decodeReceipts record.2 with
        | error err => rw [hd] at hv; cases hv
        | ok decoded =>
          simp only [hd] at hv
          cases hc : checkReceipts x.sourceShard destination blockNumber 0 decoded with
          | error err => simp [ScanStores.input, hc] at hv
          | ok receipts =>
            exact decides_of_group (g := ⟨destination, blockNumber, hash, receipts⟩)
              ⟨hmem, hk, hempty, hhash, decoded, hd, hc⟩ within h
      · have hr := (readCanonicalHash_some_iff x.source blockNumber hash).mpr hhash
        rw [verdict_within hk hempty hafter, sourceVerdict] at h
        simp only [ScanStores.input, hr, ne_eq, he, not_false_eq_true, if_true,
          Except.ok.injEq] at h
        exact h ▸ .nonCanonical destination blockNumber blockHash hash hk hempty within hhash he
    · exact absurd (rejects_of_aborts (.sourceHash destination blockNumber blockHash hk hempty
        within (not_exists.mp hcanon))) hnr

/-- The scan aborts exactly when an aborting record is stored. -/
theorem sumReceipts_aborts_iff_record (lib : Codec) (x : ScanStores) :
    (∃ err, sumReceipts lib x.input = ({}, some err)) ↔
      ∃ record ∈ x.source.records, Aborts lib x record := by
  have hnone : (x.input.source.newIterator receiptPrefix).2 = none := rfl
  rw [sumReceipts_aborts_iff, mapM_error_iff]
  simp only [hnone, ne_eq, not_true_eq_false, or_false]
  constructor
  · rintro ⟨record, hmem, h⟩
    have hstored := ((mem_iterated_iff record).mp hmem).1
    exact ⟨record, hstored, aborts_of_rejects hstored h⟩
  · rintro ⟨record, hstored, h⟩
    obtain ⟨parts, hkey⟩ := h.exists_key
    exact ⟨record, (mem_iterated_iff record).mpr ⟨hstored, isPrefixOf_of_receiptKeyParts hkey⟩,
      rejects_of_aborts h⟩

/-- A successful scan decided every stored record. -/
theorem verdict_of_ok {totals : DirectionTotals} (h : sumReceipts lib x.input = (totals, none))
    {record : Record} {g : Group} (holds : HoldsGroup lib x record g) :
    ∃ o, verdict lib x.input record = .ok o := by
  obtain ⟨-, os, hos, -⟩ := (sumReceipts_ok_iff lib x.input totals).mp h
  obtain ⟨o, -, ho⟩ := mapM_ok_left hos holds.mem_iterated
  exact ⟨o, ho⟩

/-! ## A group of two receipts of which the first one is applied -/

def sampleSource : Store :=
  (Store.empty.put (receiptKey 1 10 (.fill 32 10)) sampleGroupBytes).put (canonicalHashKey 10)
    (List.replicate 32 10)

/-- The first receipt is applied in block 20; the second has no lookup. -/
def sampleDestination : Store :=
  (Store.empty.put (cxLookupKey (.fill 32 1)) (sampleLookupBytes 20)).put (canonicalHashKey 20)
    (List.replicate 32 20)

def sampleScan (sourceCutoff : UInt64) : ScanStores where
  sourceShard := 0
  source := sampleSource
  destinations shard := if shard = 1 then some sampleDestination else none
  sourceCutoff := sourceCutoff
  destinationCutoffs shard :=
    if shard = 0 then some sourceCutoff else if shard = 1 then some 20 else none

def sampleGroup : Group where
  destination := 1
  blockNumber := 10
  blockHash := .fill 32 10
  receipts :=
    [⟨.fill 32 1, .fill 20 0xbb, 100, by decide⟩, ⟨.fill 32 2, .fill 20 0xbb, 100, by decide⟩]

theorem sampleGroup_held (sourceCutoff : UInt64) :
    HoldsGroup sampleCodec (sampleScan sourceCutoff)
      (receiptKey 1 10 (.fill 32 10), sampleGroupBytes) sampleGroup where
  stored := Store.mem_of_lookup sampleSource (by decide +kernel)
  key := by decide +kernel
  nonempty := by decide +kernel
  canonical := (by decide +kernel :
    sampleSource.lookup (canonicalHashKey 10) = some (List.replicate 32 10) ∧
      FixedBytes.fill 32 10 ≠ FixedBytes.zero 32)
  decoded := ⟨[some (sampleReceipt 1), some (sampleReceipt 2)], by decide +kernel,
    (by decide +kernel : checkReceipts 0 1 10 0 [some (sampleReceipt 1), some (sampleReceipt 2)] =
      .ok sampleGroup.receipts)⟩

end SourceRecords
