import SupplyAudit.SnapshotContents
import SupplyAudit.SourceRecords

/-!
# Scanning a snapshot in place of its database

A scan that succeeds against the full destination database gives the same
totals against a snapshot of it. The converse fails: spent markers and unusable
canonical hashes are not copied, so a scan that has to abort may succeed on the
snapshot. The aborts that survive are stated in terms of the full database.
-/

namespace SnapshotFidelity

open ByteWords ReceiptKeys ChainDatabase FallibleScan CrossShardSupply ReceiptOutcomes GroupWalk
open DestinationView SourceRecords SnapshotContents CxLookupSnapshot

/-- A scan with one destination replaced: by a store at this cutoff, or by nothing. -/
def against (base : ScanStores) (destination : UInt32) (cutoff : UInt64) (store : Option Store) :
    ScanStores where
  sourceShard := base.sourceShard
  source := base.source
  destinations shard := if shard = destination then store else base.destinations shard
  sourceCutoff := base.sourceCutoff
  destinationCutoffs shard :=
    if shard = destination then some cutoff else base.destinationCutoffs shard

@[simp] theorem against_destinations (base : ScanStores) (destination : UInt32)
    (cutoff : UInt64) (store : Option Store) :
    (against base destination cutoff store).destinations destination = store := if_pos rfl

@[simp] theorem against_destinationCutoffs (base : ScanStores) (destination : UInt32)
    (cutoff : UInt64) (store : Option Store) :
    (against base destination cutoff store).destinationCutoffs destination = some cutoff :=
  if_pos rfl

variable {lib : Codec} {base : ScanStores} {destination : UInt32} {cutoff : UInt64} {D S : Store}

/-- The receipt's lookup is copied and names a block with a usable hash. -/
def ExportedAt (lib : Codec) (cutoff : UInt64) (D : Store) (txHash : Hash) (block : UInt64) :
    Prop :=
  ∃ entry, Exports lib cutoff D txHash entry ∧ entry.blockIndex = block ∧
    entry.blockHash ≠ FixedBytes.zero 32

theorem looksUp_snapshot (hS : SnapshotOf lib cutoff D S) {txHash : Hash}
    {entry : TxLookupEntry} (h : Exports lib cutoff D txHash entry) : LooksUp lib S txHash entry := by
  obtain ⟨value, hl, he⟩ := (exports_iff txHash entry).mp h
  exact ⟨value, (hS.lookup_iff txHash value).mpr ⟨hl, entry, he⟩, he.decoded⟩

theorem exports_of_lookup_snapshot (hS : SnapshotOf lib cutoff D S) {txHash : Hash}
    {value : Bytes} (h : S.lookup (cxLookupKey txHash) = some value) :
    ∃ entry, lib.decodeLookup value = .ok entry ∧ Exports lib cutoff D txHash entry := by
  obtain ⟨hl, entry, he⟩ := (hS.lookup_iff txHash value).mp h
  exact ⟨entry, he.decoded, (exports_iff txHash entry).mpr ⟨value, hl, he⟩⟩

theorem exports_of_looksUp_snapshot (hS : SnapshotOf lib cutoff D S) {txHash : Hash}
    {entry : TxLookupEntry} (h : LooksUp lib S txHash entry) :
    Exports lib cutoff D txHash entry := by
  obtain ⟨value, hl, hd⟩ := h
  obtain ⟨entry', hd', he⟩ := exports_of_lookup_snapshot hS hl
  rw [hd, Except.ok.injEq] at hd'
  exact hd' ▸ he

theorem canonicalAt_snapshot (hS : SnapshotOf lib cutoff D S) {txHash : Hash}
    {entry : TxLookupEntry} (h : Exports lib cutoff D txHash entry) (hash : Hash) :
    S.CanonicalAt entry.blockIndex hash ↔
      hash = entry.blockHash ∧ entry.blockHash ≠ FixedBytes.zero 32 := by
  constructor
  · rintro ⟨hl, hz⟩
    obtain ⟨txHash', entry', he', hn, hd⟩ := (hS.canonical_iff _ _).mp hl
    have hhash : hash = entry.blockHash := by
      rw [← h.2.2, ← hn, he'.2.2]
      exact FixedBytes.ext hd.symm
    exact ⟨hhash, hhash ▸ hz⟩
  · rintro ⟨rfl, hz⟩
    exact ⟨(hS.canonical_iff _ _).mpr ⟨txHash, entry, h, rfl, rfl⟩, hz⟩

/-- On the snapshot a receipt is applied exactly where its lookup was copied. -/
theorem applied_snapshot_iff (hS : SnapshotOf lib cutoff D S) (store : Option Store)
    (txHash : Hash) (block : UInt64) :
    Applied lib (against base destination cutoff store) destination S txHash block ↔
      ExportedAt lib cutoff D txHash block := by
  constructor
  · rintro ⟨⟨entry, hentry, rfl, hcanon⟩, -⟩
    have he := exports_of_looksUp_snapshot hS hentry
    exact ⟨entry, he, rfl, ((canonicalAt_snapshot hS he _).mp hcanon).2⟩
  · rintro ⟨entry, he, rfl, hz⟩
    refine ⟨⟨entry, looksUp_snapshot hS he, rfl, (canonicalAt_snapshot hS he _).mpr ⟨rfl, hz⟩⟩,
      cutoff, if_pos rfl, he.2.1⟩

/-- On the snapshot a receipt is unreadable only if a zero hash was copied for it. -/
theorem unreadable_snapshot_iff (hS : SnapshotOf lib cutoff D S) (store : Option Store)
    (blockNumber : UInt64) (txHash : Hash) :
    Unreadable lib (against base destination cutoff store) destination S blockNumber txHash ↔
      ∃ entry, Exports lib cutoff D txHash entry ∧ entry.blockHash = FixedBytes.zero 32 := by
  constructor
  · intro h
    cases h with
    | markedGap missing marked => exact absurd (hS.unmarked _ _) marked
    | emptyLookup present =>
      obtain ⟨entry, hd, -⟩ := exports_of_lookup_snapshot hS present
      exact absurd hd (lib.noEntry entry)
    | malformedLookup encoded err present malformed =>
      obtain ⟨entry, hd, -⟩ := exports_of_lookup_snapshot hS present
      rw [malformed] at hd
      cases hd
    | noCutoff entry named absent =>
      rw [against_destinationCutoffs] at absent
      cases absent
    | noCanonicalHash entry named cutoff' limit within missing =>
      have he := exports_of_looksUp_snapshot hS named
      refine ⟨entry, he, ?_⟩
      by_contra hz
      exact missing _ ((canonicalAt_snapshot hS he _).mpr ⟨rfl, hz⟩)
  · rintro ⟨entry, he, hz⟩
    refine .noCanonicalHash entry (looksUp_snapshot hS he) cutoff (if_pos rfl) he.2.1 ?_
    intro hash hcanon
    exact ((canonicalAt_snapshot hS he hash).mp hcanon).2 hz

/-- What is applied in the full database is copied. -/
theorem exportedAt_of_applied {store : Option Store} {txHash : Hash} {block : UInt64}
    (h : Applied lib (against base destination cutoff store) destination D txHash block) :
    ExportedAt lib cutoff D txHash block := by
  obtain ⟨⟨entry, hentry, rfl, hcanon⟩, c, hc, hle⟩ := h
  rw [against_destinationCutoffs, Option.some.injEq] at hc
  subst hc
  exact ⟨entry, ⟨hentry, hle, hcanon.rawdb⟩, rfl, hcanon.2⟩

/-- What is readable and not applied in the full database is not copied. -/
theorem not_exports_of_unapplied {store : Option Store} {txHash : Hash} {blockNumber : UInt64}
    (hread : ¬ Unreadable lib (against base destination cutoff store) destination D blockNumber
      txHash)
    (hnot : ∀ block, ¬ Applied lib (against base destination cutoff store) destination D txHash
      block) (entry : TxLookupEntry) : ¬ Exports lib cutoff D txHash entry := by
  rintro ⟨hentry, hle, hraw⟩
  by_cases hcanon : ∃ hash, D.CanonicalAt entry.blockIndex hash
  · obtain ⟨hash, hhash⟩ := hcanon
    have he : hash = entry.blockHash := by rw [← hraw, hhash.rawdb]
    exact hnot entry.blockIndex
      ⟨⟨entry, hentry, rfl, he ▸ hhash⟩, cutoff, if_pos rfl, hle⟩
  · exact hread (.noCanonicalHash entry hentry cutoff (if_pos rfl) hle (not_exists.mp hcanon))

/-- A group decided on the full database is decided alike on the snapshot. -/
theorem groupVerdict_kept (hS : SnapshotOf lib cutoff D S) {g : Group}
    (hg : g.destination = destination) {o : Outcome}
    (h : groupVerdict lib (against base destination cutoff (some D)).input D.database g = .ok o) :
    groupVerdict lib (against base destination cutoff (some S)).input S.database g = .ok o := by
  subst hg
  have hkept : ∀ (r : Receipt) (b : UInt64),
      Applied lib (against base g.destination cutoff (some D)) g.destination D r.txHash b →
        Applied lib (against base g.destination cutoff (some S)) g.destination S r.txHash b :=
    fun r b happ => (applied_snapshot_iff hS _ _ _).mpr (exportedAt_of_applied happ)
  rcases groupVerdict_cases lib (against base g.destination cutoff (some D)) D g with
    hv | hv | ⟨err, hv⟩
  · rw [hv, Except.ok.injEq] at h
    subst h
    obtain ⟨blocks, happ, hsteady⟩ := (groupVerdict_spent_iff D g).mp hv
    exact (groupVerdict_spent_iff S g).mpr ⟨blocks, happ.imp hkept, hsteady⟩
  · rw [hv, Except.ok.injEq] at h
    subst h
    obtain ⟨before, receipt, after, blocks, horder, happ, hsteady, hread, hnot⟩ :=
      (groupVerdict_pending_iff D g).mp hv
    have hno := not_exports_of_unapplied hread hnot
    refine (groupVerdict_pending_iff S g).mpr
      ⟨before, receipt, after, blocks, horder, happ.imp hkept, hsteady, ?_, ?_⟩
    · rw [unreadable_snapshot_iff hS]
      rintro ⟨entry, he, -⟩
      exact hno entry he
    · intro block
      rw [applied_snapshot_iff hS]
      rintro ⟨entry, he, -⟩
      exact hno entry he
  · rw [hv] at h
    cases h

theorem holdsGroup_against (store : Option Store) (record : Record) (g : Group) :
    HoldsGroup lib (against base destination cutoff store) record g ↔
      HoldsGroup lib base record g :=
  ⟨fun h => ⟨h.stored, h.key, h.nonempty, h.canonical, h.decoded⟩,
    fun h => ⟨h.stored, h.key, h.nonempty, h.canonical, h.decoded⟩⟩

/-- The record holds a group to the replaced destination within the source cutoff. -/
def Bound (lib : Codec) (base : ScanStores) (destination : UInt32) (record : Record)
    (g : Group) : Prop :=
  HoldsGroup lib base record g ∧ g.blockNumber ≤ base.sourceCutoff ∧ g.destination = destination

/-- Records that are not bound for the replaced destination do not see it. -/
theorem verdict_unbound {record : Record} (hmem : record ∈ base.source.records)
    (hfree : ∀ g, ¬ Bound lib base destination record g) (store store' : Option Store) :
    verdict lib (against base destination cutoff store).input record =
      verdict lib (against base destination cutoff store').input record := by
  have hsource (st : Option Store) :
      (against base destination cutoff st).input.source = base.source.database := rfl
  cases hk : receiptKeyParts record.1 with
  | none => rw [verdict_skipped hk, verdict_skipped hk]
  | some parts =>
    obtain ⟨dest, blockNumber, blockHash⟩ := parts
    by_cases hempty : record.2 = [0xc0]
    · rw [verdict_empty hk hempty, verdict_empty hk hempty]
    by_cases hafter : blockNumber > base.sourceCutoff
    · rw [ReceiptOutcomes.verdict_after hk hempty hafter,
        ReceiptOutcomes.verdict_after hk hempty hafter]
    rw [verdict_within hk hempty hafter, verdict_within hk hempty hafter, sourceVerdict,
      sourceVerdict, hsource, hsource]
    cases hr : readCanonicalHash base.source.database blockNumber with
    | error err => rfl
    | ok found =>
      cases found with
      | none => rfl
      | some hash =>
        dsimp only
        by_cases hne : hash ≠ blockHash
        · rw [if_pos hne, if_pos hne]
        have heq : hash = blockHash := not_not.mp hne
        subst heq
        rw [if_neg hne, if_neg hne, canonicalVerdict, canonicalVerdict]
        cases hd : lib.decodeReceipts record.2 with
        | error err => rfl
        | ok decoded =>
          dsimp only [against, ScanStores.input]
          cases hc : checkReceipts base.sourceShard dest blockNumber 0 decoded with
          | error err => rfl
          | ok receipts =>
            have hdest : dest ≠ destination := by
              rintro rfl
              refine hfree ⟨dest, blockNumber, hash, receipts⟩
                ⟨⟨hmem, hk, hempty, ?_, decoded, hd, hc⟩, UInt64.not_lt.mp hafter, rfl⟩
              exact (readCanonicalHash_some_iff base.source blockNumber hash).mp hr
            simp only [if_neg hdest]
            cases base.destinations dest with
            | none => rfl
            | some s => exact groupVerdict_congr rfl rfl

theorem verdict_bound {record : Record} {g : Group} (h : Bound lib base destination record g)
    (store : Store) :
    verdict lib (against base destination cutoff (some store)).input record =
      groupVerdict lib (against base destination cutoff (some store)).input store.database g := by
  refine ((holdsGroup_against _ record g).mpr h.1).verdict_supported h.2.1 ?_
  rw [h.2.2, against_destinations]

theorem verdict_bound_unscanned {record : Record} {g : Group}
    (h : Bound lib base destination record g) :
    verdict lib (against base destination cutoff none).input record = .ok (.unsupported g) := by
  refine ((holdsGroup_against _ record g).mpr h.1).verdict_unsupported h.2.1 ?_
  rw [h.2.2, against_destinations]

/-- A record decided on the full database is decided alike on the snapshot. -/
theorem verdict_kept (hS : SnapshotOf lib cutoff D S) {record : Record}
    (hmem : record ∈ base.source.records) {o : Outcome}
    (h : verdict lib (against base destination cutoff (some D)).input record = .ok o) :
    verdict lib (against base destination cutoff (some S)).input record = .ok o := by
  by_cases hbound : ∃ g, Bound lib base destination record g
  · obtain ⟨g, hg⟩ := hbound
    rw [verdict_bound hg] at h ⊢
    exact groupVerdict_kept hS hg.2.2 h
  · rw [← h]
    exact verdict_unbound hmem (not_exists.mp hbound) _ _

/-- A scan that succeeds on the full database gives the same result on the snapshot. -/
theorem sumReceipts_kept (hS : SnapshotOf lib cutoff D S) {totals : DirectionTotals}
    (h : sumReceipts lib (against base destination cutoff (some D)).input = (totals, none)) :
    sumReceipts lib (against base destination cutoff (some S)).input = (totals, none) := by
  rw [sumReceipts_ok_iff] at h ⊢
  obtain ⟨hnone, os, hos, hfinish⟩ := h
  have hrecords : iterated (against base destination cutoff (some S)).input =
      iterated (against base destination cutoff (some D)).input := rfl
  have htally : tallied lib (against base destination cutoff (some S)).input os =
      tallied lib (against base destination cutoff (some D)).input os := rfl
  refine ⟨hnone, os, ?_, ?_⟩
  · rw [← hos, verdicts, verdicts, hrecords]
    apply mapM_congr
    intro record hmem
    obtain ⟨o, -, ho⟩ := mapM_ok_left hos hmem
    obtain ⟨hs, -⟩ := (mem_iterated_iff record).mp hmem
    have hstored : record ∈ base.source.records := hs
    rw [ho]
    exact verdict_kept hS hstored ho
  · rw [htally, hfinish]

/-- The group still stops a scan of the snapshot, in terms of the full database:
after receipts that were copied steadily comes one copied with a zero hash, or
one copied for another block than the nonzero block before it. -/
def StopsSnapshot (lib : Codec) (cutoff : UInt64) (D : Store) (g : Group) : Prop :=
  ∃ before receipt after blocks, g.receipts = before ++ receipt :: after ∧
    List.Forall₂ (fun r b => ExportedAt lib cutoff D r.txHash b) before blocks ∧
    Steady 0 blocks ∧
    ((∃ entry, Exports lib cutoff D receipt.txHash entry ∧
        entry.blockHash = FixedBytes.zero 32) ∨
      ∃ block, ExportedAt lib cutoff D receipt.txHash block ∧
        lastBlock 0 blocks ≠ 0 ∧ lastBlock 0 blocks ≠ block)

theorem stopsScan_snapshot_iff (hS : SnapshotOf lib cutoff D S) (store : Option Store)
    (g : Group) :
    StopsScan lib (against base g.destination cutoff store) S g ↔
      StopsSnapshot lib cutoff D g := by
  simp only [StopsScan, StopsSnapshot, AppliedIn, applied_snapshot_iff hS,
    unreadable_snapshot_iff hS]

/-- The records that abort a scan of the snapshot, in terms of the full database. -/
theorem aborts_snapshot_iff (hS : SnapshotOf lib cutoff D S) (base : ScanStores)
    (destination : UInt32) {record : Record} (hmem : record ∈ base.source.records) :
    Aborts lib (against base destination cutoff (some S)) record ↔
      Aborts lib (against base destination cutoff none) record ∨
        ∃ g, Bound lib base destination record g ∧ StopsSnapshot lib cutoff D g := by
  have hrejects (store : Option Store) : Aborts lib (against base destination cutoff store) record ↔
      Rejects (verdict lib (against base destination cutoff store).input) record :=
    aborts_iff_rejects hmem
  rw [hrejects, hrejects]
  by_cases hbound : ∃ g, Bound lib base destination record g
  · obtain ⟨g, hg⟩ := hbound
    have hstops : Rejects (verdict lib (against base destination cutoff (some S)).input) record ↔
        StopsSnapshot lib cutoff D g := by
      obtain ⟨holds, hwithin, rfl⟩ := id hg
      rw [← stopsScan_snapshot_iff hS (some S), ← groupVerdict_rejects_iff, Rejects, Rejects,
        verdict_bound hg]
    rw [hstops]
    constructor
    · exact fun h => Or.inr ⟨g, hg, h⟩
    · rintro (⟨err, h⟩ | ⟨g', hg', h⟩)
      · rw [verdict_bound_unscanned hg] at h
        cases h
      · rwa [hg.1.unique hg'.1]
  · have hfree := not_exists.mp hbound
    rw [Rejects, Rejects, verdict_unbound hmem hfree (some S) none]
    constructor
    · exact Or.inl
    · rintro (h | ⟨g, hg, -⟩)
      · exact h
      · exact absurd hg (hfree g)

/-- The snapshot stands in for the full database: the same totals, and an error
wherever the full database gives one. -/
structure StandsIn (lib : Codec) (full snapshot : ScanStores) : Prop where
  same : ∀ totals, sumReceipts lib full.input = (totals, none) →
    sumReceipts lib snapshot.input = (totals, none)
  aborts : (∃ err, sumReceipts lib full.input = ({}, some err)) →
    ∃ err, sumReceipts lib snapshot.input = ({}, some err)

/-- A completed snapshot stands in for its database, for one scan, if and only if
that scan meets no aborting record, or one that aborts without the destination
being looked at, or a group that still stops on what was copied. -/
theorem snapshot_stands_in_iff (lib : Codec) (flags : SnapshotFlags) (outputExists : Bool)
    (D S : Store) (order : MapOrder) (summary : SnapshotSummary)
    (h : CxLookupSnapshot.main lib flags outputExists D.database order = .ok (S, summary))
    (base : ScanStores) (destination : UInt32) :
    StandsIn lib (against base destination flags.cutoff (some D))
        (against base destination flags.cutoff (some S)) ↔
      (∀ record ∈ base.source.records,
        ¬ Aborts lib (against base destination flags.cutoff (some D)) record) ∨
      (∃ record ∈ base.source.records,
        Aborts lib (against base destination flags.cutoff none) record) ∨
      ∃ record g, Bound lib base destination record g ∧ StopsSnapshot lib flags.cutoff D g := by
  have hS := snapshotOf_main h
  have habort : (∃ err, sumReceipts lib (against base destination flags.cutoff (some S)).input =
      ({}, some err)) ↔
      (∃ record ∈ base.source.records,
        Aborts lib (against base destination flags.cutoff none) record) ∨
      ∃ record g, Bound lib base destination record g ∧ StopsSnapshot lib flags.cutoff D g := by
    rw [sumReceipts_aborts_iff_record]
    constructor
    · rintro ⟨record, hmem, ha⟩
      rcases (aborts_snapshot_iff hS base destination hmem).mp ha with ha | ⟨g, hg, hstops⟩
      · exact Or.inl ⟨record, hmem, ha⟩
      · exact Or.inr ⟨record, g, hg, hstops⟩
    · rintro (⟨record, hmem, ha⟩ | ⟨record, g, hg, hstops⟩)
      · exact ⟨record, hmem, (aborts_snapshot_iff hS base destination hmem).mpr (Or.inl ha)⟩
      · have hmem : record ∈ base.source.records := hg.1.stored
        exact ⟨record, hmem, (aborts_snapshot_iff hS base destination hmem).mpr (Or.inr ⟨g, hg, hstops⟩)⟩
  rw [← habort]
  constructor
  · intro hstands
    by_cases hD : ∃ err, sumReceipts lib (against base destination flags.cutoff (some D)).input =
        ({}, some err)
    · exact Or.inr (hstands.aborts hD)
    · rw [sumReceipts_aborts_iff_record] at hD
      exact Or.inl (fun record hmem ha => hD ⟨record, hmem, ha⟩)
  · intro hcond
    refine ⟨fun totals => sumReceipts_kept hS, fun hD => ?_⟩
    rcases hcond with hnone | hsome
    · obtain ⟨record, hmem, ha⟩ := (sumReceipts_aborts_iff_record _ _).mp hD
      exact absurd ha (hnone record hmem)
    · exact hsome

/-- A destination that consumed the group of block 10 but lost its lookups. -/
def markedGap : Store := Store.empty.put (spentKey 0 10) [0]

def snapshotFlags : SnapshotFlags where
  sourcePath := "shard1"
  outputPath := "snapshot"
  cutoff := 20

def insertionOrder : MapOrder where
  visit entries := entries
  perm entries := List.Perm.refl entries

/-- The spent marker is scanned and not copied. -/
theorem main_markedGap :
    CxLookupSnapshot.main sampleCodec snapshotFlags false markedGap.database insertionOrder =
      .ok (Store.empty,
        { sourceDB := "shard1", outputDB := "snapshot", cutoffBlock := 20, keysScanned := 1 }) := by
  rfl

theorem markedGap_stands_in_iff :
    StandsIn sampleCodec (against (sampleScan 10) 1 20 (some markedGap))
        (against (sampleScan 10) 1 20 (some Store.empty)) ↔
      (∀ record ∈ sampleSource.records,
        ¬ Aborts sampleCodec (against (sampleScan 10) 1 20 (some markedGap)) record) ∨
      (∃ record ∈ sampleSource.records,
        Aborts sampleCodec (against (sampleScan 10) 1 20 none) record) ∨
      ∃ record g, Bound sampleCodec (sampleScan 10) 1 record g ∧
        StopsSnapshot sampleCodec 20 markedGap g :=
  snapshot_stands_in_iff sampleCodec snapshotFlags false markedGap Store.empty insertionOrder _
    main_markedGap (sampleScan 10) 1

/-- The full database aborts the scan as incomplete; its snapshot reports the
consumed receipts as pending. -/
theorem markedGap_snapshot_unfaithful :
    ∃ S summary, CxLookupSnapshot.main sampleCodec snapshotFlags false markedGap.database
        insertionOrder = .ok (S, summary) ∧
      ¬ StandsIn sampleCodec (against (sampleScan 10) 1 20 (some markedGap))
        (against (sampleScan 10) 1 20 (some S)) := by
  refine ⟨Store.empty, _, main_markedGap, fun hstands => ?_⟩
  have hfull : (sumReceipts sampleCodec (against (sampleScan 10) 1 20 (some markedGap)).input) =
      ({}, some (.incompleteIndex 1 (.fill 32 1) 0 10)) := by decide +kernel
  have hsnapshot : (sumReceipts sampleCodec
      (against (sampleScan 10) 1 20 (some Store.empty)).input).2 = none := by decide +kernel
  obtain ⟨err, herr⟩ := hstands.aborts ⟨_, hfull⟩
  rw [herr] at hsnapshot
  cases hsnapshot

end SnapshotFidelity
