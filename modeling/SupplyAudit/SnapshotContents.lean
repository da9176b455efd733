import SupplyAudit.CxLookupSnapshot
import SupplyAudit.DestinationView

/-!
# What a lookup snapshot contains

A completed snapshot holds exactly the lookups that name a block within the
cutoff under the hash its accessor reads there, the hashes of those blocks, and
nothing else: no lookup of a later or non-canonical block, no other canonical
hash and no spent marker.
-/

namespace SnapshotContents

open ByteWords ReceiptKeys ChainDatabase FallibleScan CrossShardSupply CxLookupSnapshot
open DestinationView

variable {lib : Codec} {cutoff : UInt64} {D : Store}

/-- A record of the source database that the snapshot copies. -/
structure Exported (lib : Codec) (cutoff : UInt64) (D : Store) (record : Record)
    (entry : TxLookupEntry) : Prop where
  width : record.1.length = cxLookupPrefix.length + hashLength
  decoded : lib.decodeLookup record.2 = .ok entry
  within : entry.blockIndex ≤ cutoff
  hash : rawdbReadCanonicalHash D.database entry.blockIndex = entry.blockHash

theorem Exported.unique {record : Record} {a b : TxLookupEntry}
    (ha : Exported lib cutoff D record a) (hb : Exported lib cutoff D record b) : a = b :=
  Except.ok.inj (ha.decoded.symm.trans hb.decoded)

/-- What the loop has collected after the records it has seen. -/
structure Collected (lib : Codec) (cutoff : UInt64) (D : Store) (seen : List Record)
    (st : SnapshotState) : Prop where
  batch : ∀ r, r ∈ st.batch ↔ r ∈ seen ∧ ∃ entry, Exported lib cutoff D r entry
  blocks : ∀ b, b ∈ st.exportedBlocks ↔
    ∃ r ∈ seen, ∃ entry, Exported lib cutoff D r entry ∧ b = (entry.blockIndex, entry.blockHash)

theorem Collected.block_hash {seen : List Record} {st : SnapshotState}
    (h : Collected lib cutoff D seen st) {b : UInt64 × Hash} (hb : b ∈ st.exportedBlocks) :
    rawdbReadCanonicalHash D.database b.1 = b.2 := by
  obtain ⟨r, -, entry, hentry, rfl⟩ := (h.blocks b).mp hb
  exact hentry.hash

/-- A record that is passed over leaves the collection as it is. -/
theorem Collected.pass {seen : List Record} {st : SnapshotState}
    (h : Collected lib cutoff D seen st) {record : Record}
    (hnot : ∀ entry, ¬ Exported lib cutoff D record entry) (result : SnapshotSummary) :
    Collected lib cutoff D (seen ++ [record]) { st with result := result } where
  batch r := by
    rw [h.batch, List.mem_append, List.mem_singleton]
    constructor
    · rintro ⟨hr, hentry⟩
      exact ⟨Or.inl hr, hentry⟩
    · rintro ⟨hr | rfl, entry, hentry⟩
      · exact ⟨hr, entry, hentry⟩
      · exact absurd hentry (hnot entry)
  blocks b := by
    rw [h.blocks]
    constructor
    · rintro ⟨r, hr, hentry⟩
      exact ⟨r, List.mem_append_left [record] hr, hentry⟩
    · rintro ⟨r, hr, entry, hentry, hb⟩
      rcases List.mem_append.mp hr with hr | hr
      · exact ⟨r, hr, entry, hentry, hb⟩
      · rw [List.mem_singleton.mp hr] at hentry
        exact absurd hentry (hnot entry)

theorem Collected.mem_setBlock {seen : List Record} {st : SnapshotState}
    (h : Collected lib cutoff D seen st) {record : Record} {entry : TxLookupEntry}
    (hentry : Exported lib cutoff D record entry) (b : UInt64 × Hash) :
    b ∈ setBlock st.exportedBlocks entry.blockIndex entry.blockHash ↔
      b = (entry.blockIndex, entry.blockHash) ∨ b ∈ st.exportedBlocks := by
  rw [setBlock, List.mem_cons, List.mem_filter]
  constructor
  · rintro (hb | ⟨hb, -⟩)
    · exact Or.inl hb
    · exact Or.inr hb
  · rintro (hb | hb)
    · exact Or.inl hb
    · by_cases hn : b.1 = entry.blockIndex
      -- the same accessor gave both hashes, so the replaced entry was this one
      · have hh : b.2 = entry.blockHash := by
          rw [← h.block_hash hb, hn, hentry.hash]
        exact Or.inl (Prod.ext hn hh)
      · exact Or.inr ⟨hb, by simpa using hn⟩

/-- A copied record is added to the batch and its block to the map. -/
theorem Collected.copy {seen : List Record} {st : SnapshotState}
    (h : Collected lib cutoff D seen st) {record : Record} {entry : TxLookupEntry}
    (hentry : Exported lib cutoff D record entry) (result : SnapshotSummary) :
    Collected lib cutoff D (seen ++ [record])
      { result := result
        exportedBlocks := setBlock st.exportedBlocks entry.blockIndex entry.blockHash
        batch := st.batch ++ [record] } where
  batch r := by
    rw [List.mem_append, List.mem_append, h.batch, List.mem_singleton]
    constructor
    · rintro (⟨hr, he⟩ | rfl)
      · exact ⟨Or.inl hr, he⟩
      · exact ⟨Or.inr rfl, entry, hentry⟩
    · rintro ⟨hr | hr, he⟩
      · exact Or.inl ⟨hr, he⟩
      · exact Or.inr hr
  blocks b := by
    rw [h.mem_setBlock hentry, h.blocks]
    constructor
    · rintro (hb | ⟨r, hr, he⟩)
      · exact ⟨record, List.mem_append_right seen List.mem_cons_self, entry, hentry, hb⟩
      · exact ⟨r, List.mem_append_left [record] hr, he⟩
    · rintro ⟨r, hr, e, he, hb⟩
      rcases List.mem_append.mp hr with hr | hr
      · exact Or.inr ⟨r, hr, e, he, hb⟩
      · rw [List.mem_singleton.mp hr] at he
        exact Or.inl (by rw [hb, he.unique hentry])

/-- One record: what is collected stays exact. -/
theorem scanLookup_collected {seen : List Record} {st st' : SnapshotState} {record : Record}
    (h : Collected lib cutoff D seen st)
    (hstep : scanLookup lib cutoff D.database st record = .ok st') :
    Collected lib cutoff D (seen ++ [record]) st' := by
  simp only [scanLookup] at hstep
  by_cases hw : record.1.length = cxLookupPrefix.length + hashLength
  · simp only [hw, ne_eq, not_true_eq_false, if_false] at hstep
    cases hd : lib.decodeLookup record.2 with
    | error err => simp only [hd] at hstep; cases hstep
    | ok entry =>
      simp only [hd] at hstep
      have hunique : ∀ e, Exported lib cutoff D record e → e = entry :=
        fun e he => Except.ok.inj (he.decoded.symm.trans hd)
      by_cases hafter : entry.blockIndex > cutoff
      · rw [if_pos hafter, Except.ok.injEq] at hstep
        subst hstep
        refine h.pass (fun e he => ?_) _
        exact UInt64.not_le.mpr hafter (hunique e he ▸ he.within)
      rw [if_neg hafter] at hstep
      by_cases hhash : rawdbReadCanonicalHash D.database entry.blockIndex = entry.blockHash
      · rw [if_neg (not_not.mpr hhash)] at hstep
        split at hstep
        · cases hstep
        · cases hstep
          exact h.copy ⟨hw, hd, UInt64.not_lt.mp hafter, hhash⟩ _
      · rw [if_pos hhash, Except.ok.injEq] at hstep
        subst hstep
        refine h.pass (fun e he => ?_) _
        exact hhash (hunique e he ▸ he.hash)
  · rw [if_pos hw, Except.ok.injEq] at hstep
    subst hstep
    exact h.pass (fun e he => hw he.width) _

/-- The whole loop: what is collected is exact. -/
theorem foldlM_collected {records seen : List Record} {st st' : SnapshotState}
    (h : Collected lib cutoff D seen st)
    (hrun : records.foldlM (scanLookup lib cutoff D.database) st = .ok st') :
    Collected lib cutoff D (seen ++ records) st' := by
  induction records generalizing seen st with
  | nil =>
    cases hrun
    rwa [List.append_nil]
  | cons record records ih =>
    rw [List.foldlM_cons] at hrun
    cases hs : scanLookup lib cutoff D.database st record with
    | error err => rw [hs] at hrun; cases hrun
    | ok next =>
      rw [hs] at hrun
      have hnext := ih (scanLookup_collected h hs) hrun
      rwa [List.append_assoc] at hnext

/-- The lookup of a transaction is copied with this entry. -/
def Exports (lib : Codec) (cutoff : UInt64) (D : Store) (txHash : Hash) (entry : TxLookupEntry) :
    Prop :=
  LooksUp lib D txHash entry ∧ entry.blockIndex ≤ cutoff ∧
    rawdbReadCanonicalHash D.database entry.blockIndex = entry.blockHash

theorem exports_iff (txHash : Hash) (entry : TxLookupEntry) :
    Exports lib cutoff D txHash entry ↔ ∃ value, D.lookup (cxLookupKey txHash) = some value ∧
      Exported lib cutoff D (cxLookupKey txHash, value) entry := by
  constructor
  · rintro ⟨⟨value, hl, hd⟩, hw, hh⟩
    exact ⟨value, hl, length_cxLookupKey txHash, hd, hw, hh⟩
  · rintro ⟨value, hl, he⟩
    exact ⟨⟨value, hl, he.decoded⟩, he.within, he.hash⟩

/-- The contents of a completed snapshot, in terms of the database it was taken from. -/
structure SnapshotOf (lib : Codec) (cutoff : UInt64) (D S : Store) : Prop where
  lookup_iff : ∀ txHash value, S.lookup (cxLookupKey txHash) = some value ↔
    D.lookup (cxLookupKey txHash) = some value ∧
      ∃ entry, Exported lib cutoff D (cxLookupKey txHash, value) entry
  canonical_iff : ∀ number value, S.lookup (canonicalHashKey number) = some value ↔
    ∃ txHash entry, Exports lib cutoff D txHash entry ∧ entry.blockIndex = number ∧
      entry.blockHash.data = value
  unmarked : ∀ shard number, S.lookup (spentKey shard number) = none

theorem mem_lookups_iff (record : Record) :
    record ∈ (D.database.newIterator cxLookupPrefix).1 ↔
      record ∈ D.records ∧ cxLookupPrefix.isPrefixOf record.1 = true := by
  simp [Store.database]

section Output
variable {st : SnapshotState}
  (h : Collected lib cutoff D (D.database.newIterator cxLookupPrefix).1 st)
include h

theorem lookup_batch_iff (txHash : Hash) (value : Bytes) :
    (Store.empty.write st.batch).lookup (cxLookupKey txHash) = some value ↔
      D.lookup (cxLookupKey txHash) = some value ∧
        ∃ entry, Exported lib cutoff D (cxLookupKey txHash, value) entry := by
  have hmem : ∀ r ∈ st.batch, r ∈ D.records := fun r hr =>
    ((mem_lookups_iff r).mp ((h.batch r).mp hr).1).1
  rw [Store.lookup_write_iff, h.batch, mem_lookups_iff]
  · constructor
    · rintro (⟨⟨hr, -⟩, hentry⟩ | ⟨-, hl⟩)
      · exact ⟨D.lookup_of_mem hr, hentry⟩
      · cases hl
    · rintro ⟨hl, hentry⟩
      exact Or.inl ⟨⟨D.mem_of_lookup hl, cxLookupPrefix_isPrefixOf txHash⟩, hentry⟩
  · intro r hr r' hr' hk
    exact congrArg Prod.snd (D.eq_of_mem_of_key_eq (hmem r hr) (hmem r' hr') hk)

/-- The batch holds keys of one width only. -/
theorem lookup_batch_none (key : Bytes)
    (hkey : key.length ≠ cxLookupPrefix.length + hashLength) :
    (Store.empty.write st.batch).lookup key = none := by
  rw [Store.lookup_write_of_not_mem Store.empty]
  · rfl
  · rintro r hr rfl
    obtain ⟨-, entry, hentry⟩ := (h.batch r).mp hr
    exact hkey hentry.width

theorem snapshotOf_write (order : MapOrder) :
    SnapshotOf lib cutoff D ((Store.empty.write st.batch).write
      ((order.visit st.exportedBlocks).map blockRecord)) where
  lookup_iff txHash value := by
    rw [Store.lookup_write_of_not_mem, lookup_batch_iff h]
    rintro r hr hk
    obtain ⟨b, -, rfl⟩ := List.mem_map.mp hr
    exact cxLookupKey_ne_canonicalHashKey txHash b.1 hk.symm
  canonical_iff number value := by
    have hvisit : ∀ b, b ∈ order.visit st.exportedBlocks ↔ b ∈ st.exportedBlocks :=
      fun b => (order.perm st.exportedBlocks).mem_iff
    have hnone := lookup_batch_none h (canonicalHashKey number) (by simp [hashLength])
    rw [Store.lookup_write_iff, hnone, List.mem_map]
    · constructor
      · rintro (⟨b, hb, heq⟩ | ⟨-, hl⟩)
        · obtain ⟨r, hr, entry, hentry, rfl⟩ := (h.blocks b).mp ((hvisit b).mp hb)
          obtain ⟨hr, hp⟩ := (mem_lookups_iff r).mp hr
          obtain ⟨txHash, hk⟩ := eq_cxLookupKey_of_length hp hentry.width
          have hl := D.lookup_of_mem hr
          rw [hk] at hl
          refine ⟨txHash, entry, ⟨⟨r.2, hl, hentry.decoded⟩, hentry.within, hentry.hash⟩, ?_, ?_⟩
          · exact canonicalHashKey_injective (congrArg Prod.fst heq)
          · exact congrArg Prod.snd heq
        · cases hl
      · rintro ⟨txHash, entry, hexports, rfl, rfl⟩
        obtain ⟨v, hl, hentry⟩ := (exports_iff txHash entry).mp hexports
        refine Or.inl ⟨(entry.blockIndex, entry.blockHash), (hvisit _).mpr ?_, rfl⟩
        exact (h.blocks _).mpr ⟨_, (mem_lookups_iff _).mpr
          ⟨D.mem_of_lookup hl, cxLookupPrefix_isPrefixOf txHash⟩, entry, hentry, rfl⟩
    · intro r hr r' hr' hk
      obtain ⟨b, hb, rfl⟩ := List.mem_map.mp hr
      obtain ⟨b', hb', rfl⟩ := List.mem_map.mp hr'
      have hn : b.1 = b'.1 := canonicalHashKey_injective hk
      have hh := h.block_hash ((hvisit b).mp hb)
      rw [hn, h.block_hash ((hvisit b').mp hb')] at hh
      exact congrArg FixedBytes.data hh.symm
  unmarked shard number := by
    rw [Store.lookup_write_of_not_mem, lookup_batch_none h _ (by simp [hashLength])]
    rintro r hr hk
    obtain ⟨b, -, rfl⟩ := List.mem_map.mp hr
    exact canonicalHashKey_ne_spentKey b.1 shard number hk

end Output

/-- A completed command leaves the snapshot of its source at the cutoff. -/
theorem snapshotOf_main {flags : SnapshotFlags} {outputExists : Bool} {order : MapOrder}
    {S : Store} {summary : SnapshotSummary}
    (h : CxLookupSnapshot.main lib flags outputExists D.database order = .ok (S, summary)) :
    SnapshotOf lib flags.cutoff D S := by
  rw [CxLookupSnapshot.main] at h
  split at h
  · cases h
  split at h
  · cases h
  dsimp only at h
  split at h
  · cases h
  · rename_i st hrun
    have hcollected : Collected lib flags.cutoff D
        ([] ++ (D.database.newIterator cxLookupPrefix).1) st :=
      foldlM_collected ⟨fun r => by simp, fun b => by simp⟩ hrun
    split at h
    · cases h
    · cases h
      exact snapshotOf_write hcollected order

end SnapshotContents
