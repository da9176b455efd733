import SupplyAudit.GroupWalk

/-!
# The destination's records behind a sighting

A receipt is applied in a block when its lookup names the block and the block's
stored canonical hash. Over truthful storage every sighting, every verdict on a
group and every rejection of a record is characterized by stored records alone.
-/

namespace DestinationView

open ByteWords ReceiptKeys ChainDatabase FallibleScan CrossShardSupply ReceiptOutcomes GroupWalk

variable {lib : Codec} {x : ScanStores}

/-- The store's lookup of a transaction decodes to this entry. -/
def LooksUp (lib : Codec) (s : Store) (txHash : Hash) (entry : TxLookupEntry) : Prop :=
  ∃ encoded, s.lookup (cxLookupKey txHash) = some encoded ∧ lib.decodeLookup encoded = .ok entry

theorem LooksUp.unique {s : Store} {txHash : Hash} {a b : TxLookupEntry}
    (ha : LooksUp lib s txHash a) (hb : LooksUp lib s txHash b) : a = b := by
  obtain ⟨encoded, hl, hd⟩ := ha
  obtain ⟨encoded', hl', hd'⟩ := hb
  have he : encoded = encoded' := Option.some.inj (hl.symm.trans hl')
  subst he
  exact Except.ok.inj (hd.symm.trans hd')

/-- The store holds a lookup of the transaction that names this block and the
block's canonical hash. -/
def AppliedAt (lib : Codec) (s : Store) (txHash : Hash) (block : UInt64) : Prop :=
  ∃ entry, LooksUp lib s txHash entry ∧ entry.blockIndex = block ∧
    s.CanonicalAt block entry.blockHash

theorem AppliedAt.unique {s : Store} {txHash : Hash} {a b : UInt64}
    (ha : AppliedAt lib s txHash a) (hb : AppliedAt lib s txHash b) : a = b := by
  obtain ⟨entry, hl, rfl, -⟩ := ha
  obtain ⟨entry', hl', rfl, -⟩ := hb
  rw [hl.unique hl']

/-- The ways in which reading one receipt at the destination is an error. -/
inductive Unreadable (lib : Codec) (x : ScanStores) (destination : UInt32) (s : Store)
    (blockNumber : UInt64) (txHash : Hash) : Prop where
  | markedGap (missing : s.lookup (cxLookupKey txHash) = none)
      (marked : s.lookup (spentKey x.sourceShard blockNumber) ≠ none)
  | emptyLookup (present : s.lookup (cxLookupKey txHash) = some [])
  | malformedLookup (encoded : Bytes) (err : String)
      (present : s.lookup (cxLookupKey txHash) = some encoded)
      (malformed : lib.decodeLookup encoded = .error err)
  | noCutoff (entry : TxLookupEntry) (named : LooksUp lib s txHash entry)
      (absent : x.destinationCutoffs destination = none)
  | noCanonicalHash (entry : TxLookupEntry) (named : LooksUp lib s txHash entry)
      (cutoff : UInt64) (limit : x.destinationCutoffs destination = some cutoff)
      (within : entry.blockIndex ≤ cutoff)
      (missing : ∀ hash, ¬ s.CanonicalAt entry.blockIndex hash)

/-- The receipt is applied in this block and the cutoff covers it. -/
def Applied (lib : Codec) (x : ScanStores) (destination : UInt32) (s : Store) (txHash : Hash)
    (block : UInt64) : Prop :=
  AppliedAt lib s txHash block ∧
    ∃ cutoff, x.destinationCutoffs destination = some cutoff ∧ block ≤ cutoff

theorem Applied.not_unreadable {destination : UInt32} {s : Store} {txHash : Hash}
    {block blockNumber : UInt64} (h : Applied lib x destination s txHash block) :
    ¬ Unreadable lib x destination s blockNumber txHash := by
  obtain ⟨⟨entry, hentry, hblock, hcanon⟩, cutoff, hc, -⟩ := h
  obtain ⟨encoded, hl, hd⟩ := id hentry
  intro hun
  cases hun with
  | markedGap missing marked => rw [hl] at missing; cases missing
  | emptyLookup present =>
    rw [hl] at present
    cases present
    exact lib.noEntry entry hd
  | malformedLookup encoded' err present malformed =>
    rw [hl] at present
    cases present
    rw [hd] at malformed
    cases malformed
  | noCutoff entry' named absent => rw [hc] at absent; cases absent
  | noCanonicalHash entry' named cutoff' limit within missing =>
    have he := named.unique hentry
    subst he
    subst hblock
    exact missing _ hcanon

theorem not_unreadable_of_gap {destination : UInt32} {s : Store} {blockNumber : UInt64}
    {txHash : Hash} (hl : s.lookup (cxLookupKey txHash) = none)
    (hm : s.lookup (spentKey x.sourceShard blockNumber) = none) :
    ¬ Unreadable lib x destination s blockNumber txHash := by
  intro hun
  cases hun with
  | markedGap missing marked => exact marked hm
  | emptyLookup present => rw [hl] at present; cases present
  | malformedLookup encoded err present malformed => rw [hl] at present; cases present
  | noCutoff entry named absent =>
    obtain ⟨encoded, present, -⟩ := named
    rw [hl] at present
    cases present
  | noCanonicalHash entry named cutoff limit within missing =>
    obtain ⟨encoded, present, -⟩ := named
    rw [hl] at present
    cases present

theorem not_unreadable_of_entry {destination : UInt32} {s : Store} {blockNumber : UInt64}
    {txHash : Hash} {encoded : Bytes} {entry : TxLookupEntry} {cutoff : UInt64}
    (hl : s.lookup (cxLookupKey txHash) = some encoded) (h0 : encoded ≠ [])
    (hd : lib.decodeLookup encoded = .ok entry)
    (hc : x.destinationCutoffs destination = some cutoff)
    (hcanon : entry.blockIndex ≤ cutoff → ∃ hash, s.CanonicalAt entry.blockIndex hash) :
    ¬ Unreadable lib x destination s blockNumber txHash := by
  intro hun
  cases hun with
  | markedGap missing marked => rw [hl] at missing; cases missing
  | emptyLookup present =>
    rw [hl] at present
    cases present
    exact h0 rfl
  | malformedLookup encoded' err present malformed =>
    rw [hl] at present
    cases present
    rw [hd] at malformed
    cases malformed
  | noCutoff entry' named absent => rw [hc] at absent; cases absent
  | noCanonicalHash entry' named cutoff' limit within missing =>
    have he : entry' = entry := named.unique ⟨encoded, hl, hd⟩
    subst he
    rw [hc, Option.some.injEq] at limit
    subst limit
    obtain ⟨hash, hhash⟩ := hcanon within
    exact missing hash hhash

/-- What each sighting says about the stored records. -/
def Describes (lib : Codec) (x : ScanStores) (destination : UInt32) (s : Store)
    (blockNumber : UInt64) (txHash : Hash) : Sighting → Prop
  | .applied block => Applied lib x destination s txHash block
  | .unapplied => ¬ Unreadable lib x destination s blockNumber txHash ∧
      ∀ block, ¬ Applied lib x destination s txHash block
  | .failed _ => Unreadable lib x destination s blockNumber txHash

/-- Reading one receipt from truthful storage describes the stored records. -/
theorem sight_describes (lib : Codec) (x : ScanStores) (destination : UInt32) (s : Store)
    (blockNumber : UInt64) (receipt : Receipt) :
    Describes lib x destination s blockNumber receipt.txHash
      (sight lib x.input destination s.database blockNumber receipt) := by
  rw [sight, readOptional_database, readOptional_database]
  cases hl : s.lookup (cxLookupKey receipt.txHash) with
  | none =>
    cases hm : s.lookup (spentKey x.input.sourceShard blockNumber) with
    | some marker =>
      have hun : Unreadable lib x destination s blockNumber receipt.txHash :=
        .markedGap hl (by simpa [ScanStores.input] using Option.ne_none_iff_exists'.mpr ⟨marker, hm⟩)
      dsimp only
      by_cases h0 : marker ≠ [0]
      · simpa only [if_pos h0, Describes] using hun
      · simpa only [if_neg h0, Describes] using hun
    | none =>
      refine ⟨not_unreadable_of_gap hl hm, ?_⟩
      rintro block ⟨⟨entry, ⟨encoded, present, -⟩, -⟩, -⟩
      rw [hl] at present
      cases present
  | some encoded =>
    dsimp only
    by_cases h0 : encoded.length = 0
    · simp only [if_pos h0, Describes]
      exact .emptyLookup (by rw [hl, List.length_eq_zero_iff.mp h0])
    have hne : encoded ≠ [] := fun he => h0 (by rw [he]; rfl)
    simp only [if_neg h0]
    cases hd : lib.decodeLookup encoded with
    | error err => exact .malformedLookup encoded err hl hd
    | ok entry =>
      have hentry : LooksUp lib s receipt.txHash entry := ⟨encoded, hl, hd⟩
      dsimp only [ScanStores.input]
      cases hc : x.destinationCutoffs destination with
      | none => exact .noCutoff entry hentry hc
      | some cutoff =>
        dsimp only
        by_cases hafter : entry.blockIndex > cutoff
        · have hlt : ¬ entry.blockIndex ≤ cutoff := UInt64.not_le.mpr hafter
          simp only [if_pos hafter, Describes]
          refine ⟨not_unreadable_of_entry hl hne hd hc (fun h => absurd h hlt), ?_⟩
          rintro block ⟨⟨entry', hentry', rfl, -⟩, cutoff', hc', hle⟩
          rw [hc, Option.some.injEq] at hc'
          rw [hentry'.unique hentry, ← hc'] at hle
          exact hlt hle
        simp only [if_neg hafter]
        have hle : entry.blockIndex ≤ cutoff := UInt64.not_lt.mp hafter
        cases hh : readCanonicalHash s.database entry.blockIndex with
        | error err =>
          refine .noCanonicalHash entry hentry cutoff hc hle (fun hash hash' => ?_)
          rw [(readCanonicalHash_some_iff s _ hash).mpr hash'] at hh
          cases hh
        | ok found =>
          cases found with
          | none =>
            refine .noCanonicalHash entry hentry cutoff hc hle (fun hash hash' => ?_)
            rw [(readCanonicalHash_some_iff s _ hash).mpr hash'] at hh
            cases hh
          | some canonicalHash =>
            have hcanon := (readCanonicalHash_some_iff s _ canonicalHash).mp hh
            dsimp only
            by_cases hneq : canonicalHash ≠ entry.blockHash
            · simp only [if_pos hneq, Describes]
              refine ⟨not_unreadable_of_entry hl hne hd hc (fun _ => ⟨_, hcanon⟩), ?_⟩
              rintro block ⟨⟨entry', hentry', rfl, happ⟩, -⟩
              rw [hentry'.unique hentry] at happ
              exact hneq (hcanon.unique happ)
            · simp only [if_neg hneq, Describes]
              have heq : canonicalHash = entry.blockHash := not_not.mp hneq
              exact ⟨⟨entry, hentry, rfl, heq ▸ hcanon⟩, cutoff, hc, hle⟩

theorem sight_applied_iff (destination : UInt32) (s : Store) (blockNumber : UInt64)
    (receipt : Receipt) (block : UInt64) :
    sight lib x.input destination s.database blockNumber receipt = .applied block ↔
      Applied lib x destination s receipt.txHash block := by
  have hs := sight_describes lib x destination s blockNumber receipt
  cases hc : sight lib x.input destination s.database blockNumber receipt with
  | applied block' =>
    rw [hc] at hs
    simp only [Sighting.applied.injEq]
    exact ⟨fun he => he ▸ hs, fun ha => hs.1.unique ha.1⟩
  | unapplied =>
    rw [hc] at hs
    simpa using hs.2 block
  | failed err =>
    rw [hc] at hs
    simp only [reduceCtorEq, false_iff]
    exact fun ha => ha.not_unreadable hs

theorem sight_failed_iff (destination : UInt32) (s : Store) (blockNumber : UInt64)
    (receipt : Receipt) :
    (∃ err, sight lib x.input destination s.database blockNumber receipt = .failed err) ↔
      Unreadable lib x destination s blockNumber receipt.txHash := by
  have hs := sight_describes lib x destination s blockNumber receipt
  cases hc : sight lib x.input destination s.database blockNumber receipt with
  | applied block =>
    rw [hc] at hs
    simpa using Applied.not_unreadable hs
  | unapplied =>
    rw [hc] at hs
    simpa using hs.1
  | failed err =>
    rw [hc] at hs
    exact ⟨fun _ => hs, fun _ => ⟨err, rfl⟩⟩

/-- The receipts are applied in these blocks, one block a receipt. -/
def AppliedIn (lib : Codec) (x : ScanStores) (destination : UInt32) (s : Store)
    (receipts : List Receipt) (blocks : List UInt64) : Prop :=
  List.Forall₂ (fun r b => Applied lib x destination s r.txHash b) receipts blocks

theorem AppliedIn.exists_receipt {destination : UInt32} {s : Store} {receipts : List Receipt}
    {blocks : List UInt64} (h : AppliedIn lib x destination s receipts blocks) (block : UInt64)
    (hb : block ∈ blocks) : ∃ r ∈ receipts, Applied lib x destination s r.txHash block := by
  induction h with
  | nil => cases hb
  | cons hr _ ih =>
    rename_i r b rs bs _
    rcases List.mem_cons.mp hb with rfl | hb
    · exact ⟨r, List.mem_cons_self, hr⟩
    · obtain ⟨r', hr', happ⟩ := ih hb
      exact ⟨r', List.mem_cons_of_mem r hr', happ⟩

theorem AppliedIn.exists_block {destination : UInt32} {s : Store} {receipts : List Receipt}
    {blocks : List UInt64} (h : AppliedIn lib x destination s receipts blocks) {r : Receipt}
    (hr : r ∈ receipts) : ∃ block ∈ blocks, Applied lib x destination s r.txHash block := by
  induction h with
  | nil => cases hr
  | cons hrb _ ih =>
    rename_i r' b rs bs _
    rcases List.mem_cons.mp hr with rfl | hr
    · exact ⟨b, List.mem_cons_self, hrb⟩
    · obtain ⟨block, hblock, happ⟩ := ih hr
      exact ⟨block, List.mem_cons_of_mem b hblock, happ⟩

theorem sights_eq_applied_iff (destination : UInt32) (s : Store) (blockNumber : UInt64)
    (receipts : List Receipt) (blocks : List UInt64) :
    receipts.map (sight lib x.input destination s.database blockNumber) =
        blocks.map .applied ↔ AppliedIn lib x destination s receipts blocks := by
  rw [← List.forall₂_eq_eq_eq, List.forall₂_map_left_iff, List.forall₂_map_right_iff, AppliedIn]
  simp only [sight_applied_iff]

theorem sights_eq_append {f : Receipt → Sighting} {receipts : List Receipt}
    {left right : List Sighting} {s : Sighting} (h : receipts.map f = left ++ s :: right) :
    ∃ before receipt after, receipts = before ++ receipt :: after ∧ before.map f = left ∧
      f receipt = s := by
  obtain ⟨before, tail, rfl, hbefore, htail⟩ := List.map_eq_append_iff.mp h
  obtain ⟨receipt, after, rfl, hr, -⟩ := List.map_eq_cons_iff.mp htail
  exact ⟨before, receipt, after, rfl, hbefore, hr⟩

/-- A group is spent when all its receipts are applied and no split is noticed. -/
theorem groupVerdict_spent_iff (s : Store) (g : Group) :
    groupVerdict lib x.input s.database g = .ok (.spent g) ↔
      ∃ blocks, AppliedIn lib x g.destination s g.receipts blocks ∧ Steady 0 blocks := by
  have hw := walk_true_iff (.splitGroup x.input.sourceShard g.blockNumber)
    (g.receipts.map (sight lib x.input g.destination s.database g.blockNumber)) 0
  simp only [sights_eq_applied_iff] at hw
  rw [← hw, groupVerdict, destinationLoop_eq_walk]
  cases walk _ _ _ with
  | error err => simp [Except.map]
  | ok spent => cases spent <;> simp [Except.map]

/-- A group is pending when a receipt that is not applied comes after a steady
run of applied ones. -/
theorem groupVerdict_pending_iff (s : Store) (g : Group) :
    groupVerdict lib x.input s.database g = .ok (.pending g) ↔
      ∃ before receipt after blocks, g.receipts = before ++ receipt :: after ∧
        AppliedIn lib x g.destination s before blocks ∧ Steady 0 blocks ∧
        ¬ Unreadable lib x g.destination s g.blockNumber receipt.txHash ∧
        ∀ block, ¬ Applied lib x g.destination s receipt.txHash block := by
  have hv : groupVerdict lib x.input s.database g = .ok (.pending g) ↔
      walk (.splitGroup x.input.sourceShard g.blockNumber)
        (g.receipts.map (sight lib x.input g.destination s.database g.blockNumber)) 0 =
        .ok false := by
    rw [groupVerdict, destinationLoop_eq_walk]
    cases walk _ _ _ with
    | error err => simp [Except.map]
    | ok spent => cases spent <;> simp [Except.map]
  rw [hv, walk_false_iff]
  constructor
  · rintro ⟨blocks, rest, he, hs⟩
    obtain ⟨before, receipt, after, hr, hb, hu⟩ := sights_eq_append he
    have hd := sight_describes lib x g.destination s g.blockNumber receipt
    rw [hu] at hd
    exact ⟨before, receipt, after, blocks, hr, (sights_eq_applied_iff _ _ _ _ _).mp hb, hs, hd⟩
  · rintro ⟨before, receipt, after, blocks, hr, hb, hs, hun, hna⟩
    refine ⟨blocks, after.map (sight lib x.input g.destination s.database g.blockNumber), ?_, hs⟩
    have hu : sight lib x.input g.destination s.database g.blockNumber receipt = .unapplied := by
      cases hc : sight lib x.input g.destination s.database g.blockNumber receipt with
      | applied block => exact absurd ((sight_applied_iff _ _ _ _ _).mp hc) (hna block)
      | unapplied => rfl
      | failed err => exact absurd ((sight_failed_iff _ _ _ _).mp ⟨err, hc⟩) hun
    rw [hr, List.map_append, (sights_eq_applied_iff _ _ _ _ _).mpr hb, List.map_cons, hu]

/-- After a steady run of applied receipts the next one is unreadable, or it is
applied in another block than the one before it, that block not being zero. -/
def StopsScan (lib : Codec) (x : ScanStores) (s : Store) (g : Group) : Prop :=
  ∃ before receipt after blocks, g.receipts = before ++ receipt :: after ∧
    AppliedIn lib x g.destination s before blocks ∧ Steady 0 blocks ∧
    (Unreadable lib x g.destination s g.blockNumber receipt.txHash ∨
      ∃ block, Applied lib x g.destination s receipt.txHash block ∧
        lastBlock 0 blocks ≠ 0 ∧ lastBlock 0 blocks ≠ block)

theorem groupVerdict_rejects_iff (s : Store) (g : Group) :
    Rejects (groupVerdict lib x.input s.database) g ↔ StopsScan lib x s g := by
  have hv : Rejects (groupVerdict lib x.input s.database) g ↔
      ∃ err, walk (.splitGroup x.input.sourceShard g.blockNumber)
        (g.receipts.map (sight lib x.input g.destination s.database g.blockNumber)) 0 =
        .error err := by
    rw [Rejects, groupVerdict, destinationLoop_eq_walk]
    cases walk _ _ _ with
    | error err => simp [Except.map]
    | ok spent => simp [Except.map]
  rw [hv, walk_error_iff]
  constructor
  · rintro ⟨blocks, sighting, rest, he, hs, hend⟩
    obtain ⟨before, receipt, after, hr, hb, hf⟩ := sights_eq_append he
    refine ⟨before, receipt, after, blocks, hr, (sights_eq_applied_iff _ _ _ _ _).mp hb, hs, ?_⟩
    rcases hend with ⟨err, rfl⟩ | ⟨block, rfl, hsplit⟩
    · exact Or.inl ((sight_failed_iff _ _ _ _).mp ⟨err, hf⟩)
    · refine Or.inr ⟨block, (sight_applied_iff _ _ _ _ _).mp hf, ?_⟩
      exact ⟨fun h0 => hsplit (Or.inl h0), fun he => hsplit (Or.inr he)⟩
  · rintro ⟨before, receipt, after, blocks, hr, hb, hs, hend⟩
    refine ⟨blocks, sight lib x.input g.destination s.database g.blockNumber receipt,
      after.map (sight lib x.input g.destination s.database g.blockNumber), ?_, hs, ?_⟩
    · rw [hr, List.map_append, (sights_eq_applied_iff _ _ _ _ _).mpr hb, List.map_cons]
    · rcases hend with hun | ⟨block, happ, h0, hne⟩
      · exact Or.inl ((sight_failed_iff _ _ _ _).mpr hun)
      · refine Or.inr ⟨block, (sight_applied_iff _ _ _ _ _).mpr happ, ?_⟩
        rintro (h | h)
        · exact h0 h
        · exact hne h

theorem groupVerdict_cases (lib : Codec) (x : ScanStores) (s : Store) (g : Group) :
    groupVerdict lib x.input s.database g = .ok (.spent g) ∨
      groupVerdict lib x.input s.database g = .ok (.pending g) ∨
      Rejects (groupVerdict lib x.input s.database) g := by
  rw [Rejects, groupVerdict]
  cases destinationLoop lib x.input g.destination s.database g.blockNumber g.receipts 0 with
  | error err => exact Or.inr (Or.inr ⟨err, rfl⟩)
  | ok spent => cases spent <;> simp [Except.map]

end DestinationView
