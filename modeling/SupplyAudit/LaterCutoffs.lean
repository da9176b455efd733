import SupplyAudit.CutConsistency

/-!
# The same scan at later cutoffs

Raising the cutoffs can only apply more receipts and reach more groups. The
pending lists of two successful scans agree exactly when no group that was
pending is applied since, and every group reached since is already applied.
-/

namespace LaterCutoffs

open ByteWords ReceiptKeys ChainDatabase FallibleScan CrossShardSupply ReceiptOutcomes
open DestinationView SourceRecords PublishedTotals ReceiptClassification CutConsistency

variable {lib : Codec} {x y : ScanStores}

/-- The same databases with cutoffs that are not lower. -/
structure Later (x y : ScanStores) : Prop where
  sourceShard : y.sourceShard = x.sourceShard
  source : y.source = x.source
  destinations : y.destinations = x.destinations
  sourceCutoff : x.sourceCutoff ≤ y.sourceCutoff
  destinationCutoffs : ∀ shard cutoff, x.destinationCutoffs shard = some cutoff →
    ∃ later, y.destinationCutoffs shard = some later ∧ cutoff ≤ later

/-- Every receipt of the group is applied within the cutoff. -/
def Consumed (lib : Codec) (x : ScanStores) (s : Store) (g : Group) : Prop :=
  ∀ r ∈ g.receipts, ∃ block, Applied lib x g.destination s r.txHash block

theorem Later.applied (h : Later x y) {destination : UInt32} {s : Store} {txHash : Hash}
    {block : UInt64} (happ : Applied lib x destination s txHash block) :
    Applied lib y destination s txHash block := by
  obtain ⟨hat, cutoff, hcutoff, hle⟩ := happ
  obtain ⟨later, hlater, hcl⟩ := h.destinationCutoffs destination cutoff hcutoff
  exact ⟨hat, later, hlater, UInt64.le_trans hle hcl⟩

theorem Later.consumed (h : Later x y) {s : Store} {g : Group} (hc : Consumed lib x s g) :
    Consumed lib y s g := by
  intro r hr
  obtain ⟨block, happ⟩ := hc r hr
  exact ⟨block, h.applied happ⟩

theorem Later.holds (h : Later x y) {record : Record} {g : Group} :
    HoldsGroup lib y record g ↔ HoldsGroup lib x record g := by
  constructor
  · intro hg
    exact ⟨h.source ▸ hg.stored, hg.key, hg.nonempty, h.source ▸ hg.canonical,
      h.sourceShard ▸ hg.decoded⟩
  · intro hg
    exact ⟨h.source.symm ▸ hg.stored, hg.key, hg.nonempty, h.source.symm ▸ hg.canonical,
      h.sourceShard.symm ▸ hg.decoded⟩

theorem Later.supported (h : Later x y) {record : Record} {g : Group} {s : Store}
    (hg : Supported lib x record g s) : Supported lib y record g s :=
  ⟨h.holds.mpr hg.holds, UInt64.le_trans hg.within h.sourceCutoff, h.destinations ▸ hg.destination⟩

theorem Later.iterated (h : Later x y) : iterated y.input = iterated x.input := by
  rw [ReceiptOutcomes.iterated, ReceiptOutcomes.iterated, ScanStores.input, ScanStores.input,
    h.source]

/-- A group that does not stop the scan is pending unless it is consumed. -/
theorem pending_iff_not_consumed {s : Store} {g : Group} (hstops : ¬ StopsScan lib x s g) :
    groupVerdict lib x.input s.database g = .ok (.pending g) ↔ ¬ Consumed lib x s g := by
  constructor
  · intro hpending hconsumed
    obtain ⟨before, receipt, after, blocks, horder, -, -, -, hnot⟩ :=
      (groupVerdict_pending_iff s g).mp hpending
    obtain ⟨block, happ⟩ := hconsumed receipt (by
      rw [horder]
      exact List.mem_append_right before List.mem_cons_self)
    exact hnot block happ
  · intro hnot
    rcases groupVerdict_cases lib x s g with hv | hv | hv
    · obtain ⟨blocks, happ, -⟩ := (groupVerdict_spent_iff s g).mp hv
      refine absurd (fun r hr => ?_) hnot
      obtain ⟨block, -, hb⟩ := happ.exists_block hr
      exact ⟨block, hb⟩
    · exact hv
    · exact absurd ((groupVerdict_rejects_iff s g).mp hv) hstops

/-- In a successful scan a supported group is listed unless it is consumed. -/
theorem listed_iff_not_consumed {totals : DirectionTotals}
    (hok : sumReceipts lib x.input = (totals, none)) {record : Record} {g : Group} {s : Store}
    (h : Supported lib x record g s) :
    g.listing lib ∈ totals.pendingGroups ↔ ¬ Consumed lib x s g := by
  rw [← pending_iff_not_consumed (not_stopsScan_of_ok hok h)]
  constructor
  · intro hlisted
    obtain ⟨-, s', hs', hv⟩ := pending_of_listed hok h.holds hlisted
    rwa [Option.some.inj (hs'.symm.trans h.destination)] at hv
  · exact listing_mem_of_pending hok h

/-- Whether the verdict on a record is that its group is pending. -/
def pendingPart (lib : Codec) (x : ScanStores) (record : Record) : List Group :=
  match verdict lib x.input record with
  | .error _ => []
  | .ok o => groupIn .pending o

theorem pendingGroups_of_ok {totals : DirectionTotals}
    (hok : sumReceipts lib x.input = (totals, none)) :
    totals.pendingGroups =
      ((iterated x.input).flatMap (pendingPart lib x)).map (Group.listing lib) := by
  obtain ⟨-, os, hos, hfinish⟩ := (sumReceipts_ok_iff lib x.input totals).mp hok
  have hparts : (iterated x.input).map (pendingPart lib x) = os.map (groupIn .pending) :=
    map_eq_of_mapM_ok hos fun record o hv => by rw [pendingPart, hv]
  have hgroups : totals.pendingGroups = (tallied lib x.input os).pendingGroups := by
    rw [← hfinish]
    rfl
  rw [hgroups, pendingGroups_tallied, groupsIn, List.flatMap_def, List.flatMap_def, hparts]

/-- What a pending part says: its group is supported and not consumed. -/
theorem mem_pendingPart_iff {totals : DirectionTotals}
    (hok : sumReceipts lib x.input = (totals, none)) {record : Record}
    (hmem : record ∈ iterated x.input) {g : Group} :
    g ∈ pendingPart lib x record ↔ ∃ s, Supported lib x record g s ∧ ¬ Consumed lib x s g := by
  obtain ⟨-, os, hos, -⟩ := (sumReceipts_ok_iff lib x.input totals).mp hok
  obtain ⟨o, -, hv⟩ := mapM_ok_left hos hmem
  rw [pendingPart, hv]
  constructor
  · intro hg
    cases decides_of_verdict ((mem_iterated_iff record).mp hmem).1 hv with
    | skipped | empty | afterCutoff | nonCanonical => simp [groupIn] at hg
    | unsupported | spent => simp [groupIn] at hg
    | pending g' holds within s supported decided =>
      have heq : g = g' := by simpa [groupIn] using hg
      subst heq
      have hsupported : Supported lib x record g s := ⟨holds, within, supported⟩
      exact ⟨s, hsupported,
        (pending_iff_not_consumed (not_stopsScan_of_ok hok hsupported)).mp decided⟩
  · rintro ⟨s, hsupported, hnot⟩
    have hpending := (pending_iff_not_consumed (not_stopsScan_of_ok hok hsupported)).mpr hnot
    rw [hsupported.holds.verdict_supported hsupported.within hsupported.destination, hpending]
      at hv
    cases hv
    simp [groupIn]

/-- Nothing that was pending is consumed since, and nothing reached since is pending. -/
structure Unmoved (lib : Codec) (x y : ScanStores) : Prop where
  waiting : ∀ record g s, Supported lib x record g s → ¬ Consumed lib x s g →
    ¬ Consumed lib y s g
  created : ∀ record g s, Supported lib y record g s → x.sourceCutoff < g.blockNumber →
    Consumed lib y s g

theorem pendingPart_eq {record : Record}
    (h : ∀ g, g ∈ pendingPart lib x record ↔ g ∈ pendingPart lib y record) :
    pendingPart lib x record = pendingPart lib y record := by
  have hshape (z : ScanStores) : pendingPart lib z record = [] ∨
      ∃ g, pendingPart lib z record = [g] := by
    rw [pendingPart]
    split
    · exact .inl rfl
    · rename_i o _
      cases o <;> simp [groupIn]
  rcases hshape x with hx | ⟨g, hx⟩
  · rcases hshape y with hy | ⟨g', hy⟩
    · rw [hx, hy]
    · have hg := (h g').mpr (by rw [hy]; exact List.mem_cons_self)
      rw [hx] at hg
      exact absurd hg List.not_mem_nil
  · have hg := (h g).mp (by rw [hx]; exact List.mem_cons_self)
    rcases hshape y with hy | ⟨g', hy⟩
    · rw [hy] at hg
      exact absurd hg List.not_mem_nil
    · rw [hy, List.mem_singleton] at hg
      rw [hx, hy, hg]

/-- The pending lists of two successful scans agree exactly when nothing moved. -/
theorem pendingGroups_eq_iff (h : Later x y) {tx ty : DirectionTotals}
    (hx : sumReceipts lib x.input = (tx, none)) (hy : sumReceipts lib y.input = (ty, none)) :
    tx.pendingGroups = ty.pendingGroups ↔ Unmoved lib x y := by
  constructor
  · intro heq
    constructor
    case waiting =>
      intro record g s hsupported hnot
      rw [← listed_iff_not_consumed hy (h.supported hsupported), ← heq]
      exact (listed_iff_not_consumed hx hsupported).mpr hnot
    case created =>
      intro record g s hsupported hafter
      by_contra hnot
      have hlisted := (listed_iff_not_consumed hy hsupported).mpr hnot
      rw [← heq] at hlisted
      have hwithin := (pending_of_listed hx (h.holds.mp hsupported.holds) hlisted).1
      exact UInt64.not_le.mpr hafter hwithin
  · intro hunmoved
    rw [pendingGroups_of_ok hx, pendingGroups_of_ok hy, h.iterated, List.flatMap_def,
      List.flatMap_def]
    congr 2
    apply List.map_congr_left
    intro record hmem
    apply pendingPart_eq
    intro g
    rw [mem_pendingPart_iff hx hmem, mem_pendingPart_iff hy (h.iterated.symm ▸ hmem)]
    constructor
    · rintro ⟨s, hsupported, hnot⟩
      exact ⟨s, h.supported hsupported, hunmoved.waiting record g s hsupported hnot⟩
    · rintro ⟨s, hsupported, hnot⟩
      have hwithin : g.blockNumber ≤ x.sourceCutoff := by
        by_contra hafter
        exact hnot (hunmoved.created record g s hsupported (UInt64.not_le.mp hafter))
      exact ⟨s, ⟨h.holds.mp hsupported.holds, hwithin, h.destinations ▸ hsupported.destination⟩,
        fun hconsumed => hnot (h.consumed hconsumed)⟩

end LaterCutoffs
