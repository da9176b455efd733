import SupplyAudit.PublishedTotals
import SupplyAudit.SourceRecords

/-!
# Spent and pending groups

A canonical group should be spent when all its receipts are applied in one
destination block within the cutoff, pending when none is applied, and an error
when it is mixed. The receipt loop stops at the first receipt that is not
applied and takes block zero for "no block yet", so two shapes of mixed groups
slip through. The classification is exact precisely when no group has such a
shape or the scan aborts for another reason.
-/

namespace ReceiptClassification

open ByteWords ReceiptKeys ChainDatabase FallibleScan CrossShardSupply ReceiptOutcomes GroupWalk
open DestinationView SourceRecords PublishedTotals

variable {lib : Codec} {x : ScanStores}

/-- A canonical group within the source cutoff whose destination is scanned. -/
structure Supported (lib : Codec) (x : ScanStores) (record : Record) (g : Group) (s : Store) :
    Prop where
  holds : HoldsGroup lib x record g
  within : g.blockNumber ≤ x.sourceCutoff
  destination : x.destinations g.destination = some s

/-- No receipt lacks its lookup while the group has a spent marker. -/
def Gapless (x : ScanStores) (s : Store) (g : Group) : Prop :=
  ∀ r ∈ g.receipts, s.lookup (cxLookupKey r.txHash) = none →
    s.lookup (spentKey x.sourceShard g.blockNumber) = none

def AllApplied (lib : Codec) (x : ScanStores) (s : Store) (g : Group) : Prop :=
  ∃ block, ∀ r ∈ g.receipts, Applied lib x g.destination s r.txHash block

def NoneApplied (lib : Codec) (x : ScanStores) (s : Store) (g : Group) : Prop :=
  ∀ r ∈ g.receipts, ∀ block, ¬ Applied lib x g.destination s r.txHash block

/-- Some receipt is applied, and another is not, or is applied in another block. -/
def Mixed (lib : Codec) (x : ScanStores) (s : Store) (g : Group) : Prop :=
  (∃ r ∈ g.receipts, ∃ block, Applied lib x g.destination s r.txHash block) ∧
    ((∃ r ∈ g.receipts, ∀ block, ¬ Applied lib x g.destination s r.txHash block) ∨
      ∃ r ∈ g.receipts, ∃ r' ∈ g.receipts, ∃ block block',
        Applied lib x g.destination s r.txHash block ∧
          Applied lib x g.destination s r'.txHash block' ∧ block ≠ block')

theorem not_mixed_of_allApplied {s : Store} {g : Group} (h : AllApplied lib x s g) :
    ¬ Mixed lib x s g := by
  obtain ⟨block, hall⟩ := h
  rintro ⟨-, ⟨r, hr, hnone⟩ | ⟨r, hr, r', hr', b, b', hb, hb', hne⟩⟩
  · exact hnone block (hall r hr)
  · exact hne ((hb.1.unique (hall r hr).1).trans ((hall r' hr').1.unique hb'.1))

theorem not_allApplied_and_noneApplied {s : Store} {g : Group} (hne : g.receipts ≠ [])
    (hall : AllApplied lib x s g) : ¬ NoneApplied lib x s g := by
  obtain ⟨block, hall⟩ := hall
  obtain ⟨r, hr⟩ := List.exists_mem_of_ne_nil _ hne
  exact fun hnone => hnone r hr block (hall r hr)

/-- Every group is applied as a whole, not at all, or mixed. -/
theorem allApplied_or_noneApplied_of_not_mixed {s : Store} {g : Group}
    (h : ¬ Mixed lib x s g) : AllApplied lib x s g ∨ NoneApplied lib x s g := by
  by_cases hsome : ∃ r ∈ g.receipts, ∃ block, Applied lib x g.destination s r.txHash block
  · obtain ⟨r, hr, block, happ⟩ := id hsome
    refine Or.inl ⟨block, fun r' hr' => ?_⟩
    by_contra hno
    apply h
    refine ⟨hsome, ?_⟩
    by_cases happ' : ∃ block', Applied lib x g.destination s r'.txHash block'
    · obtain ⟨block', happ'⟩ := happ'
      have hne : block ≠ block' := by
        rintro rfl
        exact hno happ'
      exact Or.inr ⟨r, hr, r', hr', block, block', happ, happ', hne⟩
    · exact Or.inl ⟨r', hr', not_exists.mp happ'⟩
  · refine Or.inr (fun r hr block happ => ?_)
    exact hsome ⟨r, hr, block, happ⟩

/-- The two shapes of mixed groups on which the receipt loop reports nothing. -/
inductive SlipsThrough (lib : Codec) (x : ScanStores) (s : Store) (g : Group) : Prop where
  /-- A readable receipt that is not applied comes after receipts applied in
  block zero and then in one other block, and some other receipt is applied. -/
  | early (before : List Receipt) (receipt : Receipt) (after : List Receipt)
      (zeros later : Nat) (block : UInt64)
      (order : g.receipts = before ++ receipt :: after)
      (leading : AppliedIn lib x g.destination s before
        (List.replicate zeros 0 ++ List.replicate later block))
      (nonzero : block ≠ 0)
      (readable : ¬ Unreadable lib x g.destination s g.blockNumber receipt.txHash)
      (unapplied : ∀ block, ¬ Applied lib x g.destination s receipt.txHash block)
      (other : ∃ r ∈ before ++ after, ∃ block, Applied lib x g.destination s r.txHash block)
  /-- Receipts applied in block zero come before receipts applied in one other block. -/
  | genesis (zeros later : Nat) (block : UInt64)
      (applied : AppliedIn lib x g.destination s g.receipts
        (List.replicate (zeros + 1) 0 ++ List.replicate (later + 1) block))
      (nonzero : block ≠ 0)

/-- A group applied receipt by receipt in a single block is applied as a whole. -/
theorem allApplied_of_appliedIn {s : Store} {g : Group} {n : Nat} {block : UInt64}
    (h : AppliedIn lib x g.destination s g.receipts (List.replicate n block)) :
    AllApplied lib x s g := by
  refine ⟨block, fun r hr => ?_⟩
  obtain ⟨b, hb, happ⟩ := h.exists_block hr
  exact List.eq_of_mem_replicate hb ▸ happ

theorem slipsThrough_of_spent {s : Store} {g : Group} (hmixed : Mixed lib x s g)
    (h : groupVerdict lib x.input s.database g = .ok (.spent g)) : SlipsThrough lib x s g := by
  obtain ⟨blocks, happ, hsteady⟩ := (groupVerdict_spent_iff s g).mp h
  obtain ⟨zeros, later, block, rfl, hb⟩ := (steady_zero_iff blocks).mp hsteady
  cases zeros with
  | zero => exact absurd hmixed (not_mixed_of_allApplied (allApplied_of_appliedIn happ))
  | succ zeros =>
    cases later with
    | zero =>
      rw [List.replicate_zero, List.append_nil] at happ
      exact absurd hmixed (not_mixed_of_allApplied (allApplied_of_appliedIn happ))
    | succ later => exact .genesis zeros later block happ hb

theorem slipsThrough_of_pending {s : Store} {g : Group} (hmixed : Mixed lib x s g)
    (h : groupVerdict lib x.input s.database g = .ok (.pending g)) : SlipsThrough lib x s g := by
  obtain ⟨before, receipt, after, blocks, horder, happ, hsteady, hread, hnot⟩ :=
    (groupVerdict_pending_iff s g).mp h
  obtain ⟨zeros, later, block, rfl, hb⟩ := (steady_zero_iff blocks).mp hsteady
  obtain ⟨⟨r, hr, b, hrb⟩, -⟩ := hmixed
  refine .early before receipt after zeros later block horder happ hb hread hnot ⟨r, ?_, b, hrb⟩
  rw [horder, List.mem_append, List.mem_cons] at hr
  rcases hr with hr | rfl | hr
  · exact List.mem_append_left after hr
  · exact absurd hrb (hnot b)
  · exact List.mem_append_right before hr

/-- The shapes listed are exactly the mixed groups that do not stop the scan. -/
theorem slipsThrough_iff (s : Store) (g : Group) :
    SlipsThrough lib x s g ↔ Mixed lib x s g ∧ ¬ StopsScan lib x s g := by
  constructor
  · intro h
    cases h with
    | early before receipt after zeros later block order leading nonzero readable unapplied
        other =>
      have hsteady := (steady_zero_iff _).mpr ⟨zeros, later, block, rfl, nonzero⟩
      have hv := (groupVerdict_pending_iff s g).mpr
        ⟨before, receipt, after, _, order, leading, hsteady, readable, unapplied⟩
      refine ⟨⟨?_, Or.inl ⟨receipt, ?_, unapplied⟩⟩, ?_⟩
      · obtain ⟨r, hr, b, hrb⟩ := other
        refine ⟨r, ?_, b, hrb⟩
        rw [order]
        rcases List.mem_append.mp hr with hr | hr
        · exact List.mem_append_left _ hr
        · exact List.mem_append_right _ (List.mem_cons_of_mem receipt hr)
      · rw [order]
        exact List.mem_append_right _ List.mem_cons_self
      · rw [← groupVerdict_rejects_iff]
        exact not_rejects_iff.mpr ⟨_, hv⟩
    | genesis zeros later block applied nonzero =>
      have hsteady := (steady_zero_iff _).mpr ⟨zeros + 1, later + 1, block, rfl, nonzero⟩
      have hv := (groupVerdict_spent_iff s g).mpr ⟨_, applied, hsteady⟩
      obtain ⟨r, hr, hr0⟩ := AppliedIn.exists_receipt applied 0 (by simp)
      obtain ⟨r', hr', hr'b⟩ := AppliedIn.exists_receipt applied block (by simp)
      refine ⟨⟨⟨r, hr, 0, hr0⟩, Or.inr ⟨r, hr, r', hr', 0, block, hr0, hr'b, nonzero.symm⟩⟩, ?_⟩
      rw [← groupVerdict_rejects_iff]
      exact not_rejects_iff.mpr ⟨_, hv⟩
  · rintro ⟨hmixed, hstops⟩
    rcases groupVerdict_cases lib x s g with h | h | h
    · exact slipsThrough_of_spent hmixed h
    · exact slipsThrough_of_pending hmixed h
    · exact absurd ((groupVerdict_rejects_iff s g).mp h) hstops

/-- The scan's step on a record has the effect of this outcome, whatever the totals. -/
def CountedAs (lib : Codec) (x : ScanStores) (record : Record) (o : Outcome) : Prop :=
  ∀ t, scanRecord lib x.input t record = .ok (tally lib t o)

/-- The classification is exact: the two readings of a group are decided by its
applications, a mixed group is an error, and nothing listed as pending was applied. -/
structure ExactClassification (lib : Codec) (x : ScanStores) : Prop where
  spent_iff : ∀ totals, sumReceipts lib x.input = (totals, none) →
    ∀ record g s, Supported lib x record g s → Gapless x s g →
      (CountedAs lib x record (.spent g) ↔ AllApplied lib x s g)
  pending_iff : ∀ totals, sumReceipts lib x.input = (totals, none) →
    ∀ record g s, Supported lib x record g s → Gapless x s g →
      (CountedAs lib x record (.pending g) ↔ NoneApplied lib x s g)
  mixed_aborts : ∀ record g s, Supported lib x record g s → Gapless x s g → Mixed lib x s g →
    ∃ err, sumReceipts lib x.input = ({}, some err)
  listed_unapplied : ∀ totals, sumReceipts lib x.input = (totals, none) →
    ∀ listing ∈ totals.pendingGroups, ∀ s, x.destinations listing.destinationShard = some s →
      ∀ detail ∈ listing.receipts, ∀ block,
        ¬ Applied lib x listing.destinationShard s detail.transactionHash block

theorem countedAs_of_verdict {record : Record} {o : Outcome}
    (h : verdict lib x.input record = .ok o) : CountedAs lib x record o := by
  intro t
  rw [scanRecord_eq, h]
  rfl

/-- A decided record is counted as spent or pending exactly when that is its verdict. -/
theorem countedAs_iff {record : Record} {g : Group} {o o' : Outcome}
    (holds : HoldsGroup lib x record g) (ho : o = .spent g ∨ o = .pending g)
    (hv : verdict lib x.input record = .ok o') : CountedAs lib x record o ↔ o' = o := by
  constructor
  · intro h
    have ht := (countedAs_of_verdict hv {}).symm.trans (h {})
    have hb : bucket o' = bucket o := bucket_eq_of_tally_eq (Except.ok.inj ht)
    cases decides_of_verdict holds.stored hv with
    | skipped | empty | afterCutoff | nonCanonical | unsupported =>
      rcases ho with rfl | rfl <;> simp [bucket] at hb
    | spent g' holds' =>
      rcases ho with rfl | rfl
      · rw [holds'.unique holds]
      · simp [bucket] at hb
    | pending g' holds' =>
      rcases ho with rfl | rfl
      · simp [bucket] at hb
      · rw [holds'.unique holds]
  · rintro rfl
    exact countedAs_of_verdict hv

/-- In a successful scan a supported group is counted as its verdict says. -/
theorem countedAs_iff_groupVerdict {record : Record} {g : Group} {s : Store} {o : Outcome}
    {totals : DirectionTotals} (hok : sumReceipts lib x.input = (totals, none))
    (h : Supported lib x record g s) (ho : o = .spent g ∨ o = .pending g) :
    CountedAs lib x record o ↔ groupVerdict lib x.input s.database g = .ok o := by
  obtain ⟨o', hv⟩ := verdict_of_ok hok h.holds
  rw [countedAs_iff h.holds ho hv, ← h.holds.verdict_supported h.within h.destination, hv,
    Except.ok.injEq]

/-- A successful scan stopped at no supported group. -/
theorem not_stopsScan_of_ok {record : Record} {g : Group} {s : Store} {totals : DirectionTotals}
    (hok : sumReceipts lib x.input = (totals, none)) (h : Supported lib x record g s) :
    ¬ StopsScan lib x s g := by
  intro hstops
  obtain ⟨err, herr⟩ := (sumReceipts_aborts_iff_record lib x).mpr
    ⟨record, h.holds.stored, .destination g h.holds h.within s h.destination hstops⟩
  rw [hok] at herr
  cases herr

theorem allApplied_of_spent {s : Store} {g : Group} (hmixed : ¬ Mixed lib x s g)
    (hne : g.receipts ≠ []) (h : groupVerdict lib x.input s.database g = .ok (.spent g)) :
    AllApplied lib x s g := by
  obtain ⟨blocks, happ, -⟩ := (groupVerdict_spent_iff s g).mp h
  refine (allApplied_or_noneApplied_of_not_mixed hmixed).resolve_right (fun hnone => ?_)
  obtain ⟨r, hr⟩ := List.exists_mem_of_ne_nil _ hne
  obtain ⟨block, -, hb⟩ := AppliedIn.exists_block happ hr
  exact hnone r hr block hb

theorem noneApplied_of_pending {s : Store} {g : Group} (hmixed : ¬ Mixed lib x s g)
    (h : groupVerdict lib x.input s.database g = .ok (.pending g)) : NoneApplied lib x s g := by
  obtain ⟨before, receipt, after, blocks, horder, -, -, -, hnot⟩ :=
    (groupVerdict_pending_iff s g).mp h
  refine (allApplied_or_noneApplied_of_not_mixed hmixed).resolve_left (fun hall => ?_)
  obtain ⟨block, hall⟩ := hall
  refine hnot block (hall receipt ?_)
  rw [horder]
  exact List.mem_append_right before List.mem_cons_self

/-- Without mixed groups a listed group is one of which no receipt was applied. -/
theorem listed_unapplied_of_not_mixed {totals : DirectionTotals}
    (hok : sumReceipts lib x.input = (totals, none))
    (hmixed : ∀ record g s, Supported lib x record g s → ¬ Mixed lib x s g)
    {listing : ReceiptGroup} (hl : listing ∈ totals.pendingGroups) {s : Store}
    (hs : x.destinations listing.destinationShard = some s) {detail : ReceiptDetail}
    (hd : detail ∈ listing.receipts) (block : UInt64) :
    ¬ Applied lib x listing.destinationShard s detail.transactionHash block := by
  obtain ⟨-, os, hos, hfinish⟩ := (sumReceipts_ok_iff lib x.input totals).mp hok
  obtain ⟨g, hg, rfl⟩ := (mem_pendingGroups_iff hfinish listing).mp hl
  obtain ⟨record, hmem, hv⟩ := mapM_ok_right hos hg
  cases decides_of_verdict ((mem_iterated_iff record).mp hmem).1 hv with
  | pending _ holds within s' supported decided =>
    have he : s' = s := Option.some.inj (supported.symm.trans hs)
    subst he
    have hnone := noneApplied_of_pending (hmixed record g s' ⟨holds, within, supported⟩) decided
    obtain ⟨r, hr, rfl⟩ := List.mem_map.mp hd
    exact hnone r hr block

/-- The pending list of a successful scan holds every group with that verdict. -/
theorem listing_mem_of_pending {record : Record} {g : Group} {s : Store}
    {totals : DirectionTotals} (hok : sumReceipts lib x.input = (totals, none))
    (h : Supported lib x record g s)
    (hv : groupVerdict lib x.input s.database g = .ok (.pending g)) :
    g.listing lib ∈ totals.pendingGroups := by
  obtain ⟨-, os, hos, hfinish⟩ := (sumReceipts_ok_iff lib x.input totals).mp hok
  obtain ⟨o, ho, hvo⟩ := mapM_ok_left hos h.holds.mem_iterated
  rw [h.holds.verdict_supported h.within h.destination, hv, Except.ok.injEq] at hvo
  exact (mem_pendingGroups_iff hfinish _).mpr ⟨g, hvo ▸ ho, rfl⟩

/-- A group that is not mixed and does not stop the scan is decided by its applications. -/
theorem groupVerdict_of_not_mixed {s : Store} {g : Group} (hmixed : ¬ Mixed lib x s g)
    (hstops : ¬ StopsScan lib x s g) (hne : g.receipts ≠ []) :
    (AllApplied lib x s g ∧ groupVerdict lib x.input s.database g = .ok (.spent g)) ∨
      (NoneApplied lib x s g ∧ groupVerdict lib x.input s.database g = .ok (.pending g)) := by
  rcases groupVerdict_cases lib x s g with hv | hv | hv
  · exact Or.inl ⟨allApplied_of_spent hmixed hne hv, hv⟩
  · exact Or.inr ⟨noneApplied_of_pending hmixed hv, hv⟩
  · exact absurd ((groupVerdict_rejects_iff s g).mp hv) hstops

/-- Without mixed groups the classification is exact. -/
theorem exact_of_not_mixed (hmixed : ∀ record g s, Supported lib x record g s → ¬ Mixed lib x s g) :
    ExactClassification lib x where
  spent_iff totals hok record g s h _ := by
    rw [countedAs_iff_groupVerdict hok h (Or.inl rfl)]
    have hne := h.holds.receipts_ne_nil
    rcases groupVerdict_of_not_mixed (hmixed record g s h) (not_stopsScan_of_ok hok h) hne with
      ⟨happ, hv⟩ | ⟨happ, hv⟩
    · exact iff_of_true hv happ
    · refine iff_of_false (fun hs => ?_) (fun hall => not_allApplied_and_noneApplied hne hall happ)
      rw [hv] at hs
      cases hs
  pending_iff totals hok record g s h _ := by
    rw [countedAs_iff_groupVerdict hok h (Or.inr rfl)]
    have hne := h.holds.receipts_ne_nil
    rcases groupVerdict_of_not_mixed (hmixed record g s h) (not_stopsScan_of_ok hok h) hne with
      ⟨happ, hv⟩ | ⟨happ, hv⟩
    · refine iff_of_false (fun hs => ?_) (not_allApplied_and_noneApplied hne happ)
      rw [hv] at hs
      cases hs
    · exact iff_of_true hv happ
  mixed_aborts record g s h _ hm := absurd hm (hmixed record g s h)
  listed_unapplied totals hok listing hl s hs detail hd block :=
    listed_unapplied_of_not_mixed hok hmixed hl hs hd block

/-- An aborted scan classifies nothing. -/
theorem exact_of_aborts (h : ∃ err, sumReceipts lib x.input = ({}, some err)) :
    ExactClassification lib x := by
  have hno : ∀ totals, sumReceipts lib x.input ≠ (totals, none) := by
    obtain ⟨err, herr⟩ := h
    intro totals hok
    rw [herr] at hok
    cases hok
  exact
    { spent_iff := fun totals hok => absurd hok (hno totals)
      pending_iff := fun totals hok => absurd hok (hno totals)
      mixed_aborts := fun _ _ _ _ _ _ => h
      listed_unapplied := fun totals hok => absurd hok (hno totals) }

/-- A group that slips through an otherwise successful scan breaks the classification. -/
theorem not_slipsThrough_of_exact (hexact : ExactClassification lib x) {totals : DirectionTotals}
    (hok : sumReceipts lib x.input = (totals, none)) {record : Record} {g : Group} {s : Store}
    (h : Supported lib x record g s) : ¬ SlipsThrough lib x s g := by
  intro hslips
  have hmixed := ((slipsThrough_iff s g).mp hslips).1
  by_cases hgap : Gapless x s g
  · obtain ⟨err, herr⟩ := hexact.mixed_aborts record g s h hgap hmixed
    rw [hok] at herr
    cases herr
  -- a missing lookup rules out the spent verdict, so the group is listed as pending
  · rcases groupVerdict_cases lib x s g with hv | hv | hv
    · apply hgap
      intro r hr hmissing
      obtain ⟨blocks, happ, -⟩ := (groupVerdict_spent_iff s g).mp hv
      obtain ⟨block, -, ⟨entry, ⟨encoded, hl, -⟩, -⟩, -⟩ := AppliedIn.exists_block happ hr
      rw [hmissing] at hl
      cases hl
    · obtain ⟨⟨r, hr, block, happ⟩, -⟩ := hmixed
      exact hexact.listed_unapplied totals hok _ (listing_mem_of_pending hok h hv) s
        h.destination _ (List.mem_map.mpr ⟨r, hr, rfl⟩) block happ
    · exact not_stopsScan_of_ok hok h ((groupVerdict_rejects_iff s g).mp hv)

/-- The classification is exact if and only if the scan meets a record that
aborts it or no supported group has one of the two shapes that slip through. -/
theorem exact_classification_iff (lib : Codec) (x : ScanStores) :
    ExactClassification lib x ↔
      (∃ record ∈ x.source.records, Aborts lib x record) ∨
        ∀ record g s, Supported lib x record g s → ¬ SlipsThrough lib x s g := by
  rw [← sumReceipts_aborts_iff_record]
  rcases sumReceipts_ok_or_aborts lib x.input with ⟨totals, hok⟩ | habort
  · constructor
    · intro hexact
      exact Or.inr (fun record g s h => not_slipsThrough_of_exact hexact hok h)
    · rintro (habort | hslips)
      · exact exact_of_aborts habort
      · refine exact_of_not_mixed (fun record g s h hmixed => ?_)
        exact hslips record g s h ((slipsThrough_iff s g).mpr ⟨hmixed, not_stopsScan_of_ok hok h⟩)
  · exact iff_of_true (exact_of_aborts habort) (Or.inl habort)

/-- The sample group counts as pending although its first receipt was applied
within the cutoff. -/
theorem sample_scan_not_exact : ¬ ExactClassification sampleCodec (sampleScan 10) := by
  intro hexact
  have hsupported : Supported sampleCodec (sampleScan 10)
      (receiptKey 1 10 (.fill 32 10), sampleGroupBytes) sampleGroup sampleDestination :=
    ⟨sampleGroup_held 10, by decide, rfl⟩
  have hgapless : Gapless (sampleScan 10) sampleDestination sampleGroup :=
    fun _ _ _ => (by decide +kernel : sampleDestination.lookup (spentKey 0 10) = none)
  have happlied : Applied sampleCodec (sampleScan 10) 1 sampleDestination (.fill 32 1) 20 :=
    ⟨⟨sampleLookup 20, ⟨sampleLookupBytes 20, by decide +kernel, by decide +kernel⟩, rfl,
      by decide +kernel, by decide +kernel⟩, 20, rfl, by decide⟩
  have hmissing (block : UInt64) :
      ¬ Applied sampleCodec (sampleScan 10) 1 sampleDestination (.fill 32 2) block := by
    rintro ⟨⟨entry, ⟨encoded, hl, -⟩, -⟩, -⟩
    have hnone : sampleDestination.lookup (cxLookupKey (.fill 32 2)) = none := by decide +kernel
    rw [hnone] at hl
    cases hl
  have hmixed : Mixed sampleCodec (sampleScan 10) sampleDestination sampleGroup :=
    ⟨⟨_, List.mem_cons_self, 20, happlied⟩,
      Or.inl ⟨_, List.mem_cons_of_mem _ List.mem_cons_self, hmissing⟩⟩
  obtain ⟨err, herr⟩ := hexact.mixed_aborts _ _ _ hsupported hgapless hmixed
  have hok : (sumReceipts sampleCodec (sampleScan 10).input).2 = none := by decide +kernel
  rw [herr] at hok
  cases hok

end ReceiptClassification
