import SupplyAudit.AdjacentWindows
import SupplyAudit.IncomingReplay
import SupplyAudit.StakingCalls
import SupplyAudit.StakingTargets
import SupplyAudit.WindowCoverage

/-!
# The block loops at the greatest number

Four commands loop over block numbers up to an end that they include. Two of them
break at the greatest number. The other two have a loop that compares only, which
no number leaves when the end is the greatest.
-/

namespace BlockLoops

open ByteWords ReceiptKeys ChainDatabase FallibleScan WordLoops
open RecoveryIssuance (HeaderCodec GroupState rewardFrequency lastUint64 hip30Epoch
  nextRewardBlock previousRewardBlock readCanonicalHeader addHeader checkWindow)
open AdjacentWindows (Window window_of_checked)
open IncomingReplay (ReplayCodec)
open StakingTargets (StakingCodec)
open StakingCalls (CallCodec)

/-! ## The recovery issuance -/

section Recovery
variable (lib : HeaderCodec) (db : Database)

/-- The loop body over the reward blocks, up to the inner loop. -/
def openGroup (totals : RecoveryIssuance.Totals) (rewardBlock : UInt64) :
    Except RecoveryIssuance.Failure RecoveryIssuance.Totals := do
  let (_, rewardHeader) ← (readCanonicalHeader lib db rewardBlock).mapError .header
  if UInt64.ofNat rewardHeader.number ≠ rewardBlock ∨ rewardHeader.shardID ≠ 0 then
    .error (.rewardIdentity rewardBlock)
  else if ¬ rewardHeader.epoch < 2 ^ 64 ∨ UInt64.ofNat rewardHeader.epoch < hip30Epoch then
    .error (.beforeHip30 rewardBlock rewardHeader.epoch)
  else
    .ok { totals with
      firstRewardEpoch :=
        if totals.rewardGroups = 0 then rewardHeader.epoch else totals.firstRewardEpoch
      lastRewardEpoch := rewardHeader.epoch
      rewardGroups := totals.rewardGroups + 1 }

/-- The loop body after the inner loop. -/
def closeGroup (st : GroupState) : RecoveryIssuance.Totals :=
  { st.totals with
    totalRecoveryCrosslinks := st.totals.totalRecoveryCrosslinks + st.groupCrosslinks
    recoveryIssuance := st.totals.recoveryIssuance +
      st.groupCrosslinks * RecoveryIssuance.hip30RecoveryAttoPerCrosslink }

/-- The inner loop, over the headers of a group. It never breaks. -/
def headerLoop (rewardBlock : UInt64) : Loop RecoveryIssuance.Failure GroupState :=
  .byOne rewardBlock (fun _ => false) (addHeader lib db)

/-- The loop body over the reward blocks, with the headers that the inner loop visits. -/
def GroupRun (totals : RecoveryIssuance.Totals) (rewardBlock : UInt64) (visited : List UInt64)
    (r : Except RecoveryIssuance.Failure RecoveryIssuance.Totals) : Prop :=
  match openGroup lib db totals rewardBlock with
  | .error err => visited = [] ∧ r = .error err
  | .ok opened => ∃ inner,
    Ends (headerLoop lib db rewardBlock) (rewardBlock - (rewardFrequency - 1)) ⟨opened, 0⟩ visited
      inner ∧ r = inner.map closeGroup

/-- The outer loop. It breaks before its counter wraps; the state has the headers that
the inner loops have visited. -/
def rewardLoop (lastReward : UInt64) :
    Loop RecoveryIssuance.Failure (RecoveryIssuance.Totals × List UInt64) where
  last := lastReward
  stride := rewardFrequency
  breaks rewardBlock := lastUint64 - rewardFrequency < rewardBlock
  body s rewardBlock r := ∃ visited inner, GroupRun lib db s.1 rewardBlock visited inner ∧
    r = inner.map fun totals => (totals, s.2 ++ visited)

/-- Outer and inner loop end with every reward block and every header visited once. -/
def RecoveryTerminates (startBlock endBlock : UInt64) : Prop :=
  ∃ totals, Ends (rewardLoop lib db (previousRewardBlock endBlock)) (nextRewardBlock startBlock)
    ({}, []) (numbersBy rewardFrequency (nextRewardBlock startBlock) (previousRewardBlock endBlock))
    (.ok (totals, numbers startBlock (previousRewardBlock endBlock)))

/-- The header of a number can be read, is of this number and shard 0, and is not
before HIP-30. -/
def HoldsHeader (number : UInt64) : Prop :=
  ∃ hash header, readCanonicalHeader lib db number = .ok (hash, header) ∧
    UInt64.ofNat header.number = number ∧ header.shardID = 0 ∧ header.epoch < 2 ^ 64 ∧
    hip30Epoch ≤ UInt64.ofNat header.epoch

variable {lib db}

theorem addHeader_of_holds {number : UInt64} (h : HoldsHeader lib db number) (st : GroupState) :
    ∃ next, addHeader lib db st number = .ok next := by
  obtain ⟨hash, header, hread, hnumber, hshard, -⟩ := h
  have hidentity : ¬ (UInt64.ofNat header.number ≠ number ∨ header.shardID ≠ 0) := by
    rintro (hne | hne)
    · exact hne hnumber
    · exact hne hshard
  rw [addHeader, hread]
  simp only [Except.mapError, bind_ok, if_neg hidentity, Except.ok.injEq, exists_eq']

theorem openGroup_of_holds {rewardBlock : UInt64} (h : HoldsHeader lib db rewardBlock)
    (totals : RecoveryIssuance.Totals) :
    ∃ opened, openGroup lib db totals rewardBlock = .ok opened := by
  obtain ⟨hash, header, hread, hnumber, hshard, hepoch, hlate⟩ := h
  have hidentity : ¬ (UInt64.ofNat header.number ≠ rewardBlock ∨ header.shardID ≠ 0) := by
    rintro (hne | hne)
    · exact hne hnumber
    · exact hne hshard
  have hrecovery : ¬ (¬ header.epoch < 2 ^ 64 ∨ UInt64.ofNat header.epoch < hip30Epoch) := by
    rintro (hne | hlt)
    · exact hne hepoch
    · exact absurd hlate (UInt64.not_le.mpr hlt)
  rw [openGroup, hread]
  simp only [Except.mapError, bind_ok, if_neg hidentity, if_neg hrecovery, Except.ok.injEq,
    exists_eq']

/-- A group below the greatest number visits each of its headers once. -/
theorem groupRun_of_holds {rewardBlock : UInt64} (hlast : rewardBlock ≠ lastWord)
    (hle : rewardBlock - (rewardFrequency - 1) ≤ rewardBlock)
    (h : ∀ number ∈ numbers (rewardBlock - (rewardFrequency - 1)) rewardBlock,
      HoldsHeader lib db number) (totals : RecoveryIssuance.Totals) :
    ∃ next, GroupRun lib db totals rewardBlock
      (numbers (rewardBlock - (rewardFrequency - 1)) rewardBlock) (.ok next) := by
  obtain ⟨opened, hopened⟩ := openGroup_of_holds (h _ (mem_numbers.mpr ⟨hle, UInt64.le_refl _⟩))
    totals
  have hcounts : Counts (headerLoop lib db rewardBlock) (rewardBlock - (rewardFrequency - 1))
      (numbers (rewardBlock - (rewardFrequency - 1)) rewardBlock) :=
    counts_numbers rfl (fun _ hbreaks => Bool.noConfusion hbreaks) (Or.inl hlast) hle
  obtain ⟨st, hst⟩ := hcounts.ends (fun m hm s => addHeader_of_holds (h m hm) s) ⟨opened, 0⟩
  refine ⟨closeGroup st, ?_⟩
  rw [GroupRun, hopened]
  exact ⟨.ok st, hst, rfl⟩

/-- A group that completes has visited each of its headers once. -/
theorem visited_of_groupRun {rewardBlock : UInt64}
    (hle : rewardBlock - (rewardFrequency - 1) ≤ rewardBlock) {totals next : RecoveryIssuance.Totals}
    {visited : List UInt64} (h : GroupRun lib db totals rewardBlock visited (.ok next)) :
    rewardBlock ≠ lastWord ∧
      visited = numbers (rewardBlock - (rewardFrequency - 1)) rewardBlock := by
  rw [GroupRun] at h
  split at h
  · cases h.2
  · obtain ⟨inner, hends, hr⟩ := h
    cases inner with
    | error err => cases hr
    | ok st =>
      have hlast : rewardBlock ≠ lastWord := fun heq =>
        not_counts_of_endless heq (fun _ => rfl) hends.counts
      refine ⟨hlast, hends.counts.unique (counts_numbers rfl ?_ (Or.inl hlast) hle)⟩
      exact fun _ hbreaks => Bool.noConfusion hbreaks

theorem headerNumbers_eq_numbers {rewardBlock number : UInt64} (hle : number ≤ rewardBlock) :
    RecoveryIssuance.headerNumbers rewardBlock number = numbers number rewardBlock := by
  have hnat := UInt64.le_iff_toNat_le.mp hle
  have hcount : rewardBlock.toNat - number.toNat + 1 = rewardBlock.toNat + 1 - number.toNat := by
    omega
  rw [numbers, ← hcount, ← WindowCoverage.headerNumbers_eq hle, List.map_map]
  exact ((List.map_congr_left fun _ _ => UInt64.ofNat_toNat).trans (List.map_id _)).symm

theorem addGroup_eq (totals : RecoveryIssuance.Totals) (rewardBlock : UInt64) :
    RecoveryIssuance.addGroup lib db totals rewardBlock = (do
      let opened ← openGroup lib db totals rewardBlock
      let st ← (RecoveryIssuance.headerNumbers rewardBlock
        (rewardBlock - (rewardFrequency - 1))).foldlM (addHeader lib db) ⟨opened, 0⟩
      if rewardBlock = lastUint64 then
        let _ ← (RecoveryIssuance.headerNumbers rewardBlock 0).foldlM (addHeader lib db) st
        .error .endless
      else .ok (closeGroup st)) := by
  rw [RecoveryIssuance.addGroup, openGroup]
  cases (readCanonicalHeader lib db rewardBlock).mapError RecoveryIssuance.Failure.header with
  | error err => rfl
  | ok found =>
    simp only [bind_ok]
    split
    · rfl
    · split <;> rfl

/-- The list form of a group, which calls the endless group an error, completes when the
loops do. -/
theorem addGroup_ok_iff {rewardBlock : UInt64}
    (hle : rewardBlock - (rewardFrequency - 1) ≤ rewardBlock)
    (totals next : RecoveryIssuance.Totals) :
    RecoveryIssuance.addGroup lib db totals rewardBlock = .ok next ↔
      ∃ visited, GroupRun lib db totals rewardBlock visited (.ok next) := by
  rw [addGroup_eq, headerNumbers_eq_numbers hle]
  constructor
  · intro h
    rw [bind_eq_ok] at h
    obtain ⟨opened, hopened, h⟩ := h
    rw [bind_eq_ok] at h
    obtain ⟨st, hst, h⟩ := h
    split at h
    · rw [bind_eq_ok] at h
      obtain ⟨-, -, h⟩ := h
      cases h
    · rename_i hlast
      cases h
      have hcounts : Counts (headerLoop lib db rewardBlock) (rewardBlock - (rewardFrequency - 1))
          (numbers (rewardBlock - (rewardFrequency - 1)) rewardBlock) :=
        counts_numbers rfl (fun _ hbreaks => Bool.noConfusion hbreaks) (Or.inl hlast) hle
      refine ⟨numbers (rewardBlock - (rewardFrequency - 1)) rewardBlock, ?_⟩
      rw [GroupRun, hopened]
      exact ⟨.ok st, ends_iff_foldlM.mpr ⟨hcounts, hst⟩, rfl⟩
  · rintro ⟨visited, hrun⟩
    obtain ⟨hlast, hvisited⟩ := visited_of_groupRun hle hrun
    rw [GroupRun] at hrun
    cases hopened : openGroup lib db totals rewardBlock with
    | error err =>
      rw [hopened] at hrun
      cases hrun.2
    | ok opened =>
      rw [hopened] at hrun
      obtain ⟨inner, hends, hr⟩ := hrun
      cases inner with
      | error err => cases hr
      | ok st =>
        cases hr
        have hst := (ends_iff_foldlM.mp hends).2
        rw [hvisited] at hst
        rw [bind_ok, hst, bind_ok]
        exact if_neg hlast

/-- A scan of groups completes when the outer loop over them does. -/
theorem scan_groups_iff {lastReward n : UInt64} {visited : List UInt64}
    (h : Counts (rewardLoop lib db lastReward) n visited)
    (hle : ∀ b ∈ visited, b - (rewardFrequency - 1) ≤ b) (t : RecoveryIssuance.Totals × List UInt64)
    (totals : RecoveryIssuance.Totals) :
    visited.foldlM (RecoveryIssuance.addGroup lib db) t.1 = .ok totals ↔
      ∃ covered, Ends (rewardLoop lib db lastReward) n t visited (.ok (totals, covered)) := by
  have hbody (n : UInt64) (hn : n - (rewardFrequency - 1) ≤ n)
      (t next : RecoveryIssuance.Totals × List UInt64)
      (hnext : (rewardLoop lib db lastReward).body t n (.ok next)) :
      RecoveryIssuance.addGroup lib db t.1 n = .ok next.1 := by
    obtain ⟨headers, inner, hrun, hr⟩ := hnext
    cases inner with
    | error err => cases hr
    | ok totals =>
      cases hr
      exact (addGroup_ok_iff hn _ _).mpr ⟨headers, hrun⟩
  induction h generalizing t with
  | exit n hlast =>
    constructor
    · intro hscan
      cases hscan
      exact ⟨t.2, .exit n t hlast⟩
    · rintro ⟨covered, hends⟩
      cases hends
      rfl
  | stop n hlast hbreaks =>
    have hn := hle n List.mem_cons_self
    rw [List.foldlM_cons]
    constructor
    · intro hscan
      rw [bind_eq_ok] at hscan
      obtain ⟨next, hnext, hscan⟩ := hscan
      cases hscan
      obtain ⟨headers, hrun⟩ := (addGroup_ok_iff hn _ _).mp hnext
      exact ⟨t.2 ++ headers, .stop n t _ hlast ⟨headers, .ok totals, hrun, rfl⟩ hbreaks⟩
    · rintro ⟨covered, hends⟩
      cases hends with
      | stop _ _ _ _ hnext => rw [hbody n hn _ _ hnext, bind_ok]; rfl
      | step _ _ _ _ _ _ _ hgoes => rw [hbreaks] at hgoes; cases hgoes
  | step n visited hlast hbreaks _ ih =>
    have hn := hle n List.mem_cons_self
    have hrest := ih fun b hb => hle b (List.mem_cons_of_mem n hb)
    rw [List.foldlM_cons]
    constructor
    · intro hscan
      rw [bind_eq_ok] at hscan
      obtain ⟨next, hnext, hscan⟩ := hscan
      obtain ⟨headers, hrun⟩ := (addGroup_ok_iff hn _ _).mp hnext
      obtain ⟨covered, hends⟩ := (hrest (next, t.2 ++ headers)).mp hscan
      exact ⟨covered, .step n t _ visited _ hlast ⟨headers, .ok next, hrun, rfl⟩ hbreaks hends⟩
    · rintro ⟨covered, hends⟩
      cases hends with
      | stop _ _ _ _ _ hstops => rw [hbreaks] at hstops; cases hstops
      | step _ _ next _ _ _ hnext _ rest =>
        rw [hbody n hn _ _ hnext, bind_ok]
        exact (hrest next).mpr ⟨covered, rest⟩

/-- The inner loops of a completed run have visited the headers of the reward blocks. -/
theorem covered_of_ends {lastReward n : UInt64} {visited : List UInt64}
    {t t' : RecoveryIssuance.Totals × List UInt64}
    (h : Ends (rewardLoop lib db lastReward) n t visited (.ok t'))
    (hle : ∀ b ∈ visited, b - (rewardFrequency - 1) ≤ b) :
    t'.2 = t.2 ++ visited.flatMap fun b => numbers (b - (rewardFrequency - 1)) b := by
  have hbody : ∀ {t next : RecoveryIssuance.Totals × List UInt64} {b : UInt64},
      b - (rewardFrequency - 1) ≤ b → (rewardLoop lib db lastReward).body t b (.ok next) →
      next.2 = t.2 ++ numbers (b - (rewardFrequency - 1)) b := by
    rintro t next b hb ⟨headers, inner, hrun, hr⟩
    cases inner with
    | error err => cases hr
    | ok totals =>
      cases hr
      rw [(visited_of_groupRun hb hrun).2]
  generalize hr : Except.ok t' = r at h
  induction h with
  | exit n t =>
    cases hr
    rw [List.flatMap_nil, List.append_nil]
  | fail => cases hr
  | stop n t next _ hnext =>
    cases hr
    rw [hbody (hle n List.mem_cons_self) hnext, List.flatMap_cons, List.flatMap_nil,
      List.append_nil]
  | step n t next visited r _ hnext _ _ ih =>
    rw [ih (fun b hb => hle b (List.mem_cons_of_mem n hb)) hr, hbody (hle n List.mem_cons_self) hnext,
      List.flatMap_cons, List.append_assoc]

section Window
variable {startBlock endBlock : UInt64}

theorem mem_rewardNumbers (h : Window startBlock endBlock) {b : UInt64}
    (hb : b ∈ numbersBy rewardFrequency (nextRewardBlock startBlock) (previousRewardBlock endBlock)) :
    startBlock.toNat + 63 ≤ b.toNat ∧ b ≤ previousRewardBlock endBlock := by
  obtain ⟨j, hj, rfl⟩ := List.mem_map.mp hb
  obtain ⟨i, hi, rfl⟩ := List.mem_range'.mp hj
  have hfirst := h.first
  have hcomplete := h.complete
  have hlt := (previousRewardBlock endBlock).toNat_lt
  have hfrequency : rewardFrequency.toNat = 64 := rfl
  have hsize : UInt64.size = 2 ^ 64 := rfl
  have hbound : 64 * i ≤ (previousRewardBlock endBlock).toNat - (startBlock.toNat + 63) := by
    rw [hfirst, hfrequency] at hi
    have hdiv := Nat.div_mul_le_self
      ((previousRewardBlock endBlock).toNat - (startBlock.toNat + 63)) 64
    omega
  rw [hfirst, hfrequency, UInt64.le_iff_toNat_le, UInt64.toNat_ofNat_of_lt' (by omega)]
  omega

theorem groupStart_le {b : UInt64} (h : 63 ≤ b.toNat) : b - (rewardFrequency - 1) ≤ b := by
  have hsixtythree : (rewardFrequency - 1).toNat = 63 := rfl
  rw [UInt64.le_iff_toNat_le, UInt64.toNat_sub_of_le _ _ (UInt64.le_iff_toNat_le.mpr (by omega))]
  omega

theorem flatMap_rewardNumbers (h : Window startBlock endBlock) :
    (numbersBy rewardFrequency (nextRewardBlock startBlock) (previousRewardBlock endBlock)).flatMap
        (fun b => numbers (b - (rewardFrequency - 1)) b) =
      numbers startBlock (previousRewardBlock endBlock) := by
  have hfirst := h.first
  have halign := h.aligned
  have hlast := h.last
  have hcomplete := h.complete
  have hfrequency : rewardFrequency.toNat = 64 := rfl
  have hsixtythree : (rewardFrequency - 1).toNat = 63 := rfl
  have hstart : nextRewardBlock startBlock - (rewardFrequency - 1) = startBlock := by
    apply UInt64.toNat_inj.mp
    rw [UInt64.toNat_sub_of_le _ _ (UInt64.le_iff_toNat_le.mpr (by omega))]
    omega
  rw [flatMap_numbers (by omega) (by omega) (UInt64.le_iff_toNat_le.mpr (by omega)) ?_, hstart]
  rw [hfrequency, hfirst]
  omega

theorem counts_rewardLoop (h : Window startBlock endBlock) :
    Counts (rewardLoop lib db (previousRewardBlock endBlock)) (nextRewardBlock startBlock)
      (numbersBy rewardFrequency (nextRewardBlock startBlock) (previousRewardBlock endBlock)) := by
  have hfirst := h.first
  have hcomplete := h.complete
  have hfrequency : rewardFrequency.toNat = 64 := rfl
  have hlimit : (lastUint64 - rewardFrequency).toNat = 2 ^ 64 - 65 := rfl
  have hle : nextRewardBlock startBlock ≤ previousRewardBlock endBlock :=
    UInt64.le_iff_toNat_le.mpr (by omega)
  have hpos : 0 < (rewardLoop lib db (previousRewardBlock endBlock)).stride.toNat :=
    Nat.lt_of_sub_eq_succ hfrequency
  refine counts_numbersBy hpos ?_ ?_ hle
  · intro b _ hbreaks
    have hgt := UInt64.lt_iff_toNat_lt.mp (of_decide_eq_true hbreaks)
    have hlt := (previousRewardBlock endBlock).toNat_lt
    show (previousRewardBlock endBlock).toNat < b.toNat + rewardFrequency.toNat
    omega
  · intro b _ hbreaks
    have hbelow := UInt64.le_iff_toNat_le.mp (UInt64.not_lt.mp (of_decide_eq_false hbreaks))
    show b.toNat + rewardFrequency.toNat < 2 ^ 64
    omega

variable (lib db) in
theorem counts_rewardBlocks (lastReward rewardBlock : UInt64) :
    Counts (rewardLoop lib db lastReward) rewardBlock
      (RecoveryIssuance.rewardBlocks lastReward rewardBlock) := by
  fun_induction RecoveryIssuance.rewardBlocks lastReward rewardBlock with
  | case1 rewardBlock hin ih =>
    by_cases hlimit : lastUint64 - rewardFrequency < rewardBlock
    · rw [dif_pos hlimit]
      exact .stop _ hin (decide_eq_true hlimit)
    · rw [dif_neg hlimit]
      exact .step _ _ hin (decide_eq_false hlimit) (ih hlimit)
  | case2 rewardBlock hnot => exact .exit _ hnot

/-- The totals of the command are those with which its loops end. -/
theorem totals_iff_ends (h : Window startBlock endBlock) (totals : RecoveryIssuance.Totals) :
    (RecoveryIssuance.rewardBlocks (previousRewardBlock endBlock)
        (nextRewardBlock startBlock)).foldlM (RecoveryIssuance.addGroup lib db) {} = .ok totals ↔
      ∃ covered, Ends (rewardLoop lib db (previousRewardBlock endBlock))
        (nextRewardBlock startBlock) ({}, [])
        (numbersBy rewardFrequency (nextRewardBlock startBlock) (previousRewardBlock endBlock))
        (.ok (totals, covered)) := by
  rw [(counts_rewardBlocks lib db _ _).unique (counts_rewardLoop h)]
  refine scan_groups_iff (counts_rewardLoop h) (fun b hb => groupStart_le ?_) ({}, []) totals
  have hge := (mem_rewardNumbers h hb).1
  omega

/-- The loops of the recovery issuance end unless the window reaches the greatest
number. -/
theorem recoveryTerminates_iff (h : Window startBlock endBlock)
    (hholds : ∀ number, startBlock ≤ number → number ≤ previousRewardBlock endBlock →
      HoldsHeader lib db number) :
    RecoveryTerminates lib db startBlock endBlock ↔ endBlock ≠ lastWord := by
  have hlast := h.last
  have hcomplete := h.complete
  have hsixtythree : (rewardFrequency - 1).toNat = 63 := rfl
  have hgroup : ∀ b ∈ numbersBy rewardFrequency (nextRewardBlock startBlock)
      (previousRewardBlock endBlock), b - (rewardFrequency - 1) ≤ b := fun b hb =>
    groupStart_le (by have hge := (mem_rewardNumbers h hb).1; omega)
  have hfirst := h.first
  have halign := h.aligned
  have hfrequency : rewardFrequency.toNat = 64 := rfl
  constructor
  · rintro ⟨totals, hends⟩ rfl
    have hprevious : previousRewardBlock lastWord = lastWord := by decide
    have hmax : lastWord.toNat = 2 ^ 64 - 1 := rfl
    have hmem : lastWord ∈ numbersBy rewardFrequency (nextRewardBlock startBlock)
        (previousRewardBlock lastWord) := by
      rw [hprevious]
      rw [hprevious] at hcomplete
      refine last_mem_numbersBy (UInt64.le_iff_toNat_le.mpr (by omega)) ?_
      rw [hfrequency]
      omega
    obtain ⟨t, t', visited, inner, hrun, hr⟩ := hends.body_of_mem hmem
    cases inner with
    | error err => cases hr
    | ok next => exact (visited_of_groupRun (hgroup lastWord hmem) hrun).1 rfl
  · intro hend
    have hbody : ∀ b ∈ numbersBy rewardFrequency (nextRewardBlock startBlock)
        (previousRewardBlock endBlock), ∀ t, ∃ t',
        (rewardLoop lib db (previousRewardBlock endBlock)).body t b (.ok t') := by
      intro b hb t
      obtain ⟨hge, hle⟩ := mem_rewardNumbers h hb
      have hbelow := UInt64.le_iff_toNat_le.mp hle
      have hne : b ≠ lastWord := by
        rintro rfl
        have hmax : lastWord.toNat = 2 ^ 64 - 1 := rfl
        have hlt := endBlock.toNat_lt
        exact hend (UInt64.toNat_inj.mp (by omega))
      have hheaders : ∀ number ∈ numbers (b - (rewardFrequency - 1)) b,
          HoldsHeader lib db number := by
        intro number hnumber
        obtain ⟨hlow, hhigh⟩ := mem_numbers.mp hnumber
        refine hholds number ?_ (UInt64.le_trans hhigh hle)
        rw [UInt64.le_iff_toNat_le, UInt64.toNat_sub_of_le _ _
          (UInt64.le_iff_toNat_le.mpr (by omega)), hsixtythree] at hlow
        exact UInt64.le_iff_toNat_le.mpr (by omega)
      obtain ⟨next, hrun⟩ := groupRun_of_holds hne (hgroup b hb) hheaders t.1
      exact ⟨_, _, .ok next, hrun, rfl⟩
    obtain ⟨⟨totals, covered⟩, hends⟩ := (counts_rewardLoop h).ends hbody ({}, [])
    have hcovered := covered_of_ends hends hgroup
    rw [List.nil_append, flatMap_rewardNumbers h] at hcovered
    exact ⟨totals, hcovered ▸ hends⟩

end Window

end Recovery

/-! ## The scans after a start block -/

section Scans
variable {ε σ : Type} {step : σ → UInt64 → Except ε σ} {start endBlock : UInt64}

/-- A scan that never breaks ends unless its end is the greatest number. -/
theorem scan_ends_iff (hrange : start < endBlock) (init : σ)
    (hholds : ∀ number, start < number → number ≤ endBlock → ∀ s, ∃ s', step s number = .ok s') :
    (∃ s', Ends (.byOne endBlock (fun _ => false) step) (start + 1) init
        (numbers (start + 1) endBlock) (.ok s')) ↔ endBlock ≠ lastWord := by
  constructor
  · rintro ⟨s', hends⟩ hlast
    exact not_counts_of_endless hlast (fun _ => rfl) hends.counts
  · intro hlast
    have hcounts : Counts (.byOne endBlock (fun _ => false) step) (start + 1)
        (numbers (start + 1) endBlock) :=
      counts_numbers rfl (fun _ hbreaks => Bool.noConfusion hbreaks) (Or.inl hlast)
        (succ_le_of_lt hrange)
    exact hcounts.ends (fun n hn s => hholds n (lt_of_mem hrange hn) (mem_numbers.mp hn).2 s) init

/-- A scan that breaks at the greatest number always ends. -/
theorem guarded_scan_ends (hrange : start < endBlock) (init : σ)
    (hholds : ∀ number, start < number → number ≤ endBlock → ∀ s, ∃ s', step s number = .ok s') :
    ∃ s', Ends (.byOne endBlock (fun number => number = lastWord) step) (start + 1) init
      (numbers (start + 1) endBlock) (.ok s') := by
  have hcounts : Counts (.byOne endBlock (fun number => number = lastWord) step) (start + 1)
      (numbers (start + 1) endBlock) :=
    counts_numbers rfl (fun _ hbreaks => of_decide_eq_true hbreaks)
      (Or.inr (decide_eq_true (Eq.refl lastWord))) (succ_le_of_lt hrange)
  exact hcounts.ends (fun n hn s => hholds n (lt_of_mem hrange hn) (mem_numbers.mp hn).2 s) init

end Scans

/-! ## The four commands -/

/-- The library functions of the four commands. -/
structure Libraries where
  headers : HeaderCodec
  replay : ReplayCodec
  staking : StakingCodec
  calls : CallCodec

inductive Command where
  | recoveryIssuance
  | replayScan
  | stakingTargets
  | stakingCalls
  deriving DecidableEq

/-- The loop of the command over blocks breaks at the greatest number. -/
def Command.guarded : Command → Bool
  | .recoveryIssuance => false
  | .replayScan => false
  | .stakingTargets => true
  | .stakingCalls => true

/-- The command accepts these arguments, with some paths. -/
def Command.Accepts (start endBlock : UInt64) : Command → Prop
  | .recoveryIssuance => ∃ dbPath, checkWindow ⟨dbPath, start, endBlock⟩ = .ok ()
  | _ => ∃ dbPath output, (⟨dbPath, start, endBlock, output⟩ : BlockBodies.Flags).Accepted

/-- The database holds every block of the range, in the form that the command reads. -/
def Command.Holds (lib : Libraries) (db : Database) (start endBlock : UInt64) : Command → Prop
  | .recoveryIssuance => ∀ number, start ≤ number → number ≤ previousRewardBlock endBlock →
    HoldsHeader lib.headers db number
  | .replayScan => ∀ number, start < number → number ≤ endBlock → ∀ state, ∃ next,
    IncomingReplay.scanBlock lib.replay db state number = .ok next
  | .stakingTargets => ∀ number, start < number → number ≤ endBlock → ∀ state, ∃ next,
    StakingTargets.scanBlock lib.staking db state number = .ok next
  | .stakingCalls => ∀ number, start < number → number ≤ endBlock → ∀ validators state, ∃ next,
    StakingCalls.scanBlock lib.calls db validators state number = .ok next

/-- The loops of the command end and visit every block of their range once, in order. -/
def Command.Terminates (lib : Libraries) (db : Database) (start endBlock : UInt64) :
    Command → Prop
  | .recoveryIssuance => RecoveryTerminates lib.headers db start endBlock
  | .replayScan => ∃ state, Ends (IncomingReplay.blockLoop lib.replay db endBlock) (start + 1) {}
    (numbers (start + 1) endBlock) (.ok state)
  | .stakingTargets => ∀ validators, ∃ state,
    Ends (StakingTargets.blockLoop lib.staking db endBlock) (start + 1)
      { knownValidators := validators } (numbers (start + 1) endBlock) (.ok state)
  | .stakingCalls => ∀ validators, ∃ state,
    Ends (StakingCalls.blockLoop lib.calls db validators endBlock) (start + 1) {}
      (numbers (start + 1) endBlock) (.ok state)

/-- The loops end, on a database that holds the range, exactly when the command breaks
at the greatest number or its range does not reach it. -/
theorem block_loops_terminate_iff (lib : Libraries) (db : Database) (start endBlock : UInt64)
    (command : Command) (haccepts : command.Accepts start endBlock)
    (hholds : command.Holds lib db start endBlock) :
    command.Terminates lib db start endBlock ↔ command.guarded ∨ endBlock ≠ lastWord := by
  cases command with
  | recoveryIssuance =>
    obtain ⟨dbPath, hchecked⟩ := haccepts
    simp only [Command.guarded, Bool.false_eq_true, false_or]
    exact recoveryTerminates_iff (window_of_checked hchecked) hholds
  | replayScan =>
    obtain ⟨dbPath, output, -, -, hrange⟩ := haccepts
    simp only [Command.guarded, Bool.false_eq_true, false_or]
    exact scan_ends_iff hrange {} hholds
  | stakingTargets =>
    obtain ⟨dbPath, output, -, -, hrange⟩ := haccepts
    simp only [Command.guarded, true_or, iff_true]
    exact fun validators => guarded_scan_ends hrange _ hholds
  | stakingCalls =>
    obtain ⟨dbPath, output, -, -, hrange⟩ := haccepts
    simp only [Command.guarded, true_or, iff_true]
    exact fun validators => guarded_scan_ends hrange _ fun number hlow hhigh =>
      hholds number hlow hhigh validators

/-! ## A database with every block -/

/-- The body `("HmnyTgd", "v2", (() () () ()))`. -/
def emptyBody : Bytes :=
  [0xd0, 0x87, 0x48, 0x6d, 0x6e, 0x79, 0x54, 0x67, 0x64, 0x82, 0x76, 0x32, 0xc4, 0xc0, 0xc0, 0xc0,
    0xc0]

/-- One hash for every number, and one body. -/
def emptyBlocks : Database where
  get key := if key.length = 10 then .ok (List.replicate 32 1) else .ok emptyBody
  has _ := .ok true
  newIterator _ := ([], none)

def sampleBodies : BlockBodies.BodyCodec where
  keccak256 _ := .zero 32
  sha256 _ := List.replicate 32 0
  decodeEnvelope body :=
    if body = emptyBody then .ok ⟨"HmnyTgd", "v2", [0xc4, 0xc0, 0xc0, 0xc0, 0xc0]⟩
    else .error "rlp: expected input list"
  decodeFields raw :=
    if raw = [0xc4, 0xc0, 0xc0, 0xc0, 0xc0] then .ok (List.replicate 4 [0xc0])
    else if raw = [0xc0] then .ok []
    else .error "rlp: expected input list"

def sampleReplay : ReplayCodec :=
  { sampleBodies with
    decodeProofs := fun raw => if raw = [0xc0] then .ok [] else .error "rlp: expected input list"
    decodeBig := fun _ => .error "rlp: expected input string or byte"
    decodeUint32 := fun _ => .error "rlp: expected input string or byte" }

def sampleLibraries : Libraries where
  headers :=
    { sampleBodies with
      decodeBig := fun _ => .error "rlp: expected input string or byte"
      decodeUint32 := fun _ => .error "rlp: expected input string or byte"
      decodeBytes := fun _ => .error "rlp: expected input string or byte"
      decodeCrosslinks := fun _ => .error "rlp: expected input list" }
  replay := sampleReplay
  staking :=
    { sampleBodies with
      decodeAddresses := fun _ => .error "rlp: expected input list"
      decodeStakingTransaction := fun _ => .error "rlp: expected input list"
      decodeAddress := fun _ => .error "rlp: expected input string or byte"
      decodeBig := fun _ => .error "rlp: expected input string or byte" }
  calls :=
    { sampleBodies with
      decodeAddresses := fun _ => .error "rlp: expected input list"
      decodeTransaction := fun _ => .error "rlp: expected input list" }

theorem scanBlock_emptyBlocks (state : IncomingReplay.ScanState) (number : UInt64) :
    IncomingReplay.scanBlock sampleReplay emptyBlocks state number =
      .ok (IncomingReplay.openBlock 0 state) := by
  have hhash : emptyBlocks.get (canonicalHashKey number) = .ok (List.replicate 32 1) := by
    simp only [emptyBlocks, length_canonicalHashKey, if_true]
  have hbody : ∀ hash, emptyBlocks.get (BlockBodies.bodyKey number hash) = .ok emptyBody := by
    intro hash
    have hlength : (BlockBodies.bodyKey number hash).length ≠ 10 := by
      rw [BlockBodies.bodyKey, List.length_append, List.length_append, length_ofNat, hash.size]
      decide
    simp only [emptyBlocks, if_neg hlength]
  have hincoming : IncomingReplay.readIncoming sampleReplay emptyBlocks number = .ok [] := by
    simp only [IncomingReplay.readIncoming, hhash, hbody]
    rfl
  rw [IncomingReplay.scanBlock, hincoming]
  rfl

theorem block_loops_terminate_iff_first : Command.Terminates sampleLibraries emptyBlocks 0 1
    .replayScan :=
  (block_loops_terminate_iff sampleLibraries emptyBlocks 0 1 .replayScan
    ⟨"archive", "replay.csv", by decide⟩ fun number _ _ state =>
      ⟨_, scanBlock_emptyBlocks state number⟩).mpr (by decide)

/-- Up to the greatest number, the replay scan of a database with every block has no
end. -/
theorem replay_scan_endless :
    Command.Accepts (lastWord - 1) lastWord .replayScan ∧
      Command.Holds sampleLibraries emptyBlocks (lastWord - 1) lastWord .replayScan ∧
      (∀ visited r, ¬ Ends (IncomingReplay.blockLoop sampleReplay emptyBlocks lastWord) lastWord {}
        visited r) ∧
      ¬ Command.Terminates sampleLibraries emptyBlocks (lastWord - 1) lastWord .replayScan := by
  have hendless : ∀ n s visited r,
      ¬ Ends (IncomingReplay.blockLoop sampleReplay emptyBlocks lastWord) n s visited r := by
    intro n s visited r
    refine not_ends_of_endless rfl (fun _ => rfl) fun s n e hfails => ?_
    have hok := scanBlock_emptyBlocks s n
    rw [show IncomingReplay.scanBlock sampleReplay emptyBlocks s n = .error e from hfails] at hok
    cases hok
  refine ⟨⟨"archive", "replay.csv", by decide⟩, fun number _ _ state =>
    ⟨_, scanBlock_emptyBlocks state number⟩, hendless lastWord {}, ?_⟩
  rintro ⟨state, hends⟩
  exact hendless _ _ _ _ hends

end BlockLoops
