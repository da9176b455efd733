import SupplyAudit.FallibleScan
import SupplyAudit.RecoveryIssuance

/-!
# Recovery issuance of adjacent windows

A window ends with the last complete group before its end, and the next window
starts with the header after it. The counts of the two windows add up to those
of the window over both.
-/

namespace AdjacentWindows

open ByteWords ReceiptKeys ChainDatabase FallibleScan KeyedTable RecoveryIssuance

variable (lib : HeaderCodec) (db : Database)

/-! ## Rounding -/

theorem toNat_nextRewardBlock (number : UInt64) :
    (nextRewardBlock number).toNat = number.toNat / 64 * 64 + 63 := by
  have hlt := number.toNat_lt
  have hfrequency : rewardFrequency.toNat = 64 := rfl
  have hone : (1 : UInt64).toNat = 1 := rfl
  simp only [nextRewardBlock, UInt64.toNat_add, UInt64.toNat_sub, UInt64.toNat_mod, hfrequency,
    hone]
  omega

theorem toNat_previousRewardBlock {number : UInt64} (h : 63 ≤ number.toNat) :
    (previousRewardBlock number).toNat + 1 = (number.toNat + 1) / 64 * 64 := by
  have hlt := number.toNat_lt
  have hfrequency : rewardFrequency.toNat = 64 := rfl
  have hone : (1 : UInt64).toNat = 1 := rfl
  have hmod : (number % rewardFrequency).toNat = number.toNat % 64 := UInt64.toNat_mod ..
  have hlast : (rewardFrequency - 1).toNat = 63 := rfl
  rw [previousRewardBlock]
  split
  · rename_i hge
    rw [ge_iff_le, UInt64.le_iff_toNat_le, hmod, hlast] at hge
    simp only [UInt64.toNat_sub, hmod, hlast]
    omega
  · rename_i hnot
    rw [ge_iff_le, UInt64.le_iff_toNat_le, hmod, hlast] at hnot
    simp only [UInt64.toNat_sub, UInt64.toNat_add, hmod, hone]
    omega

/-- What an accepted window with an aligned start is. -/
structure Window (startBlock endBlock : UInt64) : Prop where
  positive : 64 ≤ startBlock.toNat
  aligned : startBlock.toNat % 64 = 0
  first : (nextRewardBlock startBlock).toNat = startBlock.toNat + 63
  last : (previousRewardBlock endBlock).toNat + 1 = (endBlock.toNat + 1) / 64 * 64
  complete : startBlock.toNat + 63 ≤ (previousRewardBlock endBlock).toNat

theorem window_of_checked {flags : Flags} (h : checkWindow flags = .ok ()) :
    Window flags.startBlock flags.endBlock := by
  have hfirst := toNat_nextRewardBlock flags.startBlock
  have hlast : (rewardFrequency - 1).toNat = 63 := rfl
  have hzero : (0 : UInt64).toNat = 0 := rfl
  have hlt := (nextRewardBlock flags.startBlock).toNat_lt
  rw [checkWindow] at h
  split at h
  · cases h
  rename_i hgiven
  split at h
  · cases h
  split at h
  · cases h
  rename_i hgroup
  split at h
  · cases h
  rename_i haligned
  rw [not_not] at haligned
  have hstart := congrArg UInt64.toNat haligned
  rw [UInt64.toNat_sub, hlast] at hstart
  have hpositive : flags.startBlock.toNat ≠ 0 := fun heq =>
    hgiven (.inr (.inl (UInt64.toNat_inj.mp (heq.trans hzero.symm))))
  have hordered : ¬ flags.endBlock.toNat < flags.startBlock.toNat := fun hend =>
    hgiven (.inr (.inr (UInt64.lt_iff_toNat_lt.mpr hend)))
  have hcomplete := UInt64.le_iff_toNat_le.mp (UInt64.not_lt.mp hgroup)
  have hprevious : (previousRewardBlock flags.endBlock).toNat + 1 =
      (flags.endBlock.toNat + 1) / 64 * 64 := toNat_previousRewardBlock (by omega)
  constructor <;> omega

theorem rewardBlocks_of_gt {lastReward rewardBlock : UInt64} (h : lastReward < rewardBlock) :
    rewardBlocks lastReward rewardBlock = [] := by
  rw [rewardBlocks, if_neg (UInt64.not_le.mpr h)]

/-- The groups up to a later reward block are those up to an earlier one and
those after it. -/
theorem rewardBlocks_append {middle last first : UInt64} (hmiddle : first ≤ middle)
    (hlast : middle ≤ last) (haligned : first.toNat % 64 = middle.toNat % 64)
    (hbound : ¬ lastUint64 - rewardFrequency < middle) :
    rewardBlocks middle first ++ rewardBlocks last (middle + rewardFrequency) =
      rewardBlocks last first := by
  fun_induction rewardBlocks middle first with
  | case1 first hle ih =>
    have hwithin : ¬ lastUint64 - rewardFrequency < first :=
      fun hlt => hbound (UInt64.lt_of_lt_of_le hlt hle)
    have hnext := toNat_add_frequency hwithin
    rw [rewardBlocks.eq_1 last first, if_pos (UInt64.le_trans hle hlast), dif_neg hwithin,
      dif_neg hwithin, List.cons_append]
    by_cases heq : first = middle
    · have hgt : middle < first + rewardFrequency := by
        rw [UInt64.lt_iff_toNat_lt, hnext, heq]
        omega
      rw [rewardBlocks_of_gt hgt, List.nil_append, heq]
    · have hne : first.toNat ≠ middle.toNat := fun hnat => heq (UInt64.toNat_inj.mp hnat)
      have hnat := UInt64.le_iff_toNat_le.mp hle
      rw [ih hwithin (UInt64.le_iff_toNat_le.mpr (by omega)) (by omega)]
  | case2 first hnot => exact absurd hmiddle hnot

/-! ## Verdicts -/

/-- A header of a group, as its check leaves it. -/
structure ReadHeader where
  number : UInt64
  hash : Hash
  header : DecodedHeader

structure ReadGroup where
  epoch : Nat
  headers : List ReadHeader

def checkHeader (number : UInt64) : Except Failure ReadHeader := do
  let (hash, header) ← (readCanonicalHeader lib db number).mapError .header
  if UInt64.ofNat header.number ≠ number ∨ header.shardID ≠ 0 then .error (.headerIdentity number)
  else .ok ⟨number, hash, header⟩

def checkGroup (rewardBlock : UInt64) : Except Failure ReadGroup := do
  let (_, rewardHeader) ← (readCanonicalHeader lib db rewardBlock).mapError .header
  if UInt64.ofNat rewardHeader.number ≠ rewardBlock ∨ rewardHeader.shardID ≠ 0 then
    .error (.rewardIdentity rewardBlock)
  else if ¬ rewardHeader.epoch < 2 ^ 64 ∨ UInt64.ofNat rewardHeader.epoch < hip30Epoch then
    .error (.beforeHip30 rewardBlock rewardHeader.epoch)
  else
    let headers ← (headerNumbers rewardBlock (rewardBlock - (rewardFrequency - 1))).mapM
      (checkHeader lib db)
    if rewardBlock = lastUint64 then
      let _ ← (headerNumbers rewardBlock 0).mapM (checkHeader lib db)
      .error .endless
    else .ok ⟨rewardHeader.epoch, headers⟩

def recordHeader (st : GroupState) (read : ReadHeader) : GroupState :=
  addReadHeader st read.number read.hash read.header

def openGroup (totals : Totals) (epoch : Nat) : Totals :=
  { totals with
    firstRewardEpoch := if totals.rewardGroups = 0 then epoch else totals.firstRewardEpoch
    lastRewardEpoch := epoch
    rewardGroups := totals.rewardGroups + 1 }

def closeGroup (st : GroupState) : Totals :=
  { st.totals with
    totalRecoveryCrosslinks := st.totals.totalRecoveryCrosslinks + st.groupCrosslinks
    recoveryIssuance := st.totals.recoveryIssuance +
      st.groupCrosslinks * hip30RecoveryAttoPerCrosslink }

def recordGroup (totals : Totals) (read : ReadGroup) : Totals :=
  closeGroup (read.headers.foldl recordHeader ⟨openGroup totals read.epoch, 0⟩)

theorem addHeader_eq (st : GroupState) (number : UInt64) :
    addHeader lib db st number = (checkHeader lib db number).map (recordHeader st) := by
  rw [addHeader, checkHeader]
  cases (readCanonicalHeader lib db number).mapError Failure.header with
  | error err => rfl
  | ok read =>
    simp only [bind_ok]
    split <;> rfl

theorem addHeaders_eq (numbers : List UInt64) (st : GroupState) :
    numbers.foldlM (addHeader lib db) st =
      (numbers.mapM (checkHeader lib db)).map fun headers => headers.foldl recordHeader st :=
  foldlM_eq_mapM (addHeader_eq lib db) numbers st

/-- Whether a group is accepted does not depend on the groups before it. -/
theorem addGroup_eq (totals : Totals) (rewardBlock : UInt64) :
    addGroup lib db totals rewardBlock =
      (checkGroup lib db rewardBlock).map (recordGroup totals) := by
  rw [addGroup, checkGroup]
  cases (readCanonicalHeader lib db rewardBlock).mapError Failure.header with
  | error err => rfl
  | ok read =>
    simp only [bind_ok, addHeaders_eq]
    split
    · rfl
    split
    · rfl
    cases (headerNumbers rewardBlock (rewardBlock - (rewardFrequency - 1))).mapM
      (checkHeader lib db) with
    | error err => rfl
    | ok headers =>
      simp only [bind_ok, Except.map]
      split
      · cases (headerNumbers rewardBlock 0).mapM (checkHeader lib db) <;> rfl
      · rfl

theorem addGroups_eq (blocks : List UInt64) (totals : Totals) :
    blocks.foldlM (addGroup lib db) totals =
      (blocks.mapM (checkGroup lib db)).map fun groups => groups.foldl recordGroup totals :=
  foldlM_eq_mapM (addGroup_eq lib db) blocks totals

/-! ## Amounts -/

/-- What the groups and headers of a window add up to; `group` is of the
crosslinks of an unfinished group. -/
@[ext] structure Amounts where
  groups : Nat := 0
  headers : Nat := 0
  synthetic : Nat := 0
  encoded : Nat := 0
  filtered : Nat := 0
  included : Nat := 0
  recovery : Nat := 0
  issuance : Int := 0
  byShard : UInt32 → Nat := 0
  group : Nat := 0

namespace Amounts

instance : Zero Amounts := ⟨{}⟩

instance : Add Amounts :=
  ⟨fun a b =>
    { groups := a.groups + b.groups
      headers := a.headers + b.headers
      synthetic := a.synthetic + b.synthetic
      encoded := a.encoded + b.encoded
      filtered := a.filtered + b.filtered
      included := a.included + b.included
      recovery := a.recovery + b.recovery
      issuance := a.issuance + b.issuance
      byShard := a.byShard + b.byShard
      group := a.group + b.group }⟩

instance : AddMonoid Amounts where
  add_assoc a b c := by
    ext1 <;> exact add_assoc _ _ _
  zero_add a := by
    ext1 <;> exact zero_add _
  add_zero a := by
    ext1 <;> exact add_zero _
  nsmul := nsmulRec

end Amounts

def amounts (st : GroupState) : Amounts where
  groups := st.totals.rewardGroups
  headers := st.totals.coveredHeaders
  synthetic := st.totals.syntheticCrosslinks
  encoded := st.totals.encodedCrosslinks
  filtered := st.totals.filteredShardZeroCrosslinks
  included := st.totals.includedHeaderCrosslinks
  recovery := st.totals.totalRecoveryCrosslinks
  issuance := st.totals.recoveryIssuance
  byShard := shareAt id st.totals.includedByShard
  group := st.groupCrosslinks

def linkAmounts (epoch : Nat) (link : Crosslink) : Amounts :=
  if Filtered epoch link then { filtered := 1 }
  else
    { included := 1
      byShard := fun shardID => if shardID = link.shardID then 1 else 0
      group := 1 }

def headerAmounts (header : DecodedHeader) : Amounts :=
  { headers := 1
    synthetic := 1
    encoded := header.crosslinks.length
    group := 1 : Amounts } + (header.crosslinks.map (linkAmounts header.epoch)).sum

/-- A complete group turns its crosslinks into issuance. -/
def closed (a : Amounts) : Amounts :=
  { a with
    groups := 1 + a.groups
    recovery := a.recovery + a.group
    issuance := a.issuance + a.group * hip30RecoveryAttoPerCrosslink
    group := 0 }

def groupAmounts (read : ReadGroup) : Amounts :=
  closed (read.headers.map fun header => headerAmounts header.header).sum

theorem amounts_addCrosslink (epoch : Nat) (st : GroupState) (link : Crosslink) :
    amounts (addCrosslink epoch st link) = amounts st + linkAmounts epoch link := by
  rw [addCrosslink, linkAmounts]
  split
  · ext1 <;> first | rfl | exact (add_zero _).symm
  · ext1
    case byShard =>
      funext shardID
      have hupdate : shareAt id (update st.totals.includedByShard link.shardID 0 (· + 1)) shardID =
          shareAt id st.totals.includedByShard shardID + if shardID = link.shardID then 1 else 0 := by
        have hfresh : id (0 : Nat) = 0 := rfl
        have hchange (count : Nat) : id (count + 1) = id count + 1 := rfl
        exact shareAt_update _ _ hfresh hchange _
      exact hupdate
    all_goals first | rfl | exact (add_zero _).symm

theorem amounts_recordHeader (st : GroupState) (read : ReadHeader) :
    amounts (recordHeader st read) = amounts st + headerAmounts read.header := by
  rw [recordHeader, addReadHeader,
    foldl_total amounts (amounts_addCrosslink read.header.epoch), headerAmounts, ← add_assoc]
  congr 1
  ext1 <;> first | rfl | exact (add_zero _).symm

theorem amounts_recordGroup (totals : Totals) (read : ReadGroup) :
    amounts ⟨recordGroup totals read, 0⟩ = amounts ⟨totals, 0⟩ + groupAmounts read := by
  have hheaders := foldl_total amounts amounts_recordHeader read.headers
    ⟨openGroup totals read.epoch, 0⟩
  rw [recordGroup, groupAmounts]
  generalize read.headers.foldl recordHeader ⟨openGroup totals read.epoch, 0⟩ = st at hheaders
  generalize (read.headers.map fun header => headerAmounts header.header).sum = a at hheaders
  have hgroup : st.groupCrosslinks = a.group := (congrArg Amounts.group hheaders).trans (zero_add _)
  ext1
  case groups => exact (congrArg Amounts.groups hheaders).trans (add_assoc _ _ _)
  case recovery =>
    calc st.totals.totalRecoveryCrosslinks + st.groupCrosslinks
        = totals.totalRecoveryCrosslinks + a.recovery + a.group := by
          rw [hgroup]
          exact congrArg (· + a.group) (congrArg Amounts.recovery hheaders)
      _ = totals.totalRecoveryCrosslinks + (a.recovery + a.group) := add_assoc _ _ _
  case issuance =>
    calc st.totals.recoveryIssuance + st.groupCrosslinks * hip30RecoveryAttoPerCrosslink
        = totals.recoveryIssuance + a.issuance + a.group * hip30RecoveryAttoPerCrosslink := by
          rw [hgroup]
          exact congrArg (· + a.group * hip30RecoveryAttoPerCrosslink)
            (congrArg Amounts.issuance hheaders)
      _ = _ := add_assoc _ _ _
  case headers => exact (congrArg Amounts.headers hheaders :)
  case synthetic => exact (congrArg Amounts.synthetic hheaders :)
  case encoded => exact (congrArg Amounts.encoded hheaders :)
  case filtered => exact (congrArg Amounts.filtered hheaders :)
  case included => exact (congrArg Amounts.included hheaders :)
  case byShard => exact (congrArg Amounts.byShard hheaders :)
  case group => exact (add_zero _).symm

theorem amounts_recordGroups (groups : List ReadGroup) :
    amounts ⟨groups.foldl recordGroup {}, 0⟩ = (groups.map groupAmounts).sum := by
  have htotal := foldl_total (fun totals : Totals => amounts ⟨totals, 0⟩) amounts_recordGroup
    groups {}
  have hzero : amounts ⟨{}, 0⟩ = 0 := rfl
  rw [htotal, hzero, zero_add]

/-! ## Summaries -/

/-- The included crosslinks that a summary lists for a shard. -/
def linksAt (summary : Summary) (shardID : UInt32) : Nat :=
  ((summary.includedHeaderLinksByShard.find? (·.shardID = shardID)).map (·.count)).getD 0

theorem find?_of_mem {shards : List UInt32} (count : UInt32 → Nat) {shardID : UInt32}
    (h : shardID ∈ shards) :
    (shards.map fun k => (⟨k, count k⟩ : ShardCount)).find? (·.shardID = shardID) =
      some ⟨shardID, count shardID⟩ := by
  induction shards with
  | nil => cases h
  | cons k rest ih =>
    rw [List.map_cons, List.find?_cons]
    by_cases hk : k = shardID
    · simp [hk]
    · simp only [hk, decide_false]
      exact ih ((List.mem_cons.mp h).resolve_left (Ne.symm hk))

theorem find?_of_not_mem {shards : List UInt32} (count : UInt32 → Nat) {shardID : UInt32}
    (h : shardID ∉ shards) :
    (shards.map fun k => (⟨k, count k⟩ : ShardCount)).find? (·.shardID = shardID) = none := by
  rw [List.find?_eq_none]
  intro entry hentry heq
  obtain ⟨k, hk, rfl⟩ := List.mem_map.mp hentry
  exact h (of_decide_eq_true heq ▸ hk)

/-- The sorted listing has the counts of the map. -/
theorem linksAt_summarize (flags : Flags) (totals : Totals) (shardID : UInt32) :
    linksAt (summarize lib flags totals) shardID = shareAt id totals.includedByShard shardID := by
  change ((shardCounts totals.includedByShard).find? _ |>.map _).getD 0 = _
  rw [shardCounts, shareAt]
  by_cases hmem : shardID ∈ totals.includedByShard.map Prod.fst
  · have hsorted : shardID ∈ (totals.includedByShard.map Prod.fst).insertionSort (· ≤ ·) :=
      (List.mem_insertionSort _).mpr hmem
    rw [find?_of_mem _ hsorted, Option.map_some, Option.getD_some]
    cases totals.includedByShard.lookup shardID <;> rfl
  · have hsorted : shardID ∉ (totals.includedByShard.map Prod.fst).insertionSort (· ≤ ·) :=
      fun h => hmem ((List.mem_insertionSort _).mp h)
    rw [find?_of_not_mem _ hsorted, (lookup_eq_none_iff _ _).mpr hmem]
    rfl

variable {lib}

/-- An accepted run: its window, its groups and the summary of them. -/
theorem main_ok {flags : Flags} {disk : Except String Database} {summary : Summary}
    (h : main lib flags disk = .ok summary) :
    ∃ db, disk = .ok db ∧ checkWindow flags = .ok () ∧ ∃ groups,
      (rewardBlocks (previousRewardBlock flags.endBlock)
        (nextRewardBlock flags.startBlock)).mapM (checkGroup lib db) = .ok groups ∧
      summary = summarize lib flags (groups.foldl recordGroup {}) := by
  simp only [main, bind_eq_ok] at h
  obtain ⟨⟨⟩, hwindow, db, hdb, totals, htotals, hsummary⟩ := h
  cases disk with
  | error err => cases hdb
  | ok disk =>
    cases hdb
    rw [addGroups_eq] at htotals
    cases hgroups : (rewardBlocks (previousRewardBlock flags.endBlock)
        (nextRewardBlock flags.startBlock)).mapM (checkGroup lib db) with
    | error err =>
      rw [hgroups] at htotals
      cases htotals
    | ok groups =>
      rw [hgroups] at htotals
      cases htotals
      exact ⟨db, rfl, hwindow, groups, hgroups, (Except.ok.inj hsummary).symm⟩

/-! ## The seam -/

variable {startBlock middleEnd endBlock : UInt64}

/-- The next window starts with the header after the last one covered. -/
theorem toNat_nextStart (h : Window startBlock middleEnd) (hlast : middleEnd < lastUint64) :
    (previousRewardBlock middleEnd + 1).toNat = (previousRewardBlock middleEnd).toNat + 1 ∧
      previousRewardBlock middleEnd + rewardFrequency =
        nextRewardBlock (previousRewardBlock middleEnd + 1) := by
  have hrounded := h.last
  have hend := UInt64.lt_iff_toNat_lt.mp hlast
  have htop : lastUint64.toNat = 2 ^ 64 - 1 := rfl
  have hone : (1 : UInt64).toNat = 1 := rfl
  have hfrequency : rewardFrequency.toNat = 64 := rfl
  have hstart : (previousRewardBlock middleEnd + 1).toNat =
      (previousRewardBlock middleEnd).toNat + 1 := by
    rw [UInt64.toNat_add, hone]
    omega
  refine ⟨hstart, UInt64.toNat_inj.mp ?_⟩
  rw [toNat_nextRewardBlock, hstart, UInt64.toNat_add, hfrequency]
  omega

theorem aligned_nextStart (h : Window startBlock middleEnd) (hlast : middleEnd < lastUint64) :
    nextRewardBlock (previousRewardBlock middleEnd + 1) - (rewardFrequency - 1) =
      previousRewardBlock middleEnd + 1 := by
  have hrounded := h.last
  have hstart := (toNat_nextStart h hlast).1
  have hsixtythree : (rewardFrequency - 1).toNat = 63 := rfl
  have hlt := (previousRewardBlock middleEnd + 1).toNat_lt
  apply UInt64.toNat_inj.mp
  rw [UInt64.toNat_sub, toNat_nextRewardBlock, hstart, hsixtythree]
  omega

/-- The groups of the two windows are the groups of the window over both. -/
theorem rewardBlocks_windows (h : Window startBlock middleEnd) (hle : middleEnd ≤ endBlock)
    (hlast : endBlock < lastUint64) :
    rewardBlocks (previousRewardBlock middleEnd) (nextRewardBlock startBlock) ++
        rewardBlocks (previousRewardBlock endBlock)
          (nextRewardBlock (previousRewardBlock middleEnd + 1)) =
      rewardBlocks (previousRewardBlock endBlock) (nextRewardBlock startBlock) := by
  have hbelow : middleEnd < lastUint64 := UInt64.lt_of_le_of_lt hle hlast
  have hnat := UInt64.le_iff_toNat_le.mp hle
  have hend := UInt64.lt_iff_toNat_lt.mp hlast
  have htop : lastUint64.toNat = 2 ^ 64 - 1 := rfl
  have hlimit : (lastUint64 - rewardFrequency).toNat = 2 ^ 64 - 65 := rfl
  have hstart := h.positive
  have haligned := h.aligned
  have hfirst := h.first
  have hmiddle := h.last
  have hcomplete := h.complete
  have hprevious : (previousRewardBlock endBlock).toNat + 1 = (endBlock.toNat + 1) / 64 * 64 :=
    toNat_previousRewardBlock (by omega)
  rw [← (toNat_nextStart h hbelow).2]
  apply rewardBlocks_append
  · exact UInt64.le_iff_toNat_le.mpr (by omega)
  · exact UInt64.le_iff_toNat_le.mpr (by omega)
  · omega
  · rw [UInt64.not_lt, UInt64.le_iff_toNat_le, hlimit]
    omega

/-- The summaries of two adjacent windows and of the window over both. -/
structure Adjacent (first second whole : Summary) : Prop where
  aligned : second.firstCoveredHeader = second.requestedStartBlock
  consecutive : second.firstCoveredHeader.toNat = first.lastCoveredHeader.toNat + 1
  rewardGroups : whole.rewardGroups = first.rewardGroups + second.rewardGroups
  coveredHeaders :
    whole.coveredBeaconHeaders = first.coveredBeaconHeaders + second.coveredBeaconHeaders
  encoded :
    whole.encodedHeaderCrosslinks = first.encodedHeaderCrosslinks + second.encodedHeaderCrosslinks
  filtered : whole.filteredShardZeroCrosslinks =
    first.filteredShardZeroCrosslinks + second.filteredShardZeroCrosslinks
  included : whole.includedHeaderCrosslinks =
    first.includedHeaderCrosslinks + second.includedHeaderCrosslinks
  byShard : ∀ shardID, linksAt whole shardID = linksAt first shardID + linksAt second shardID
  recovery :
    whole.totalRecoveryCrosslinks = first.totalRecoveryCrosslinks + second.totalRecoveryCrosslinks
  issuance : ∃ a b : Int, first.recoveryIssuanceAtto = toString a ∧
    second.recoveryIssuanceAtto = toString b ∧ whole.recoveryIssuanceAtto = toString (a + b)

/-- Adjacent windows neither skip nor recount a group, wherever the first one ends. -/
theorem issuance_additive (lib : HeaderCodec) (dbPath : String) (disk : Except String Database)
    {startBlock e1 e2 : UInt64} (hle : e1 ≤ e2) (hlast : e2 < lastUint64)
    {first second whole : Summary}
    (hfirst : main lib ⟨dbPath, startBlock, e1⟩ disk = .ok first)
    (hsecond : main lib ⟨dbPath, previousRewardBlock e1 + 1, e2⟩ disk = .ok second)
    (hwhole : main lib ⟨dbPath, startBlock, e2⟩ disk = .ok whole) :
    Adjacent first second whole := by
  obtain ⟨db, hdb, hwindow, groups, hgroups, rfl⟩ := main_ok hfirst
  obtain ⟨db2, hdb2, -, groups2, hgroups2, rfl⟩ := main_ok hsecond
  obtain ⟨db3, hdb3, -, groups3, hgroups3, rfl⟩ := main_ok hwhole
  cases hdb.symm.trans hdb2
  cases hdb.symm.trans hdb3
  have hwin : Window startBlock e1 := window_of_checked hwindow
  have hbelow : e1 < lastUint64 := UInt64.lt_of_le_of_lt hle hlast
  have happend : groups3 = groups ++ groups2 := by
    simp only at hgroups hgroups2 hgroups3
    rw [← rewardBlocks_windows hwin hle hlast, List.mapM_append, hgroups, hgroups2] at hgroups3
    exact (Except.ok.inj hgroups3).symm
  have hsum : amounts ⟨groups3.foldl recordGroup {}, 0⟩ =
      amounts ⟨groups.foldl recordGroup {}, 0⟩ + amounts ⟨groups2.foldl recordGroup {}, 0⟩ := by
    rw [amounts_recordGroups, amounts_recordGroups, amounts_recordGroups, happend,
      List.map_append, List.sum_append]
  constructor
  case aligned => exact aligned_nextStart hwin hbelow
  case consecutive =>
    exact (congrArg UInt64.toNat (aligned_nextStart hwin hbelow)).trans
      (toNat_nextStart hwin hbelow).1
  case rewardGroups => exact (congrArg Amounts.groups hsum :)
  case coveredHeaders => exact (congrArg Amounts.headers hsum :)
  case encoded => exact (congrArg Amounts.encoded hsum :)
  case filtered => exact (congrArg Amounts.filtered hsum :)
  case included => exact (congrArg Amounts.included hsum :)
  case byShard =>
    intro shardID
    rw [linksAt_summarize, linksAt_summarize, linksAt_summarize]
    exact (congrFun (congrArg Amounts.byShard hsum) shardID :)
  case recovery => exact (congrArg Amounts.recovery hsum :)
  case issuance =>
    exact ⟨_, _, rfl, rfl, congrArg toString (congrArg Amounts.issuance hsum :)⟩

/-! ## A plain chain -/

/-- A format in which a header is its number; every header has a crosslink of
shard 0 and one of shard 1, and from block 128 on the first is filtered. -/
def plainCodec : HeaderCodec where
  keccak256 encoded := .ofBytes 32 encoded
  sha256 bs := bs
  decodeEnvelope encoded := .ok ⟨envelopeSignature, "v3", encoded⟩
  decodeFields raw :=
    let epoch : Bytes := if toNat raw < 128 then ofNat 2 2963 else ofNat 2 2964
    .ok (List.replicate 8 [] ++ raw :: (List.replicate 6 [] ++
      epoch :: [0] :: (List.replicate 5 [] ++ [[0, 1]])))
  decodeBig bs := .ok (toNat bs)
  decodeUint32 bs := .ok (UInt32.ofNat (toNat bs))
  decodeBytes bs := .ok bs
  decodeCrosslinks bs := .ok (bs.map fun b => ⟨UInt32.ofNat b.toNat⟩)

/-- The database of the plain chain has every header. -/
def plainChain : Database where
  get key :=
    let number := (key.drop 1).take 8
    if key.length = 10 then .ok (FixedBytes.ofBytes 32 number).data else .ok number
  has _ := .ok true
  newIterator _ := ([], none)

/-- The first window ends within a group. -/
theorem issuance_additive_plain : ∃ first second whole,
    main plainCodec ⟨"harmony_db_0", 64, 130⟩ (.ok plainChain) = .ok first ∧
    main plainCodec ⟨"harmony_db_0", 128, 195⟩ (.ok plainChain) = .ok second ∧
    main plainCodec ⟨"harmony_db_0", 64, 195⟩ (.ok plainChain) = .ok whole ∧
    Adjacent first second whole := by
  obtain ⟨first, hfirst⟩ := exists_of_isOk
    (show (main plainCodec ⟨"harmony_db_0", 64, 130⟩ (.ok plainChain)).isOk = true by
      decide +kernel)
  obtain ⟨second, hsecond⟩ := exists_of_isOk
    (show (main plainCodec ⟨"harmony_db_0", previousRewardBlock 130 + 1, 195⟩
      (.ok plainChain)).isOk = true by decide +kernel)
  obtain ⟨whole, hwhole⟩ := exists_of_isOk
    (show (main plainCodec ⟨"harmony_db_0", 64, 195⟩ (.ok plainChain)).isOk = true by
      decide +kernel)
  exact ⟨first, second, whole, hfirst, hsecond, hwhole,
    issuance_additive plainCodec _ _ (by decide) (by decide) hfirst hsecond hwhole⟩

end AdjacentWindows
