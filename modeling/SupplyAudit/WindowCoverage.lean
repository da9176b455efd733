import SupplyAudit.AdjacentWindows

/-!
# Coverage of a recovery window

The loops visit the headers from the start of a window to its last reward
block in order, and the counters of a summary balance.
-/

namespace WindowCoverage

open ByteWords NumeralText ReceiptKeys ChainDatabase FallibleScan KeyedTable RecoveryIssuance
  AdjacentWindows

/-! ## Visited headers -/

theorem headerNumbers_eq {rewardBlock number : UInt64} (hle : number ≤ rewardBlock) :
    (headerNumbers rewardBlock number).map UInt64.toNat =
      List.range' number.toNat (rewardBlock.toNat - number.toNat + 1) := by
  fun_induction headerNumbers rewardBlock number with
  | case1 number hin ih =>
    have hnat := UInt64.le_iff_toNat_le.mp hin
    have hlt := rewardBlock.toNat_lt
    rw [List.map_cons, List.range'_succ]
    by_cases hlast : number = lastUint64
    · have htop : number.toNat = 2 ^ 64 - 1 := congrArg UInt64.toNat hlast
      have hnone : rewardBlock.toNat - number.toNat = 0 := by omega
      rw [dif_pos hlast, hnone, List.map_nil, List.range'_zero]
    · have hnext := lt_add_one hlast
      rw [dif_neg hlast]
      by_cases heq : number = rewardBlock
      · have hnot : ¬ number + 1 ≤ rewardBlock := by
          rw [UInt64.le_iff_toNat_le, hnext, heq]
          omega
        rw [headerNumbers, if_neg hnot, heq, Nat.sub_self, List.map_nil, List.range'_zero]
      · have hne : number.toNat ≠ rewardBlock.toNat := fun h => heq (UInt64.toNat_inj.mp h)
        have hcount : rewardBlock.toNat - (number + 1).toNat + 1 =
            rewardBlock.toNat - number.toNat := by omega
        rw [ih hlast (UInt64.le_iff_toNat_le.mpr (by omega)), hcount, hnext]
  | case2 number hnot => exact absurd hle hnot

/-- The header numbers of a group, from its reward block. -/
def groupNumbers (rewardBlock : UInt64) : List UInt64 :=
  headerNumbers rewardBlock (rewardBlock - (rewardFrequency - 1))

/-- The header numbers of a window, group by group. -/
def visitedNumbers (startBlock endBlock : UInt64) : List UInt64 :=
  (rewardBlocks (previousRewardBlock endBlock) (nextRewardBlock startBlock)).flatMap groupNumbers

theorem groupNumbers_eq {rewardBlock : UInt64} (h : 63 ≤ rewardBlock.toNat) :
    (groupNumbers rewardBlock).map UInt64.toNat = List.range' (rewardBlock.toNat - 63) 64 := by
  have hsixtythree : (rewardFrequency - 1).toNat = 63 := rfl
  have hlt := rewardBlock.toNat_lt
  have hstart : (rewardBlock - (rewardFrequency - 1)).toNat = rewardBlock.toNat - 63 := by
    rw [UInt64.toNat_sub, hsixtythree]
    omega
  have hcount : rewardBlock.toNat - (rewardBlock.toNat - 63) + 1 = 64 := by omega
  rw [groupNumbers, headerNumbers_eq (UInt64.le_iff_toNat_le.mpr (by omega)), hstart, hcount]

theorem rewardBlocks_numbers {lastReward rewardBlock : UInt64} (hle : rewardBlock ≤ lastReward)
    (h : 63 ≤ rewardBlock.toNat) (haligned : rewardBlock.toNat % 64 = lastReward.toNat % 64)
    (hbound : ¬ lastUint64 - rewardFrequency < lastReward) :
    ((rewardBlocks lastReward rewardBlock).flatMap groupNumbers).map UInt64.toNat =
      List.range' (rewardBlock.toNat - 63) (lastReward.toNat - rewardBlock.toNat + 64) := by
  fun_induction rewardBlocks lastReward rewardBlock with
  | case1 rewardBlock hin ih =>
    have hwithin : ¬ lastUint64 - rewardFrequency < rewardBlock :=
      fun hlt => hbound (UInt64.lt_of_lt_of_le hlt hin)
    have hnext := toNat_add_frequency hwithin
    have hnat := UInt64.le_iff_toNat_le.mp hin
    rw [dif_neg hwithin, List.flatMap_cons, List.map_append, groupNumbers_eq h]
    by_cases heq : rewardBlock = lastReward
    · have hgt : lastReward < rewardBlock + rewardFrequency := by
        rw [UInt64.lt_iff_toNat_lt, hnext, heq]
        omega
      rw [rewardBlocks_of_gt hgt, List.flatMap_nil, List.map_nil, List.append_nil, heq,
        Nat.sub_self]
    · have hne : rewardBlock.toNat ≠ lastReward.toNat := fun h => heq (UInt64.toNat_inj.mp h)
      have hrest := ih hwithin (UInt64.le_iff_toNat_le.mpr (by omega)) (by omega) (by omega)
      have hstart : rewardBlock.toNat + 64 - 63 = rewardBlock.toNat - 63 + 64 := by omega
      have hcount : lastReward.toNat - rewardBlock.toNat + 64 =
          64 + (lastReward.toNat - (rewardBlock.toNat + 64) + 64) := by omega
      rw [hrest, hnext, hcount, hstart]
      exact List.range'_append_1
  | case2 rewardBlock hnot => exact absurd hle hnot

variable {startBlock endBlock : UInt64}

theorem lastReward_bound (h : Window startBlock endBlock) (hlast : endBlock < lastUint64) :
    ¬ lastUint64 - rewardFrequency < previousRewardBlock endBlock := by
  have hend := UInt64.lt_iff_toNat_lt.mp hlast
  have htop : lastUint64.toNat = 2 ^ 64 - 1 := rfl
  have hlimit : (lastUint64 - rewardFrequency).toNat = 2 ^ 64 - 65 := rfl
  have hrounded := h.last
  rw [UInt64.not_lt, UInt64.le_iff_toNat_le, hlimit]
  omega

/-- Every block of the window is visited once, in increasing order. -/
theorem visitedNumbers_eq (h : Window startBlock endBlock) (hlast : endBlock < lastUint64) :
    (visitedNumbers startBlock endBlock).map UInt64.toNat = List.range' startBlock.toNat
      ((previousRewardBlock endBlock).toNat - startBlock.toNat + 1) := by
  have hfirst := h.first
  have hstart := h.aligned
  have hrounded := h.last
  have hcomplete := h.complete
  have hle : nextRewardBlock startBlock ≤ previousRewardBlock endBlock :=
    UInt64.le_iff_toNat_le.mpr (by omega)
  have hcount : (previousRewardBlock endBlock).toNat - (startBlock.toNat + 63) + 64 =
      (previousRewardBlock endBlock).toNat - startBlock.toNat + 1 := by omega
  rw [visitedNumbers, rewardBlocks_numbers hle (by omega) (by omega) (lastReward_bound h hlast),
    hfirst, Nat.add_sub_cancel, hcount]

/-! ## Read headers -/

variable {lib : HeaderCodec} {db : Database}

theorem headers_of_checked {rewardBlock : UInt64} {read : ReadGroup}
    (h : checkGroup lib db rewardBlock = .ok read) :
    (groupNumbers rewardBlock).mapM (checkHeader lib db) = .ok read.headers := by
  rw [checkGroup] at h
  cases hread : (readCanonicalHeader lib db rewardBlock).mapError Failure.header with
  | error err =>
    rw [hread] at h
    cases h
  | ok found =>
    simp only [hread, bind_ok] at h
    split at h
    · cases h
    split at h
    · cases h
    obtain ⟨headers, hheaders, hrest⟩ := bind_eq_ok.mp h
    split at hrest
    · simp only [bind_eq_ok] at hrest
      obtain ⟨-, -, hnever⟩ := hrest
      cases hnever
    · cases hrest
      exact hheaders

/-- The headers of the groups are those of the numbers of the groups. -/
theorem headers_of_groups {blocks : List UInt64} {groups : List ReadGroup}
    (h : blocks.mapM (checkGroup lib db) = .ok groups) :
    (blocks.flatMap groupNumbers).mapM (checkHeader lib db) =
      .ok (groups.flatMap ReadGroup.headers) := by
  have hall := mapM_ok_iff.mp h
  induction hall with
  | nil => rfl
  | cons hfirst hrest ih =>
    rw [List.flatMap_cons, List.flatMap_cons, List.mapM_append, headers_of_checked hfirst,
      ih (mapM_ok_iff.mpr hrest)]
    rfl

/-! ## The digest -/

/-- What the digest takes of a header. -/
def digested (read : ReadHeader) : Bytes := ofNat 8 read.number.toNat ++ read.hash.data

theorem digest_addCrosslinks (epoch : Nat) (links : List Crosslink) (st : GroupState) :
    (links.foldl (addCrosslink epoch) st).totals.digest = st.totals.digest := by
  induction links generalizing st with
  | nil => rfl
  | cons link rest ih =>
    rw [List.foldl_cons, ih, addCrosslink]
    split <;> rfl

theorem digest_recordHeader (st : GroupState) (read : ReadHeader) :
    (recordHeader st read).totals.digest = st.totals.digest ++ digested read := by
  rw [recordHeader, addReadHeader, digest_addCrosslinks]
  rfl

theorem digest_recordGroup (totals : Totals) (read : ReadGroup) :
    (recordGroup totals read).digest = totals.digest ++ read.headers.flatMap digested :=
  foldl_listed (fun st : GroupState => st.totals.digest) digest_recordHeader read.headers
    ⟨openGroup totals read.epoch, 0⟩

theorem digest_recordGroups (groups : List ReadGroup) :
    (groups.foldl recordGroup {}).digest =
      (groups.flatMap ReadGroup.headers).flatMap digested := by
  rw [foldl_listed Totals.digest digest_recordGroup, List.flatMap_assoc]
  rfl

/-! ## Counters -/

/-- The identities between the counters of a header, a group or a window. -/
structure Balanced (a : Amounts) : Prop where
  synthetic : a.synthetic = a.headers
  encoded : a.encoded = a.included + a.filtered
  recovery : a.recovery + a.group = a.synthetic + a.included
  issuance : a.issuance = a.recovery * hip30RecoveryAttoPerCrosslink

/-- What the crosslinks of a header count: each of them once. -/
structure LinkCounts (a : Amounts) (links : Nat) : Prop where
  groups : a.groups = 0
  headers : a.headers = 0
  synthetic : a.synthetic = 0
  encoded : a.encoded = 0
  counted : links = a.included + a.filtered
  recovery : a.recovery = 0
  issuance : a.issuance = 0
  group : a.group = a.included

theorem LinkCounts.add {a b : Amounts} {m n : Nat} (ha : LinkCounts a m) (hb : LinkCounts b n) :
    LinkCounts (a + b) (m + n) where
  groups := by
    have h : (a + b).groups = a.groups + b.groups := rfl
    rw [h, ha.groups, hb.groups]
  headers := by
    have h : (a + b).headers = a.headers + b.headers := rfl
    rw [h, ha.headers, hb.headers]
  synthetic := by
    have h : (a + b).synthetic = a.synthetic + b.synthetic := rfl
    rw [h, ha.synthetic, hb.synthetic]
  encoded := by
    have h : (a + b).encoded = a.encoded + b.encoded := rfl
    rw [h, ha.encoded, hb.encoded]
  counted := by
    have hincluded : (a + b).included = a.included + b.included := rfl
    have hfiltered : (a + b).filtered = a.filtered + b.filtered := rfl
    have hm := ha.counted
    have hn := hb.counted
    omega
  recovery := by
    have h : (a + b).recovery = a.recovery + b.recovery := rfl
    rw [h, ha.recovery, hb.recovery]
  issuance := by
    have h : (a + b).issuance = a.issuance + b.issuance := rfl
    rw [h, ha.issuance, hb.issuance, add_zero]
  group := by
    have h : (a + b).group = a.group + b.group := rfl
    rw [h, ha.group, hb.group]
    rfl

theorem linkCounts_link (epoch : Nat) (link : Crosslink) :
    LinkCounts (linkAmounts epoch link) 1 := by
  rw [linkAmounts]
  split <;> constructor <;> rfl

theorem linkCounts_links (epoch : Nat) (links : List Crosslink) :
    LinkCounts (links.map (linkAmounts epoch)).sum links.length := by
  induction links with
  | nil => constructor <;> rfl
  | cons link rest ih =>
    rw [List.map_cons, List.sum_cons, List.length_cons, Nat.add_comm]
    exact (linkCounts_link epoch link).add ih

theorem balanced_zero : Balanced 0 := by
  constructor <;> rfl

theorem Balanced.add {a b : Amounts} (ha : Balanced a) (hb : Balanced b) : Balanced (a + b) where
  synthetic := by
    have hs : (a + b).synthetic = a.synthetic + b.synthetic := rfl
    rw [hs, ha.synthetic, hb.synthetic]
    rfl
  encoded := by
    have he : (a + b).encoded = a.encoded + b.encoded := rfl
    have hi : (a + b).included = a.included + b.included := rfl
    have hf : (a + b).filtered = a.filtered + b.filtered := rfl
    have hencoded := ha.encoded
    have hencoded' := hb.encoded
    omega
  recovery := by
    have hr : (a + b).recovery = a.recovery + b.recovery := rfl
    have hg : (a + b).group = a.group + b.group := rfl
    have hs : (a + b).synthetic = a.synthetic + b.synthetic := rfl
    have hi : (a + b).included = a.included + b.included := rfl
    have hrecovery := ha.recovery
    have hrecovery' := hb.recovery
    omega
  issuance := by
    have hi : (a + b).issuance = a.issuance + b.issuance := rfl
    have hr : (a + b).recovery = a.recovery + b.recovery := rfl
    rw [hi, ha.issuance, hb.issuance, hr, Nat.cast_add, Int.add_mul]

theorem balanced_sum {l : List Amounts} (h : ∀ a ∈ l, Balanced a) : Balanced l.sum := by
  induction l with
  | nil => exact balanced_zero
  | cons a rest ih =>
    rw [List.sum_cons]
    exact (h a List.mem_cons_self).add (ih fun b hb => h b (List.mem_cons_of_mem a hb))

theorem balanced_header (header : DecodedHeader) : Balanced (headerAmounts header) := by
  have hlinks := linkCounts_links header.epoch header.crosslinks
  rw [headerAmounts]
  generalize (header.crosslinks.map (linkAmounts header.epoch)).sum = a at hlinks
  constructor
  case synthetic => exact congrArg (1 + ·) (hlinks.synthetic.trans hlinks.headers.symm)
  case encoded =>
    change header.crosslinks.length + a.encoded = 0 + a.included + (0 + a.filtered)
    have hencoded := hlinks.encoded
    have hcounted := hlinks.counted
    omega
  case recovery =>
    change 0 + a.recovery + (1 + a.group) = 1 + a.synthetic + (0 + a.included)
    have hrecovery := hlinks.recovery
    have hsynthetic := hlinks.synthetic
    have hgroup := hlinks.group
    omega
  case issuance =>
    change 0 + a.issuance = ((0 + a.recovery : Nat) : Int) * hip30RecoveryAttoPerCrosslink
    rw [hlinks.issuance, hlinks.recovery]
    rfl

/-- Closing a group keeps the balance. -/
theorem Balanced.closed {a : Amounts} (h : Balanced a) : Balanced (closed a) where
  synthetic := h.synthetic
  encoded := h.encoded
  recovery := h.recovery
  issuance := by
    change a.issuance + a.group * hip30RecoveryAttoPerCrosslink =
      ((a.recovery + a.group : Nat) : Int) * hip30RecoveryAttoPerCrosslink
    rw [h.issuance, Nat.cast_add, Int.add_mul]

theorem balanced_group (read : ReadGroup) : Balanced (groupAmounts read) := by
  refine (balanced_sum fun a ha => ?_).closed
  obtain ⟨header, -, rfl⟩ := List.mem_map.mp ha
  exact balanced_header header.header

theorem balanced_groups (groups : List ReadGroup) :
    Balanced (amounts ⟨groups.foldl recordGroup {}, 0⟩) := by
  rw [amounts_recordGroups]
  refine balanced_sum fun a ha => ?_
  obtain ⟨read, -, rfl⟩ := List.mem_map.mp ha
  exact balanced_group read

theorem counts_header (header : DecodedHeader) :
    (headerAmounts header).groups = 0 ∧ (headerAmounts header).headers = 1 := by
  have hlinks := linkCounts_links header.epoch header.crosslinks
  exact ⟨congrArg (0 + ·) hlinks.groups, congrArg (1 + ·) hlinks.headers⟩

theorem counts_headers (headers : List ReadHeader) :
    ((headers.map fun read => headerAmounts read.header).sum).groups = 0 ∧
      ((headers.map fun read => headerAmounts read.header).sum).headers = headers.length := by
  induction headers with
  | nil => exact ⟨rfl, rfl⟩
  | cons read rest ih =>
    obtain ⟨hgroups, hheaders⟩ := counts_header read.header
    rw [List.map_cons, List.sum_cons, List.length_cons, Nat.add_comm rest.length, ← hheaders,
      ← ih.2]
    exact ⟨congrArg₂ (· + ·) hgroups ih.1, rfl⟩

/-- A window has 64 headers a group. -/
theorem headers_eq {blocks : List UInt64} {groups : List ReadGroup}
    (hblocks : ∀ rewardBlock ∈ blocks, 63 ≤ rewardBlock.toNat)
    (h : blocks.mapM (checkGroup lib db) = .ok groups) :
    (groups.map groupAmounts).sum.headers = 64 * (groups.map groupAmounts).sum.groups := by
  have hall := mapM_ok_iff.mp h
  induction hall with
  | nil => rfl
  | @cons rewardBlock read blocks groups hfirst hrest ih =>
    have hlength : read.headers.length = 64 := by
      have hread := (mapM_ok_iff.mp (headers_of_checked hfirst)).length_eq
      have hnumbers := congrArg List.length
        (groupNumbers_eq (hblocks rewardBlock List.mem_cons_self))
      rw [List.length_map, List.length_range'] at hnumbers
      rw [← hread, hnumbers]
    obtain ⟨hgroups, hheaders⟩ := counts_headers read.headers
    have htail := ih (fun b hb => hblocks b (List.mem_cons_of_mem _ hb)) (mapM_ok_iff.mpr hrest)
    have hgroup : (groupAmounts read).groups = 1 := congrArg (1 + ·) hgroups
    have hcovered : (groupAmounts read).headers = 64 := hheaders.trans hlength
    have hsumHeaders : ((groupAmounts read) + (groups.map groupAmounts).sum).headers =
        (groupAmounts read).headers + (groups.map groupAmounts).sum.headers := rfl
    have hsumGroups : ((groupAmounts read) + (groups.map groupAmounts).sum).groups =
        (groupAmounts read).groups + (groups.map groupAmounts).sum.groups := rfl
    rw [List.map_cons, List.sum_cons, hsumHeaders, hsumGroups, hgroup, hcovered, htail]
    omega

/-! ## Counts by shard -/

/-- The shards are listed once, and their counts add up to the included crosslinks. -/
structure Listed (totals : Totals) : Prop where
  nodup : (totals.includedByShard.map Prod.fst).Nodup
  total : total id totals.includedByShard = totals.includedHeaderCrosslinks

theorem Listed.addCrosslink {st : GroupState} (h : Listed st.totals) (epoch : Nat)
    (link : Crosslink) : Listed (addCrosslink epoch st link).totals := by
  rw [RecoveryIssuance.addCrosslink]
  split
  · exact ⟨h.nodup, h.total⟩
  · refine ⟨nodup_update h.nodup link.shardID 0 (· + 1), ?_⟩
    have hfresh : id (0 : Nat) = 0 := rfl
    have hchange (count : Nat) : id (count + 1) = id count + 1 := rfl
    have hupdate : KeyedTable.total id (update st.totals.includedByShard link.shardID 0 (· + 1)) =
        KeyedTable.total id st.totals.includedByShard + 1 :=
      total_update_add h.nodup link.shardID hfresh hchange
    exact hupdate.trans (congrArg (· + 1) h.total)

theorem Listed.recordHeader {st : GroupState} (h : Listed st.totals) (read : ReadHeader) :
    Listed (recordHeader st read).totals :=
  List.foldlRecOn (motive := fun st : GroupState => Listed st.totals) read.header.crosslinks
    (RecoveryIssuance.addCrosslink read.header.epoch) ⟨h.nodup, h.total⟩
    fun _ hst link _ => hst.addCrosslink read.header.epoch link

theorem Listed.recordGroup {totals : Totals} (h : Listed totals) (read : ReadGroup) :
    Listed (recordGroup totals read) := by
  have hheaders : Listed (read.headers.foldl AdjacentWindows.recordHeader
      ⟨openGroup totals read.epoch, 0⟩).totals :=
    List.foldlRecOn (motive := fun st : GroupState => Listed st.totals) read.headers
      AdjacentWindows.recordHeader ⟨h.nodup, h.total⟩ fun _ hst header _ => hst.recordHeader header
  exact ⟨hheaders.nodup, hheaders.total⟩

theorem listed_groups (groups : List ReadGroup) : Listed (groups.foldl recordGroup {}) :=
  List.foldlRecOn (motive := Listed) groups AdjacentWindows.recordGroup
    ⟨List.nodup_nil, rfl⟩ fun _ h read _ => h.recordGroup read

theorem sum_shardCounts {totals : Totals} (h : Listed totals) :
    ((shardCounts totals.includedByShard).map ShardCount.count).sum =
      totals.includedHeaderCrosslinks := by
  have hperm := List.perm_insertionSort (· ≤ ·) (totals.includedByShard.map Prod.fst)
  have hcounts : (fun shardID => (totals.includedByShard.lookup shardID).getD 0) =
      shareAt id totals.includedByShard := by
    funext shardID
    rw [shareAt]
    cases totals.includedByShard.lookup shardID <;> rfl
  rw [← h.total, ← sum_shareAt id h.nodup hperm, shardCounts, List.map_map]
  exact congrArg (fun f => (List.map f _).sum) hcounts

/-! ## Coverage and accounting -/

variable (lib) in
/-- What an accepted window reports. -/
structure Accounted (db : Database) (flags : Flags) (summary : Summary) : Prop where
  /-- The loops visit the blocks up to the last reward block, in order. -/
  visited : (visitedNumbers flags.startBlock flags.endBlock).map UInt64.toNat =
    List.range' flags.startBlock.toNat
      (summary.lastRewardBlock.toNat - flags.startBlock.toNat + 1)
  /-- The digest is of the header read for each of them. -/
  headers : ∃ reads, (visitedNumbers flags.startBlock flags.endBlock).mapM (checkHeader lib db) =
      .ok reads ∧
    summary.canonicalHeaderDigestSHA256 = hexText (lib.sha256 (reads.flatMap digested))
  rounded : summary.lastRewardBlock.toNat % 64 = 63
  within : summary.lastRewardBlock ≤ flags.endBlock
  largest : ∀ block ≤ flags.endBlock, block.toNat % 64 = 63 → block ≤ summary.lastRewardBlock
  tail : flags.endBlock.toNat - summary.lastRewardBlock.toNat < 64
  covered : summary.coveredBeaconHeaders = 64 * summary.rewardGroups
  synthetic : summary.syntheticBeaconCrosslinks = summary.coveredBeaconHeaders
  encoded : summary.encodedHeaderCrosslinks =
    summary.includedHeaderCrosslinks + summary.filteredShardZeroCrosslinks
  included : summary.includedHeaderCrosslinks =
    (summary.includedHeaderLinksByShard.map ShardCount.count).sum
  recovery : summary.totalRecoveryCrosslinks =
    summary.syntheticBeaconCrosslinks + summary.includedHeaderCrosslinks
  issuance : summary.recoveryIssuanceAtto =
    toString ((summary.totalRecoveryCrosslinks : Int) * 3500000000000000000)

theorem rewardBlocks_ge {lastReward rewardBlock : UInt64} (h : 63 ≤ rewardBlock.toNat) :
    ∀ block ∈ rewardBlocks lastReward rewardBlock, 63 ≤ block.toNat := by
  fun_induction rewardBlocks lastReward rewardBlock with
  | case1 rewardBlock hle ih =>
    intro block hblock
    rcases List.mem_cons.mp hblock with rfl | hblock
    · exact h
    · by_cases hbeyond : lastUint64 - rewardFrequency < rewardBlock
      · rw [dif_pos hbeyond] at hblock
        cases hblock
      · rw [dif_neg hbeyond] at hblock
        have hnext := toNat_add_frequency hbeyond
        exact ih hbeyond (by omega) block hblock
  | case2 rewardBlock hnot =>
    intro block hblock
    cases hblock

theorem accounted_of_ok {flags : Flags} {disk : Except String Database} {summary : Summary}
    (hlast : flags.endBlock < lastUint64) (h : main lib flags disk = .ok summary) :
    ∃ db, disk = .ok db ∧ Accounted lib db flags summary := by
  obtain ⟨db, hdb, hwindow, groups, hgroups, rfl⟩ := main_ok h
  have hwin := window_of_checked hwindow
  have hrounded := hwin.last
  have hcomplete := hwin.complete
  have hpositive := hwin.positive
  have hfirst : 63 ≤ (nextRewardBlock flags.startBlock).toNat := by
    rw [hwin.first]
    omega
  have hblocks : ∀ block ∈ rewardBlocks (previousRewardBlock flags.endBlock)
      (nextRewardBlock flags.startBlock), 63 ≤ block.toNat := rewardBlocks_ge hfirst
  have hbalanced := balanced_groups groups
  have hlisted := listed_groups groups
  refine ⟨db, hdb, ?_⟩
  constructor
  case visited => exact visitedNumbers_eq hwin hlast
  case headers =>
    refine ⟨_, headers_of_groups hgroups, ?_⟩
    rw [← digest_recordGroups]
    rfl
  case rounded =>
    change (previousRewardBlock flags.endBlock).toNat % 64 = 63
    omega
  case within =>
    change previousRewardBlock flags.endBlock ≤ flags.endBlock
    rw [UInt64.le_iff_toNat_le]
    omega
  case largest =>
    intro block hle hblock
    change block ≤ previousRewardBlock flags.endBlock
    rw [UInt64.le_iff_toNat_le] at hle ⊢
    omega
  case tail =>
    change flags.endBlock.toNat - (previousRewardBlock flags.endBlock).toNat < 64
    omega
  case covered =>
    have hheaders := headers_eq hblocks hgroups
    rw [← amounts_recordGroups] at hheaders
    exact hheaders
  case synthetic => exact hbalanced.synthetic
  case encoded => exact hbalanced.encoded
  case included => exact (sum_shardCounts hlisted).symm
  case recovery => exact hbalanced.recovery
  case issuance => exact congrArg toString hbalanced.issuance

/-- A window that does not start with a group, or ends before the first one, is
refused by the checks of the arguments. -/
theorem rejected (flags : Flags)
    (h : flags.endBlock.toNat < 63 ∨ flags.startBlock.toNat % 64 ≠ 0) :
    ∃ err, checkWindow flags = .error err := by
  cases hchecked : checkWindow flags with
  | error err => exact ⟨err, rfl⟩
  | ok =>
    have hwin := window_of_checked hchecked
    have haligned := hwin.aligned
    have hcomplete := hwin.complete
    have hrounded := hwin.last
    omega

/-- Coverage and accounting of accepted windows, and refusal of the others. -/
theorem window_coverage (lib : HeaderCodec) (flags : Flags) :
    (flags.endBlock < lastUint64 → ∀ disk summary, main lib flags disk = .ok summary →
      ∃ db, disk = .ok db ∧ Accounted lib db flags summary) ∧
    (flags.endBlock.toNat < 63 ∨ flags.startBlock.toNat % 64 ≠ 0 →
      ∃ err, ∀ disk, main lib flags disk = .error err) := by
  constructor
  · intro hlast disk summary hmain
    exact accounted_of_ok hlast hmain
  · intro hout
    obtain ⟨err, herr⟩ := rejected flags hout
    refine ⟨err, fun disk => ?_⟩
    rw [main, herr]
    rfl

/-- Two groups of the plain chain, and an end at which the last reward block wraps. -/
theorem window_coverage_plain :
    (∃ summary, main plainCodec ⟨"harmony_db_0", 64, 195⟩ (.ok plainChain) = .ok summary ∧
      ∃ db, (Except.ok plainChain : Except String Database) = (Except.ok db : Except String Database) ∧
        Accounted plainCodec db ⟨"harmony_db_0", 64, 195⟩ summary) ∧
    previousRewardBlock 62 = lastUint64 ∧
    ∃ err, ∀ disk, main plainCodec ⟨"harmony_db_0", 1, 62⟩ disk = .error err := by
  obtain ⟨summary, hmain⟩ := exists_of_isOk
    (show (main plainCodec ⟨"harmony_db_0", 64, 195⟩ (.ok plainChain)).isOk = true by
      decide +kernel)
  exact ⟨⟨summary, hmain, (window_coverage plainCodec _).1 (by decide) _ _ hmain⟩, by decide,
    (window_coverage plainCodec ⟨"harmony_db_0", 1, 62⟩).2 (by decide)⟩

end WindowCoverage
