import SupplyAudit.ActualSupplyTotals
import SupplyAudit.LedgerInputs

/-!
# The independent sums agree

The component exports and the independent scan go over the same state in
different ways. Whenever they all complete, the exported columns add up to the
scanned totals, the scan finds the same totals with and without a validator
list, and the ledger's total is the scanned one.
-/

namespace IndependentSums

open ByteWords NumeralText ReceiptKeys ChainDatabase FallibleScan ScriptValues StateTrie WrapperTotals
  SnapshotRows StakingTotals ActualSupplyTotals ActualSupplyLedger LedgerReaders LedgerTotals
  LedgerInputs

/-- A column of a CSV file, added up. -/
def csvSum (field : String) (csv : List (List String)) : Option Int := do
  let values ← (dictRows csv).mapM fun row => (row.lookup field).join.bind readInt
  some values.sum

theorem csvSum_printed {α : Type} {header : List String} {entries : List α}
    {cells : α → List String} {value : α → Int} {field : String}
    (hget : ∀ e, (dictRow header (cells e)).get field = .ok (some (toString (value e)))) :
    csvSum field (header :: entries.map cells) = some (entries.map value).sum := by
  have hcell : ∀ e, ((dictRow header (cells e)).lookup field).join.bind readInt =
      some (value e) := by
    intro e
    have hfield := hget e
    rw [Row.get] at hfield
    split at hfield
    · cases hfield
    · rename_i cell hlookup
      rw [Except.ok.injEq] at hfield
      rw [hlookup, hfield]
      exact readInt_toString (value e)
  have hvalues : (dictRows (header :: entries.map cells)).mapM
      (fun row => (row.lookup field).join.bind readInt) = some (entries.map value) := by
    rw [dictRows, List.map_map, List.mapM_map, ← mapM_readInt]
    congr 1
    funext e
    exact (hcell e).trans (readInt_toString (value e)).symm
  rw [csvSum, hvalues]
  rfl

/-- Every wrapper of the state is in the totals exactly once. -/
def CountsOnce (codec : StateCodec) (db : Database) (trie : Trie)
    (totals : ActualSupply.Totals) : Prop :=
  ∃ ws, ws.Perm (wrappers codec db trie) ∧ totals.validatorCount = ws.length ∧
    totals.activeDelegationAtto = toString (active ws) ∧
    totals.pendingUndelegationAtto = toString (undelegated ws) ∧
    totals.unclaimedDelegationRewardAtto = toString (reward ws)

/-- What the exports of a shard-0 state and its two independent scans have in common. -/
structure SumsAgree (codec : StateCodec) (db : Database) (trie : Trie)
    (snapshot : AccountSnapshot.Output) (staking : StakingClaims.Output)
    (discovered listed : ActualSupply.Totals) : Prop where
  liquid : ∃ z, csvSum "balance_atto" snapshot.csv = some z ∧
    discovered.liquidBalanceAtto = toString z
  active : ∃ z, csvSum "active_delegation_atto" staking.csv = some z ∧
    staking.summary.activeAtto = toString z ∧ discovered.activeDelegationAtto = toString z
  undelegated : ∃ z, csvSum "pending_undelegation_atto" staking.csv = some z ∧
    staking.summary.pendingUndelegationAtto = toString z ∧
    discovered.pendingUndelegationAtto = toString z
  reward : ∃ z, csvSum "unclaimed_reward_atto" staking.csv = some z ∧
    staking.summary.rewardAtto = toString z ∧
    discovered.unclaimedDelegationRewardAtto = toString z
  validators : staking.summary.validatorCount = discovered.validatorCount
  discovered_once : CountsOnce codec db trie discovered
  listed_once : CountsOnce codec db trie listed
  listed_liquid : listed.liquidBalanceAtto = discovered.liquidBalanceAtto
  listed_active : listed.activeDelegationAtto = discovered.activeDelegationAtto
  listed_undelegated : listed.pendingUndelegationAtto = discovered.pendingUndelegationAtto
  listed_reward : listed.unclaimedDelegationRewardAtto = discovered.unclaimedDelegationRewardAtto
  listed_claims : listed.accountAndStakingClaimsAtto = discovered.accountAndStakingClaimsAtto
  listed_validators : listed.validatorCount = discovered.validatorCount

variable {codec : StateCodec} {db : Database} {trie : Trie}

/-- The flags of a scan that discovers validators, and of one that has a list. -/
def discoverFlags : ActualSupply.Flags := ⟨true, false, true⟩

def listFlags : ActualSupply.Flags := ⟨true, false, false⟩

theorem active_perm {ws vs : List ValidatorWrapper} (h : ws.Perm vs) : active ws = active vs :=
  (h.map _).sum_eq

theorem undelegated_perm {ws vs : List ValidatorWrapper} (h : ws.Perm vs) :
    undelegated ws = undelegated vs :=
  (h.map _).sum_eq

theorem reward_perm {ws vs : List ValidatorWrapper} (h : ws.Perm vs) : reward ws = reward vs :=
  (h.map _).sum_eq

/-- What a scan with staking publishes, by the state alone. -/
structure Scanned (codec : StateCodec) (db : Database) (trie : Trie)
    (totals : ActualSupply.Totals) : Prop where
  once : CountsOnce codec db trie totals
  liquid : totals.liquidBalanceAtto = toString (liquid codec trie)
  active : totals.activeDelegationAtto = toString (active (wrappers codec db trie))
  undelegated : totals.pendingUndelegationAtto = toString (undelegated (wrappers codec db trie))
  reward : totals.unclaimedDelegationRewardAtto = toString (reward (wrappers codec db trie))
  claims : totals.accountAndStakingClaimsAtto = toString (WrapperTotals.liquid codec trie +
    WrapperTotals.active (wrappers codec db trie) +
    WrapperTotals.undelegated (wrappers codec db trie) +
    WrapperTotals.reward (wrappers codec db trie))
  validators : totals.validatorCount = (wrappers codec db trie).length

theorem scanned_of_ok (hempty : EmptyCodeUnique codec) {flags : ActualSupply.Flags}
    (hstaking : flags.staking) (hfull : flags.validatorOnly = false) {root : Hash}
    {order : List Address → List Address} (horder : ∀ l, (order l).Perm l)
    {totals : ActualSupply.Totals}
    (h : ActualSupply.main codec db flags trie root order = .ok totals) :
    Scanned codec db trie totals := by
  obtain ⟨hliquid, ws, hperm, hcount, hactive, hundelegated, hreward, hclaims⟩ :=
    ActualSupplyTotals.main_ok hempty horder hfull h
  rw [if_pos hstaking] at hperm
  refine ⟨⟨ws, hperm, hcount, hactive, hundelegated, hreward⟩, hliquid, ?_, ?_, ?_, ?_, ?_⟩
  · rw [hactive, active_perm hperm]
  · rw [hundelegated, undelegated_perm hperm]
  · rw [hreward, reward_perm hperm]
  · rw [hclaims, active_perm hperm, undelegated_perm hperm, reward_perm hperm]
  · rw [hcount, hperm.length_eq]

/-- The staking export of a run that discovers validators. -/
theorem staking_main_ok (hempty : EmptyCodeUnique codec) {root : Hash}
    {output : StakingClaims.Output}
    (h : StakingClaims.main codec db trie root true = .ok output) :
    ∃ p, Held codec p (wrappers codec db trie) ∧
      output.csv = StakingClaims.header ::
        (StakingClaims.reportedClaims p).map (StakingClaims.claimRecord codec) ∧
      output.summary.activeAtto = toString p.activeTotal ∧
      output.summary.pendingUndelegationAtto = toString p.pendingTotal ∧
      output.summary.rewardAtto = toString p.rewardTotal ∧
      output.summary.validatorCount = p.validatorCount := by
  rw [StakingClaims.main, bind_eq_ok] at h
  obtain ⟨p, hp, h⟩ := h
  cases h
  exact ⟨p, collect_discover_ok hempty hp, rfl, rfl, rfl, rfl, rfl⟩

theorem zero_of_isZero {c : StakingClaims.Claim} (h : c.isZero = true) :
    c.active = 0 ∧ c.pendingUndelegation = 0 ∧ c.reward = 0 := by
  simpa [StakingClaims.Claim.isZero] using h

/-- The rows of an export add up to what the scan publishes. -/
theorem sumsAgree_of_ok (hempty : EmptyCodeUnique codec) {root : Hash} {threshold : Int}
    {requirePreimages : Bool} {snapshot : AccountSnapshot.Output} {staking : StakingClaims.Output}
    {discovered listed : ActualSupply.Totals}
    (hsnapshot : AccountSnapshot.main codec db trie root threshold requirePreimages = .ok snapshot)
    (hstaking : StakingClaims.main codec db trie root true = .ok staking)
    (hdiscovered : Scanned codec db trie discovered) (hlisted : Scanned codec db trie listed) :
    SumsAgree codec db trie snapshot staking discovered listed := by
  obtain ⟨hcsv, hliquid⟩ := SnapshotRows.main_ok hsnapshot
  obtain ⟨p, hp, hstakingCsv, hactive, hpending, hreward, hvalidators⟩ :=
    staking_main_ok hempty hstaking
  have hsumActive := sum_reportedClaims StakingClaims.Claim.active
    (fun c hc => (zero_of_isZero hc).1) p
  have hsumPending := sum_reportedClaims StakingClaims.Claim.pendingUndelegation
    (fun c hc => (zero_of_isZero hc).2.1) p
  have hsumReward := sum_reportedClaims StakingClaims.Claim.reward
    (fun c hc => (zero_of_isZero hc).2.2) p
  rw [hp.claimed.active, hp.active] at hsumActive
  rw [hp.claimed.pending, hp.pending] at hsumPending
  rw [hp.claimed.reward, hp.reward] at hsumReward
  rw [hp.active] at hactive
  rw [hp.pending] at hpending
  rw [hp.reward] at hreward
  constructor
  case liquid =>
    refine ⟨liquid codec trie, ?_, hdiscovered.liquid⟩
    rw [hcsv, csvSum_printed snapshotRow_balance, hliquid]
  case active =>
    refine ⟨_, ?_, hactive, hdiscovered.active⟩
    rw [hstakingCsv, csvSum_printed stakingRow_active, hsumActive]
  case undelegated =>
    refine ⟨_, ?_, hpending, hdiscovered.undelegated⟩
    rw [hstakingCsv, csvSum_printed stakingRow_pending, hsumPending]
  case reward =>
    refine ⟨_, ?_, hreward, hdiscovered.reward⟩
    rw [hstakingCsv, csvSum_printed stakingRow_reward, hsumReward]
  case validators => rw [hvalidators, hp.count, hdiscovered.validators]
  case discovered_once => exact hdiscovered.once
  case listed_once => exact hlisted.once
  case listed_liquid => rw [hlisted.liquid, hdiscovered.liquid]
  case listed_active => rw [hlisted.active, hdiscovered.active]
  case listed_undelegated => rw [hlisted.undelegated, hdiscovered.undelegated]
  case listed_reward => rw [hlisted.reward, hdiscovered.reward]
  case listed_claims => rw [hlisted.claims, hdiscovered.claims]
  case listed_validators => rw [hlisted.validators, hdiscovered.validators]

/-! ## The ledger of the exports -/

/-- A merge of the exported files. -/
def ledgerInputs (snapshot0 snapshot1 : AccountSnapshot.Output) (staking : StakingClaims.Output)
    (report : ReceiptReport) : InputFiles where
  shard0Liquid := dictRows snapshot0.csv
  shard1Liquid := dictRows snapshot1.csv
  staking := dictRows staking.csv
  receipts := report

/-- The ledger's liquid column of a shard is the shard's liquid balance. -/
theorem liquidColumn_eq {py : PyText} {root : Hash} {threshold : Int} {requirePreimages : Bool}
    {snapshot : AccountSnapshot.Output}
    (h : AccountSnapshot.main codec db trie root threshold requirePreimages = .ok snapshot)
    {l : List KeyedRow} (hl : KeyedAs py (dictRows snapshot.csv) l) :
    columnSum py "balance_atto" l = .ok (liquid codec trie) := by
  obtain ⟨hcsv, hliquid⟩ := SnapshotRows.main_ok h
  have hfields : l.map KeyedRow.fields =
      (trie.leaves.filterMap (rowAt codec db)).map snapshotRow := by
    rw [hl.fields, hcsv, dictRows, List.map_map]
    rfl
  rw [columnSum_printed hfields (fun e _ => snapshotRow_balance e) ?_, hliquid]
  intro row hrow
  obtain ⟨leaf, -, hat⟩ := List.mem_filterMap.mp hrow
  exact le_of_lt (rowAt_spec hat).2.2

theorem stakingColumns_eq {py : PyText} (hempty : EmptyCodeUnique codec) {root : Hash}
    {staking : StakingClaims.Output}
    (h : StakingClaims.main codec db trie root true = .ok staking) {l : List KeyedRow}
    (hl : KeyedAs py (dictRows staking.csv) l) :
    columnSum py "active_delegation_atto" l = .ok (active (wrappers codec db trie)) ∧
      columnSum py "pending_undelegation_atto" l = .ok (undelegated (wrappers codec db trie)) ∧
      columnSum py "unclaimed_reward_atto" l = .ok (reward (wrappers codec db trie)) := by
  obtain ⟨p, hp, hcsv, -⟩ := staking_main_ok hempty h
  have hfields : l.map KeyedRow.fields =
      (StakingClaims.reportedClaims p).map (stakingRow codec) := by
    rw [hl.fields, hcsv, dictRows, List.map_map]
    rfl
  have hnonneg : ∀ entry ∈ StakingClaims.reportedClaims p,
      0 ≤ entry.2.active ∧ 0 ≤ entry.2.pendingUndelegation ∧ 0 ≤ entry.2.reward :=
    fun entry hentry => hp.claimed.nonneg entry ((mem_reportedClaims_iff p entry).mp hentry).1
  refine ⟨?_, ?_, ?_⟩
  · rw [columnSum_printed hfields (fun e _ => stakingRow_active e) fun e he => (hnonneg e he).1,
      sum_reportedClaims StakingClaims.Claim.active fun c hc => (zero_of_isZero hc).1,
      hp.claimed.active, hp.active]
  · rw [columnSum_printed hfields (fun e _ => stakingRow_pending e) fun e he => (hnonneg e he).2.1,
      sum_reportedClaims StakingClaims.Claim.pendingUndelegation
        fun c hc => (zero_of_isZero hc).2.1,
      hp.claimed.pending, hp.pending]
  · rw [columnSum_printed hfields (fun e _ => stakingRow_reward e) fun e he => (hnonneg e he).2.2,
      sum_reportedClaims StakingClaims.Claim.reward
        fun c hc => (zero_of_isZero hc).2.2,
      hp.claimed.reward, hp.reward]

/-- The ledger's total is the scanned claims of shard 0, the liquid balance of
shard 1 and the report's pending amount. -/
theorem ledger_total (hempty : EmptyCodeUnique codec) {db0 db1 : Database} {trie0 trie1 : Trie}
    {root0 root1 : Hash} {threshold0 threshold1 : Int} {require0 require1 : Bool}
    {snapshot0 snapshot1 : AccountSnapshot.Output} {staking : StakingClaims.Output}
    (h0 : AccountSnapshot.main codec db0 trie0 root0 threshold0 require0 = .ok snapshot0)
    (h1 : AccountSnapshot.main codec db1 trie1 root1 threshold1 require1 = .ok snapshot1)
    (hs : StakingClaims.main codec db0 trie0 root0 true = .ok staking) {py : PyText}
    {files : Files} {args : Args} {report : ReceiptReport} {out : List LedgerRow}
    {summary : LedgerSummary}
    (hmerge : merge py files args (ledgerInputs snapshot0 snapshot1 staking report) =
      .ok (out, summary)) :
    ∃ pending, py.int report.pendingActiveAtto = some pending ∧
      summary.totalClaimAtto = toString (liquid codec trie0 +
        active (wrappers codec db0 trie0) + undelegated (wrappers codec db0 trie0) +
        reward (wrappers codec db0 trie0) + liquid codec trie1 + pending) := by
  obtain ⟨l0, l1, ls, cs, claims, hrun, hsummary⟩ := LedgerTotals.merge_ok hmerge
  have hledger := hrun.exactLedger hsummary
  have hliquid0 := hledger.liquidShard0
  have hliquid1 := hledger.liquidShard1
  have hactive := hledger.activeDelegation
  have hpending := hledger.pendingUndelegation
  have hreward := hledger.unclaimedReward
  obtain ⟨hcolumnActive, hcolumnPending, hcolumnReward⟩ :=
    stakingColumns_eq hempty hs hledger.staking
  rw [liquidColumn_eq h0 hledger.shard0, Except.ok.injEq] at hliquid0
  rw [liquidColumn_eq h1 hledger.shard1, Except.ok.injEq] at hliquid1
  rw [hcolumnActive, Except.ok.injEq] at hactive
  rw [hcolumnPending, Except.ok.injEq] at hpending
  rw [hcolumnReward, Except.ok.injEq] at hreward
  refine ⟨_, hledger.reported, ?_⟩
  rw [hledger.published.totalClaim, hledger.totalClaim, hliquid0, hliquid1, hactive, hpending,
    hreward]
  congr 1
  ring

/-- The independent sums agree: the exports of shard 0 add up to its scan, with
or without a validator list in any order, and the ledger's total is the scanned
claims of shard 0, the liquid balance of shard 1 and the pending receipts. -/
theorem independent_sums_agree (codec : StateCodec) (hempty : EmptyCodeUnique codec)
    (db0 db1 : Database) (trie0 trie1 : Trie) (root0 root1 : Hash) (threshold0 threshold1 : Int)
    (require0 require1 : Bool) (order0 order1 order2 : List Address → List Address)
    (horder0 : ∀ l, (order0 l).Perm l) (horder1 : ∀ l, (order1 l).Perm l)
    (horder2 : ∀ l, (order2 l).Perm l) (flags1 : ActualSupply.Flags)
    (hflags1 : flags1.validatorOnly = false) (snapshot0 snapshot1 : AccountSnapshot.Output)
    (staking : StakingClaims.Output) (discovered listed other : ActualSupply.Totals)
    (hsnapshot0 : AccountSnapshot.main codec db0 trie0 root0 threshold0 require0 = .ok snapshot0)
    (hsnapshot1 : AccountSnapshot.main codec db1 trie1 root1 threshold1 require1 = .ok snapshot1)
    (hstaking : StakingClaims.main codec db0 trie0 root0 true = .ok staking)
    (hdiscovered : ActualSupply.main codec db0 discoverFlags trie0 root0 order0 = .ok discovered)
    (hlisted : ActualSupply.main codec db0 listFlags trie0 root0 order1 = .ok listed)
    (hother : ActualSupply.main codec db1 flags1 trie1 root1 order2 = .ok other) :
    SumsAgree codec db0 trie0 snapshot0 staking discovered listed ∧
      ∀ py files args report out summary,
        merge py files args (ledgerInputs snapshot0 snapshot1 staking report) =
            .ok (out, summary) →
          ∃ claims0 liquid1 pending,
            discovered.accountAndStakingClaimsAtto = toString claims0 ∧
            other.liquidBalanceAtto = toString liquid1 ∧
            py.int report.pendingActiveAtto = some pending ∧
            summary.totalClaimAtto = toString (claims0 + liquid1 + pending) := by
  have hscanned := scanned_of_ok hempty rfl rfl horder0 hdiscovered
  have hscannedList := scanned_of_ok hempty rfl rfl horder1 hlisted
  refine ⟨sumsAgree_of_ok hempty hsnapshot0 hstaking hscanned hscannedList, ?_⟩
  intro py files args report out summary hmerge
  obtain ⟨pending, hpending, htotal⟩ :=
    ledger_total hempty hsnapshot0 hsnapshot1 hstaking hmerge
  exact ⟨_, _, pending, hscanned.claims,
    (ActualSupplyTotals.main_ok hempty horder2 hflags1 hother).1, hpending, htotal⟩

/-! ## A small state, as the chain stores it -/

def sampleAddress (b : UInt8) : Address := .fill 20 b

/-- Keccak-256 of three addresses. -/
def keyA : Hash where
  data :=
    [0x5a, 0xb9, 0xa7, 0x56, 0x47, 0x46, 0x3d, 0xb7, 0xd9, 0x26, 0x3b, 0xfd, 0xf0, 0xf9, 0xb4, 0x55,
     0xfd, 0x5a, 0x2f, 0xf8, 0x9f, 0x44, 0x6d, 0x3d, 0xfa, 0x3d, 0xfe, 0x67, 0xca, 0xe5, 0x64, 0x9d]
  size := rfl

def keyBytesB : Bytes :=
  [0xeb, 0x27, 0x9a, 0xac, 0x74, 0xf4, 0xf3, 0x34, 0x2e, 0xf7, 0x1c, 0xc0, 0xa5, 0x32, 0x1a, 0xa3,
   0x6b, 0x38, 0x3c, 0x52, 0x5c, 0x72, 0x60, 0xe7, 0x61, 0xee, 0x23, 0x29, 0x9c, 0x5f, 0x2f, 0x1f]

def keyB : Hash where
  data := keyBytesB
  size := rfl

def keyC : Hash where
  data :=
    [0xf0, 0x57, 0xb3, 0x9b, 0x04, 0x9c, 0x7d, 0xf5, 0xdf, 0xa8, 0x6c, 0x4b, 0x08, 0x69, 0xab, 0xe7,
     0x98, 0xce, 0xf0, 0x59, 0x57, 0x1a, 0x5a, 0x1e, 0x5b, 0xbf, 0x51, 0x68, 0xcf, 0x6c, 0x09, 0x7b]
  size := rfl

/-- Keccak-256 of the hexadecimal text of two of them. -/
def textA : Hash where
  data :=
    [0x4e, 0x58, 0x49, 0x50, 0xe7, 0x84, 0xa7, 0x5c, 0x4f, 0xaf, 0xe9, 0x8d, 0xd3, 0x42, 0xc0, 0xa0,
     0xb3, 0x2d, 0x62, 0xc3, 0x8a, 0x38, 0x47, 0x80, 0x90, 0x76, 0x28, 0x4a, 0x37, 0x1f, 0x99, 0x91]
  size := rfl

def textC : Hash where
  data :=
    [0xc1, 0x8a, 0x75, 0x60, 0xa9, 0xd8, 0x3c, 0x8b, 0xeb, 0xc3, 0xa7, 0x83, 0x5c, 0x39, 0xc9, 0x2c,
     0x77, 0x34, 0x60, 0x7a, 0x36, 0x2b, 0x91, 0xed, 0x2a, 0x31, 0x29, 0xfe, 0x89, 0xcd, 0x43, 0x92]
  size := rfl

def sampleValidatorBytes (b : UInt8) : Bytes :=
  [0xea, 0x94] ++ List.replicate 20 b ++ [0xc0, 0x80, 0x80, 0x80, 0x80, 0xc8, 0xc6, 0xc1, 0x80,
    0xc1, 0x80, 0xc1, 0x80, 0x80, 0xc5, 0x80, 0x80, 0x80, 0x80, 0x80, 0x80]

/-- A listed validator who delegates 10, is owed 1 and undelegates 2. -/
def wrapperA : ValidatorWrapper where
  address := sampleAddress 0xaa
  delegations := [⟨sampleAddress 0xaa, some 10, some 1, [⟨some 2, some 1⟩]⟩]
  blockReward := some 9

def wrapperBytesA : Bytes :=
  [0xf8, 0x4c] ++ sampleValidatorBytes 0xaa ++ [0xdc, 0xdb, 0x94] ++ List.replicate 20 0xaa ++
    [0x0a, 0x01, 0xc3, 0xc2, 0x02, 0x01, 0xc2, 0x80, 0x80, 0x09]

/-- A validator that is not listed; its own delegation is empty. -/
def wrapperC : ValidatorWrapper where
  address := sampleAddress 0xcc
  delegations := [⟨sampleAddress 0xaa, some 20, some 0, []⟩,
    ⟨sampleAddress 0xcc, some 0, some 0, []⟩]
  blockReward := some 0

def wrapperBytesC : Bytes :=
  [0xf8, 0x62] ++ sampleValidatorBytes 0xcc ++ [0xf2, 0xd8, 0x94] ++ List.replicate 20 0xaa ++
    [0x14, 0x80, 0xc0, 0xd8, 0x94] ++ List.replicate 20 0xcc ++
    [0x80, 0x80, 0xc0, 0xc2, 0x80, 0x80, 0x80]

def codeHashA : Hash where
  data :=
    [0x86, 0xd7, 0x0b, 0x0f, 0xb4, 0x05, 0xec, 0x57, 0x5b, 0xa8, 0xf5, 0x1c, 0x2e, 0x60, 0x00, 0x0d,
     0x12, 0x5c, 0x02, 0x1e, 0x84, 0xcf, 0x19, 0x78, 0x11, 0x5f, 0x0a, 0x3e, 0xb4, 0x44, 0x53, 0x16]
  size := rfl

def codeHashC : Hash where
  data :=
    [0x7b, 0x86, 0xd7, 0xf3, 0x90, 0xf4, 0x6b, 0x47, 0xfc, 0x0a, 0x05, 0xb5, 0x64, 0xad, 0x7e, 0x50,
     0x6e, 0x3d, 0x34, 0x2d, 0xb6, 0x95, 0x62, 0x7f, 0x2e, 0x23, 0x75, 0x0c, 0xac, 0xe7, 0x3d, 0xd8]
  size := rfl

/-- An account as RLP encodes it; a zero nonce or balance is the byte `0x80`. -/
def accountBytes (nonce balance : UInt8) (codeHash : Hash) : Bytes :=
  [0xf8, 0x44, nonce, balance, 0xa0,
    0x56, 0xe8, 0x1f, 0x17, 0x1b, 0xcc, 0x55, 0xa6, 0xff, 0x83, 0x45, 0xe6, 0x92, 0xc0, 0xf8, 0x6e,
    0x5b, 0x48, 0xe0, 0x1b, 0x99, 0x6c, 0xad, 0xc0, 0x01, 0x62, 0x2f, 0xb5, 0xe3, 0x63, 0xb4, 0x21,
    0xa0] ++ codeHash.data

def sampleStateCodec : StateCodec :=
  .ofTables
    [(List.replicate 20 0xaa, keyA), (List.replicate 20 0xbb, keyB), (List.replicate 20 0xcc, keyC),
      (List.replicate 40 0x61, textA), (List.replicate 40 0x63, textC),
      (wrapperBytesA, codeHashA), (wrapperBytesC, codeHashC)]
    [(accountBytes 1 7 codeHashA, ⟨1, some 7, codeHashA.data⟩),
      (accountBytes 0x80 5 emptyCodeHash, ⟨0, some 5, emptyCodeHash.data⟩),
      (accountBytes 2 0x80 codeHashC, ⟨2, some 0, codeHashC.data⟩),
      (accountBytes 0x80 2 emptyCodeHash, ⟨0, some 2, emptyCodeHash.data⟩)]
    [(wrapperBytesA, wrapperA), (wrapperBytesC, wrapperC)]
    [([0xd5, 0x94] ++ List.replicate 20 0xaa, [sampleAddress 0xaa])]

def sampleRoot0 : Hash where
  data :=
    [0x64, 0x76, 0x9e, 0xd5, 0x7e, 0x7a, 0xce, 0x89, 0x2e, 0x8b, 0x8d, 0x71, 0xb6, 0xba, 0xeb, 0xe7,
     0x7c, 0x11, 0xea, 0x32, 0x7e, 0x3d, 0x3e, 0x66, 0x04, 0x65, 0x91, 0x09, 0xd9, 0xe9, 0x16, 0x76]
  size := rfl

def sampleRoot1 : Hash where
  data :=
    [0x81, 0x63, 0xf2, 0x10, 0x0e, 0x8d, 0x79, 0x1c, 0x97, 0xc2, 0x90, 0xc2, 0x85, 0x2b, 0x94, 0x15,
     0x05, 0x77, 0xe6, 0x32, 0x61, 0x7c, 0x96, 0x7b, 0xfe, 0x26, 0x67, 0x88, 0xac, 0xa8, 0x6a, 0x4e]
  size := rfl

def sampleTrie0 : Trie :=
  .full sampleRoot0 [(keyA, accountBytes 1 7 codeHashA), (keyB, accountBytes 0x80 5 emptyCodeHash),
    (keyC, accountBytes 2 0x80 codeHashC)] (by decide)

def sampleTrie1 : Trie :=
  .full sampleRoot1 [(keyB, accountBytes 0x80 2 emptyCodeHash)] (by decide)

/-- Validator code, one of it without the prefix, the preimage of one key and the list. -/
def sampleStateDB : Database :=
  (Store.empty.write [(ascii ['v', 'c'] ++ codeHashA.data, wrapperBytesA),
    (codeHashC.data, wrapperBytesC), (preimagePrefix ++ keyA.data, List.replicate 20 0xaa),
    (validatorListKey, [0xd5, 0x94] ++ List.replicate 20 0xaa)]).database

/-- A pending receipt of 3 for the first address. -/
def sampleReport : ReceiptReport where
  directions := [⟨some [⟨some [[("secure_key", some (prefixedHex keyA.data)),
    ("to", some (prefixedHex (sampleAddress 0xaa).data)), ("amount_atto", some "3")]]⟩]⟩]
  pendingActiveAtto := "3"
  unsupportedPendingAtto := "0"

/-- The exports of both sample states, and the ledger made from them. -/
def sampleLedger : Except String (Except PyError (List LedgerRow × LedgerSummary)) := do
  let snapshot0 ←
    AccountSnapshot.main sampleStateCodec sampleStateDB sampleTrie0 sampleRoot0 1 true
  let snapshot1 ←
    AccountSnapshot.main sampleStateCodec Store.empty.database sampleTrie1 sampleRoot1 1 false
  let staking ← StakingClaims.main sampleStateCodec sampleStateDB sampleTrie0 sampleRoot0 true
  .ok (merge PyText.ascii sampleFiles sampleArgs
    (ledgerInputs snapshot0 snapshot1 staking sampleReport))

theorem sampleLedger_ok : ∃ merged, sampleLedger = .ok (.ok merged) := by
  have hmerged : (sampleLedger.toOption.bind Except.toOption).isSome = true := by decide +kernel
  cases hledger : sampleLedger with
  | error err =>
    rw [hledger] at hmerged
    cases hmerged
  | ok result =>
    rw [hledger] at hmerged
    cases result with
    | error err => cases hmerged
    | ok merged => exact ⟨merged, rfl⟩

theorem independent_sums_agree_sample :
    ∃ (snapshot0 snapshot1 : AccountSnapshot.Output) (staking : StakingClaims.Output)
      (discovered listed other : ActualSupply.Totals) (out : List LedgerRow)
      (summary : LedgerSummary),
      merge PyText.ascii sampleFiles sampleArgs
          (ledgerInputs snapshot0 snapshot1 staking sampleReport) = .ok (out, summary) ∧
        SumsAgree sampleStateCodec sampleStateDB sampleTrie0 snapshot0 staking discovered listed ∧
        ∃ claims0 liquid1 pending,
          discovered.accountAndStakingClaimsAtto = toString claims0 ∧
          other.liquidBalanceAtto = toString liquid1 ∧
          PyText.ascii.int sampleReport.pendingActiveAtto = some pending ∧
          summary.totalClaimAtto = toString (claims0 + liquid1 + pending) := by
  obtain ⟨⟨out, summary⟩, hledger⟩ := sampleLedger_ok
  simp only [sampleLedger, bind_eq_ok] at hledger
  obtain ⟨snapshot0, h0, snapshot1, h1, staking, hs, hmerge⟩ := hledger
  rw [Except.ok.injEq] at hmerge
  obtain ⟨discovered, hdiscovered⟩ := exists_of_isOk
    (show (ActualSupply.main sampleStateCodec sampleStateDB discoverFlags sampleTrie0 sampleRoot0
      id).isOk = true by decide +kernel)
  obtain ⟨listed, hlisted⟩ := exists_of_isOk
    (show (ActualSupply.main sampleStateCodec sampleStateDB listFlags sampleTrie0 sampleRoot0
      List.reverse).isOk = true by decide +kernel)
  obtain ⟨other, hother⟩ := exists_of_isOk
    (show (ActualSupply.main sampleStateCodec Store.empty.database ⟨false, false, false⟩
      sampleTrie1 sampleRoot1 id).isOk = true by decide +kernel)
  obtain ⟨hsums, htotal⟩ := independent_sums_agree sampleStateCodec
    (emptyCodeUnique_ofTables (by decide +kernel)) sampleStateDB Store.empty.database sampleTrie0
    sampleTrie1 sampleRoot0 sampleRoot1 1 1 true false id List.reverse id List.Perm.refl
    List.reverse_perm List.Perm.refl ⟨false, false, false⟩ rfl snapshot0 snapshot1 staking
    discovered listed other h0 h1 hs hdiscovered hlisted hother
  exact ⟨snapshot0, snapshot1, staking, discovered, listed, other, out, summary, hmerge, hsums,
    htotal _ _ _ _ _ _ hmerge⟩

end IndependentSums
