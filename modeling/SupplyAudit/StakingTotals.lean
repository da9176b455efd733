import Mathlib.Data.List.Nodup
import SupplyAudit.StakingClaims
import SupplyAudit.WrapperTotals

/-!
# The staking claims hold what the wrappers hold

Every amount of a wrapper is added to one delegator's claim and to one total, so
the claims together are the totals. Dropping the delegators who hold nothing
does not change a column's sum.
-/

namespace StakingTotals

open ByteWords ReceiptKeys ChainDatabase FallibleScan KeyedTable StateTrie WrapperTotals
  StakingClaims

variable {codec : StateCodec} {db : Database}

/-- The claims are keyed by their own addresses and add up to the totals. -/
structure Claimed (codec : StateCodec) (p : Progress) : Prop where
  nodup : (p.claims.map Prod.fst).Nodup
  named : ∀ entry ∈ p.claims, entry.1 = codec.keccak256 entry.2.address.data
  nonneg : ∀ entry ∈ p.claims,
    0 ≤ entry.2.active ∧ 0 ≤ entry.2.pendingUndelegation ∧ 0 ≤ entry.2.reward
  active : total Claim.active p.claims = p.activeTotal
  pending : total Claim.pendingUndelegation p.claims = p.pendingTotal
  reward : total Claim.reward p.claims = p.rewardTotal

theorem Claimed.start : Claimed codec {} :=
  ⟨List.nodup_nil, nofun, nofun, rfl, rfl, rfl⟩

/-- The entry of a delegator, before it is changed. -/
theorem Claimed.entry {p : Progress} (h : Claimed codec p) (delegator : Address) :
    codec.keccak256 delegator.data = codec.keccak256
        ((p.claims.lookup (codec.keccak256 delegator.data)).getD ⟨delegator, 0, 0, 0⟩).address.data ∧
      let entry := (p.claims.lookup (codec.keccak256 delegator.data)).getD ⟨delegator, 0, 0, 0⟩
      0 ≤ entry.active ∧ 0 ≤ entry.pendingUndelegation ∧ 0 ≤ entry.reward := by
  cases hfound : p.claims.lookup (codec.keccak256 delegator.data) with
  | none => exact ⟨rfl, le_refl 0, le_refl 0, le_refl 0⟩
  | some entry =>
    have hmem := mem_of_lookup hfound
    exact ⟨h.named _ hmem, h.nonneg _ hmem⟩

/-- Adding to one delegator's claim and to the totals alike. -/
theorem Claimed.update {p q : Progress} (hp : Claimed codec p) (delegator : Address) {a u r : Int}
    (ha : 0 ≤ a) (hu : 0 ≤ u) (hr : 0 ≤ r)
    (hclaims :
      let entry := (p.claims.lookup (codec.keccak256 delegator.data)).getD ⟨delegator, 0, 0, 0⟩
      q.claims = set p.claims (codec.keccak256 delegator.data)
        ⟨entry.address, entry.active + a, entry.pendingUndelegation + u, entry.reward + r⟩)
    (hactive : q.activeTotal = p.activeTotal + a) (hpending : q.pendingTotal = p.pendingTotal + u)
    (hreward : q.rewardTotal = p.rewardTotal + r) : Claimed codec q := by
  obtain ⟨hnamed, hactive0, hpending0, hreward0⟩ := hp.entry delegator
  dsimp only at hclaims
  constructor
  case nodup =>
    rw [hclaims]
    exact nodup_set hp.nodup _ _
  case named =>
    rw [hclaims]
    exact forall_set hp.named hnamed
  case nonneg =>
    rw [hclaims]
    exact forall_set hp.nonneg ⟨Int.add_nonneg hactive0 ha, Int.add_nonneg hpending0 hu,
      Int.add_nonneg hreward0 hr⟩
  case active =>
    rw [hclaims, hactive, ← hp.active]
    exact total_update hp.nodup ⟨delegator, 0, 0, 0⟩ rfl rfl
  case pending =>
    rw [hclaims, hpending, ← hp.pending]
    exact total_update hp.nodup ⟨delegator, 0, 0, 0⟩ rfl rfl
  case reward =>
    rw [hclaims, hreward, ← hp.reward]
    exact total_update hp.nodup ⟨delegator, 0, 0, 0⟩ rfl rfl

/-- What processing a wrapper's delegations leaves as it was. -/
structure SameSeen (p p' : Progress) : Prop where
  seen : p'.seenValidators = p.seenValidators
  count : p'.validatorCount = p.validatorCount

theorem addUndelegation_ok {validator delegator : Address} {u : Undelegation} {p p' : Progress}
    (hp : Claimed codec p)
    (h : addUndelegation codec validator delegator (codec.keccak256 delegator.data) p u = .ok p') :
    Claimed codec p' ∧ SameSeen p p' ∧ p'.activeTotal = p.activeTotal ∧
      p'.pendingTotal = p.pendingTotal + amountOf u.amount ∧ p'.rewardTotal = p.rewardTotal := by
  simp only [addUndelegation, bind_eq_ok] at h
  obtain ⟨amount, hamount, h⟩ := h
  obtain ⟨hvalue, hnonneg⟩ := requireNonNegative_ok hamount
  split at h
  · cases h
  · split at h
    · cases h
    · cases h
      refine ⟨hp.update delegator (le_refl 0) hnonneg (le_refl 0) ?_
        (add_zero _).symm rfl (add_zero _).symm, ⟨rfl, rfl⟩, rfl, ?_, rfl⟩
      · simp
      · rw [hvalue]
        rfl

theorem foldlM_addUndelegation {validator delegator : Address} {us : List Undelegation}
    {p p' : Progress} (hp : Claimed codec p)
    (h : us.foldlM (addUndelegation codec validator delegator (codec.keccak256 delegator.data)) p =
      .ok p') :
    Claimed codec p' ∧ SameSeen p p' ∧ p'.activeTotal = p.activeTotal ∧
      p'.pendingTotal = p.pendingTotal + pendingOf us ∧ p'.rewardTotal = p.rewardTotal := by
  induction us generalizing p with
  | nil =>
    cases h
    exact ⟨hp, ⟨rfl, rfl⟩, rfl, (add_zero _).symm, rfl⟩
  | cons u us ih =>
    rw [List.foldlM_cons, bind_eq_ok] at h
    obtain ⟨next, hstep, hrest⟩ := h
    obtain ⟨hnext, hseen, hactive, hpending, hreward⟩ := addUndelegation_ok hp hstep
    obtain ⟨hlast, hseen', hactive', hpending', hreward'⟩ := ih hnext hrest
    refine ⟨hlast, ⟨hseen'.seen.trans hseen.seen, hseen'.count.trans hseen.count⟩,
      hactive'.trans hactive, ?_, hreward'.trans hreward⟩
    simp only [hpending', hpending, pendingOf, List.map_cons, List.sum_cons, add_assoc]

theorem addDelegation_ok {validator : Address} {d : Delegation} {acc acc' : List Address × Progress}
    (hp : Claimed codec acc.2) (h : addDelegation codec validator acc d = .ok acc') :
    Claimed codec acc'.2 ∧ SameSeen acc.2 acc'.2 ∧
      acc'.2.activeTotal = acc.2.activeTotal + amountOf d.amount ∧
      acc'.2.pendingTotal = acc.2.pendingTotal + pendingOf d.undelegations ∧
      acc'.2.rewardTotal = acc.2.rewardTotal + amountOf d.reward := by
  rw [addDelegation] at h
  split at h
  · cases h
  simp only [bind_eq_ok] at h
  obtain ⟨amount, hamount, reward, hreward, h⟩ := h
  obtain ⟨hamountValue, hamountNonneg⟩ := requireNonNegative_ok hamount
  obtain ⟨hrewardValue, hrewardNonneg⟩ := requireNonNegative_ok hreward
  split at h
  · cases h
  simp only [bind_eq_ok] at h
  obtain ⟨p', hrun, h⟩ := h
  cases h
  obtain ⟨hlast, hseen, hactive, hpending, hrewardTotal⟩ := foldlM_addUndelegation
    (hp.update d.delegatorAddress hamountNonneg (le_refl 0) hrewardNonneg (by simp)
      (by rfl) (by simp) (by rfl)) hrun
  rw [hamountValue, hrewardValue]
  exact ⟨hlast, ⟨hseen.seen, hseen.count⟩, hactive, hpending, hrewardTotal⟩

theorem foldlM_addDelegation {validator : Address} {ds : List Delegation}
    {acc acc' : List Address × Progress} (hp : Claimed codec acc.2)
    (h : ds.foldlM (addDelegation codec validator) acc = .ok acc') :
    Claimed codec acc'.2 ∧ SameSeen acc.2 acc'.2 ∧
      acc'.2.activeTotal = acc.2.activeTotal + activeOf ds ∧
      acc'.2.pendingTotal = acc.2.pendingTotal + undelegatedOf ds ∧
      acc'.2.rewardTotal = acc.2.rewardTotal + rewardOf ds := by
  induction ds generalizing acc with
  | nil =>
    cases h
    exact ⟨hp, ⟨rfl, rfl⟩, (add_zero _).symm, (add_zero _).symm, (add_zero _).symm⟩
  | cons d ds ih =>
    rw [List.foldlM_cons, bind_eq_ok] at h
    obtain ⟨next, hstep, hrest⟩ := h
    obtain ⟨hnext, hseen, hactive, hpending, hreward⟩ := addDelegation_ok hp hstep
    obtain ⟨hlast, hseen', hactive', hpending', hreward'⟩ := ih hnext hrest
    refine ⟨hlast, ⟨hseen'.seen.trans hseen.seen, hseen'.count.trans hseen.count⟩, ?_, ?_, ?_⟩
    · simp only [hactive', hactive, activeOf, List.map_cons, List.sum_cons, add_assoc]
    · simp only [hpending', hpending, undelegatedOf, List.map_cons, List.sum_cons, add_assoc]
    · simp only [hreward', hreward, rewardOf, List.map_cons, List.sum_cons, add_assoc]

/-- What a run knows after it has processed these wrappers. -/
structure Held (codec : StateCodec) (p : Progress) (ws : List ValidatorWrapper) : Prop where
  claimed : Claimed codec p
  nodup : (ws.map ValidatorWrapper.address).Nodup
  seen : ∀ a, a ∈ p.seenValidators ↔ a ∈ ws.map ValidatorWrapper.address
  count : p.validatorCount = ws.length
  active : p.activeTotal = active ws
  pending : p.pendingTotal = undelegated ws
  reward : p.rewardTotal = reward ws

theorem Held.start : Held codec {} [] :=
  ⟨Claimed.start, List.nodup_nil, fun _ => Iff.rfl, rfl, rfl, rfl, rfl⟩

/-- `processValidator` takes in the account's wrapper, if its code is one. -/
theorem processValidator_ok {secureKey codeHash : Hash} {code : Bytes × Bool} {p p' : Progress}
    {ws : List ValidatorWrapper} {valid : Bool} (hp : Held codec p ws)
    (h : processValidator codec secureKey codeHash code p = .ok (valid, p')) :
    Held codec p' (ws ++ (wrapperIn codec secureKey codeHash code.1).toList) ∧
      valid = (wrapperIn codec secureKey codeHash code.1).isSome := by
  obtain ⟨encoded, isPrefixed⟩ := code
  have hskip : ∀ {err : String} {w : Option ValidatorWrapper},
      (if isPrefixed then Except.error err else Except.ok (false, p)) = .ok (valid, p') →
      w = none → Held codec p' (ws ++ w.toList) ∧ valid = w.isSome := by
    rintro err w hif rfl
    split at hif
    · cases hif
    · cases hif
      exact ⟨by rwa [Option.toList_none, List.append_nil], rfl⟩
  simp only [processValidator] at h
  by_cases hcode : encoded.length = 0 ∨ codec.keccak256 encoded ≠ codeHash
  · rw [if_pos hcode] at h
    rw [wrapperIn, if_pos hcode]
    exact hskip h rfl
  · rw [if_neg hcode] at h
    rw [wrapperIn, if_neg hcode]
    cases hdecode : codec.decodeWrapper encoded with
    | error err =>
      rw [hdecode] at h
      exact hskip h rfl
    | ok wrapper =>
      simp only [hdecode] at h
      by_cases hkey : codec.keccak256 wrapper.address.data = secureKey
      · simp only [if_neg (not_not.mpr hkey)] at h ⊢
        split at h
        · cases h
        · rename_i hnew
          simp only [bind_eq_ok] at h
          obtain ⟨⟨seen, q⟩, hrun, h⟩ := h
          cases h
          obtain ⟨hclaimed, hseen, hactive, hpending, hreward⟩ := foldlM_addDelegation
            ⟨hp.claimed.nodup, hp.claimed.named, hp.claimed.nonneg, hp.claimed.active,
              hp.claimed.pending, hp.claimed.reward⟩ hrun
          rw [hp.seen] at hnew
          refine ⟨⟨hclaimed, ?_, ?_, ?_, ?_, ?_, ?_⟩, rfl⟩
          · exact nodup_addresses_concat hp.nodup hnew
          · intro a
            rw [hseen.seen, List.mem_cons, hp.seen, Option.toList_some, mem_addresses_concat]
          · rw [hseen.count]
            simp [hp.count]
          · rw [hactive]
            simp [hp.active, active]
          · rw [hpending]
            simp [hp.pending, undelegated]
          · rw [hreward]
            simp [hp.reward, reward]
      · simp only [if_pos hkey] at h ⊢
        exact hskip h rfl

/-! ## Whole runs -/

theorem discoverLeaf_ok (hempty : EmptyCodeUnique codec) {leaf : Hash × Bytes} {p p' : Progress}
    {ws : List ValidatorWrapper} (hp : Held codec p ws)
    (h : discoverLeaf codec db p leaf = .ok p') :
    Held codec p' (ws ++ (wrapperAt codec db leaf).toList) := by
  simp only [discoverLeaf, bind_eq_ok] at h
  obtain ⟨account, haccount, h⟩ := h
  have hat : wrapperAt codec db leaf = accountWrapper codec db leaf.1 account := by
    rw [wrapperAt, decodedAccount_ok haccount]
  split at h
  · rename_i hcodeHash
    cases h
    rw [hat, accountWrapper_empty hempty hcodeHash, Option.toList_none, List.append_nil]
    exact hp
  · split at h
    · rw [bind_eq_ok] at h
      obtain ⟨⟨valid, q⟩, hstep, h⟩ := h
      cases h
      rw [hat]
      exact (processValidator_ok hp hstep).1
    · rename_i hcode
      cases h
      rw [hat, accountWrapper_no_code (not_not.mp hcode), Option.toList_none, List.append_nil]
      exact hp

theorem listedValidator_ok {trie : Trie} {address : Address} {p p' : Progress}
    {ws : List ValidatorWrapper} (hp : Held codec p ws)
    (h : listedValidator codec db trie p address = .ok p') : ∃ w, Held codec p' (ws ++ [w]) := by
  rw [listedValidator] at h
  split at h
  · cases h
  · cases h
  · dsimp only at h
    split at h
    · cases h
    · rw [bind_eq_ok] at h
      obtain ⟨⟨valid, q⟩, hstep, h⟩ := h
      obtain ⟨hheld, hvalid⟩ := processValidator_ok hp hstep
      dsimp only at h
      split at h
      · rename_i htrue
        cases h
        rw [htrue] at hvalid
        obtain ⟨w, hw⟩ := Option.isSome_iff_exists.mp hvalid.symm
        rw [hw] at hheld
        exact ⟨w, hheld⟩
      · cases h

/-- In discovery mode a run has processed every wrapper of the state once. -/
theorem collect_discover_ok (hempty : EmptyCodeUnique codec) {trie : Trie} {p : Progress}
    (h : collect codec db trie true = .ok p) : Held codec p (wrappers codec db trie) := by
  simp only [collect, if_true, bind_eq_ok] at h
  obtain ⟨q, hrun, h⟩ := h
  split at h
  · cases h
  · cases h
    refine foldlM_invariant (fun done p =>
      Held codec p (done.filterMap (wrapperAt codec db))) ?_ [] Held.start hrun
    intro done p leaf p' hp hstep
    rw [filterMap_concat]
    exact discoverLeaf_ok hempty hp hstep

/-- One leaf keeps the claims and the totals in agreement. -/
theorem Held.discoverLeaf {leaf : Hash × Bytes} {p p' : Progress} {ws : List ValidatorWrapper}
    (hp : Held codec p ws) (h : discoverLeaf codec db p leaf = .ok p') :
    ∃ ws', Held codec p' ws' := by
  simp only [StakingClaims.discoverLeaf, bind_eq_ok] at h
  obtain ⟨account, -, h⟩ := h
  split at h
  · cases h
    exact ⟨ws, hp⟩
  · split at h
    · rw [bind_eq_ok] at h
      obtain ⟨⟨valid, q⟩, hstep, h⟩ := h
      cases h
      exact ⟨_, (processValidator_ok hp hstep).1⟩
    · cases h
      exact ⟨ws, hp⟩

/-- In either mode the claims and the totals agree. -/
theorem collect_ok {trie : Trie} {discover : Bool} {p : Progress}
    (h : collect codec db trie discover = .ok p) : ∃ ws, Held codec p ws := by
  cases discover with
  | true =>
    simp only [collect, if_true, bind_eq_ok] at h
    obtain ⟨q, hrun, h⟩ := h
    split at h
    · cases h
    · cases h
      refine foldlM_invariant (fun _ p => ∃ ws, Held codec p ws) ?_ [] ⟨[], Held.start⟩ hrun
      rintro done p leaf p' ⟨ws, hp⟩ hstep
      exact hp.discoverLeaf hstep
  | false =>
    simp only [collect, Bool.false_eq_true, if_false, bind_eq_ok] at h
    obtain ⟨listed, -, hrun⟩ := h
    refine foldlM_invariant (fun _ p => ∃ ws, Held codec p ws) ?_ [] ⟨[], Held.start⟩ hrun
    rintro done p address p' ⟨ws, hp⟩ hstep
    obtain ⟨w, hw⟩ := listedValidator_ok hp hstep
    exact ⟨ws ++ [w], hw⟩

/-! ## The reported rows -/

theorem bytesCompare_neg_iff {as bs : Bytes} (h : as.length = bs.length) :
    bytesCompare as bs < 0 ↔ as < bs := by
  induction as generalizing bs with
  | nil =>
    cases bs with
    | nil => simp [bytesCompare]
    | cons b bs => cases h
  | cons a as ih =>
    cases bs with
    | nil => cases h
    | cons b bs =>
      have hlen : as.length = bs.length := by simpa using h
      rw [bytesCompare, List.cons_lt_cons_iff]
      by_cases hlt : a < b
      · simp [hlt]
      · rw [if_neg hlt]
        by_cases hgt : b < a
        · have hne : a ≠ b := by
            rintro rfl
            exact hlt hgt
          simp [hlt, hgt, hne]
        · have heq : a = b := by
            rcases Std.lt_trichotomy a b with h1 | h1 | h1
            · exact absurd h1 hlt
            · exact h1
            · exact absurd h1 hgt
          rw [if_neg hgt, ih hlen]
          simp [heq]

/-- The order that the claims are sorted by. -/
theorem claimOrder_iff (a b : Hash × Claim) :
    ¬ bytesCompare b.1.data a.1.data < 0 ↔ a.1.data ≤ b.1.data := by
  rw [bytesCompare_neg_iff (b.1.size.trans a.1.size.symm)]
  exact Std.not_lt

instance claimOrder_total :
    Std.Total fun a b : Hash × Claim => ¬ bytesCompare b.1.data a.1.data < 0 where
  total a b := by
    rw [claimOrder_iff, claimOrder_iff]
    exact Std.le_total

instance claimOrder_trans :
    IsTrans (Hash × Claim) fun a b => ¬ bytesCompare b.1.data a.1.data < 0 where
  trans a b c hab hbc := by
    rw [claimOrder_iff] at hab hbc ⊢
    exact Std.le_trans hab hbc

theorem reportedClaims_perm (p : Progress) :
    (reportedClaims p).Perm (p.claims.filter fun entry => !entry.2.isZero) :=
  List.perm_insertionSort _ _

theorem mem_reportedClaims_iff (p : Progress) (entry : Hash × Claim) :
    entry ∈ reportedClaims p ↔ entry ∈ p.claims ∧ entry.2.isZero = false := by
  rw [(reportedClaims_perm p).mem_iff, List.mem_filter, Bool.not_eq_true']

/-- The reported keys strictly increase. -/
theorem reportedClaims_increasing {p : Progress} (hp : Claimed codec p) :
    (reportedClaims p).Pairwise fun a b => a.1.data < b.1.data := by
  have hsorted : (reportedClaims p).Pairwise fun a b => a.1.data ≤ b.1.data :=
    (List.pairwise_insertionSort _ _).imp fun h => (claimOrder_iff _ _).mp h
  have hnodup : ((reportedClaims p).map Prod.fst).Nodup := by
    rw [((reportedClaims_perm p).map Prod.fst).nodup_iff]
    exact hp.nodup.sublist (List.filter_sublist.map Prod.fst)
  rw [List.Nodup, List.pairwise_map] at hnodup
  refine (hsorted.and hnodup).imp ?_
  rintro a b ⟨hle, hne⟩
  refine Std.lt_of_le_of_ne hle fun heq => ?_
  exact hne (FixedBytes.ext heq)

/-- A column of the reported claims adds up to the column of all claims. -/
theorem sum_reportedClaims (share : Claim → Int)
    (hzero : ∀ c, c.isZero = true → share c = 0)
    (p : Progress) :
    ((reportedClaims p).map fun entry => share entry.2).sum = total share p.claims := by
  rw [((reportedClaims_perm p).map _).sum_eq, total]
  apply sum_map_filter
  intro entry _ hdropped
  apply hzero
  simpa using hdropped

end StakingTotals
