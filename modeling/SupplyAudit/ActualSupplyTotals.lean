import Mathlib.Data.List.Nodup
import SupplyAudit.ActualSupply
import SupplyAudit.KeyedTable
import SupplyAudit.WrapperTotals

/-!
# The independent sum counts every wrapper once

Reading a wrapper adds exactly what it holds, and never twice. In discovery mode
the wrappers are met in key order; with a list the listed ones come first and
their keys are skipped afterwards, which is the same wrappers in another order.
-/

namespace ActualSupplyTotals

open ByteWords ReceiptKeys ChainDatabase FallibleScan StateTrie WrapperTotals ActualSupply

variable {codec : StateCodec} {db : Database}

theorem foldlM_addUndelegation {validator delegator : Address} {us : List Undelegation}
    {sum sum' : Accumulator}
    (h : us.foldlM (addUndelegation codec validator delegator) sum = .ok sum') :
    sum' = { sum with
      undelegationEntryCount := sum.undelegationEntryCount + us.length
      pendingUndelegation := sum.pendingUndelegation + pendingOf us } := by
  induction us generalizing sum with
  | nil =>
    cases h
    simp [pendingOf]
  | cons u us ih =>
    rw [List.foldlM_cons, bind_eq_ok] at h
    obtain ⟨next, hstep, hrest⟩ := h
    simp only [addUndelegation, bind_eq_ok] at hstep
    obtain ⟨amount, hamount, hstep⟩ := hstep
    have hvalue := (requireNonNegative_ok hamount).1
    split at hstep
    · cases hstep
    · split at hstep
      · cases hstep
      · cases hstep
        rw [ih hrest]
        simp only [pendingOf, List.map_cons, List.sum_cons, hvalue, amountOf, Option.getD_some,
          List.length_cons, Accumulator.mk.injEq, true_and, and_true]
        omega

/-- One delegation adds its amount, its reward and its undelegations. -/
theorem addDelegation_ok {validator : Address} {d : Delegation} {sum sum' : Accumulator}
    (h : addDelegation codec validator sum d = .ok sum') :
    sum' = { sum with
      delegationCount := sum.delegationCount + 1
      undelegationEntryCount := sum.undelegationEntryCount + d.undelegations.length
      activeDelegation := sum.activeDelegation + amountOf d.amount
      pendingUndelegation := sum.pendingUndelegation + pendingOf d.undelegations
      unclaimedDelegationReward := sum.unclaimedDelegationReward + amountOf d.reward } := by
  simp only [addDelegation, bind_eq_ok] at h
  obtain ⟨amount, hamount, reward, hreward, h⟩ := h
  rw [foldlM_addUndelegation h, (requireNonNegative_ok hamount).1,
    (requireNonNegative_ok hreward).1]
  rfl

theorem foldlM_addDelegation {validator : Address} {ds : List Delegation}
    {sum sum' : Accumulator} (h : ds.foldlM (addDelegation codec validator) sum = .ok sum') :
    sum' = { sum with
      delegationCount := sum.delegationCount + ds.length
      undelegationEntryCount :=
        sum.undelegationEntryCount + (ds.map fun d => d.undelegations.length).sum
      activeDelegation := sum.activeDelegation + activeOf ds
      pendingUndelegation := sum.pendingUndelegation + undelegatedOf ds
      unclaimedDelegationReward := sum.unclaimedDelegationReward + rewardOf ds } := by
  induction ds generalizing sum with
  | nil =>
    cases h
    simp [activeOf, undelegatedOf, rewardOf]
  | cons d ds ih =>
    rw [List.foldlM_cons, bind_eq_ok] at h
    obtain ⟨next, hstep, hrest⟩ := h
    rw [ih hrest, addDelegation_ok hstep]
    simp only [activeOf, undelegatedOf, rewardOf, List.map_cons, List.sum_cons, List.length_cons,
      Accumulator.mk.injEq, true_and, and_true]
    omega

/-- What a run knows after it has added these wrappers. -/
structure Credited (sum : Accumulator) (ws : List ValidatorWrapper) : Prop where
  nodup : (ws.map ValidatorWrapper.address).Nodup
  seen : ∀ a, a ∈ sum.validators ↔ a ∈ ws.map ValidatorWrapper.address
  count : sum.validatorCount = ws.length
  active : sum.activeDelegation = active ws
  undelegated : sum.pendingUndelegation = undelegated ws
  reward : sum.unclaimedDelegationReward = reward ws

theorem Credited.start (listed : List Address) (keys : List Hash) :
    Credited { validatorList := listed, validatorKeys := keys } [] :=
  ⟨List.nodup_nil, fun _ => Iff.rfl, rfl, rfl, rfl, rfl⟩

/-- `addValidator` adds the account's wrapper, if its code is one. -/
theorem addValidator_ok {secureKey codeHash : Hash} {code : Bytes × Bool}
    {sum sum' : Accumulator} {ws : List ValidatorWrapper} (hcode : code.1.length ≠ 0)
    (h : addValidator codec sum secureKey codeHash code = .ok sum') (hsum : Credited sum ws) :
    Credited sum' (ws ++ (wrapperIn codec secureKey codeHash code.1).toList) ∧
      sum'.liquidBalance = sum.liquidBalance ∧ sum'.validatorList = sum.validatorList ∧
      sum'.validatorKeys = sum.validatorKeys := by
  obtain ⟨encoded, isPrefixed⟩ := code
  dsimp only at hcode
  have hskip : ∀ {err : String} {w : Option ValidatorWrapper},
      (if isPrefixed then Except.error err else Except.ok sum) = .ok sum' → w = none →
      Credited sum' (ws ++ w.toList) ∧ sum'.liquidBalance = sum.liquidBalance ∧
        sum'.validatorList = sum.validatorList ∧ sum'.validatorKeys = sum.validatorKeys := by
    rintro err w hif rfl
    split at hif
    · cases hif
    · cases hif
      exact ⟨by rwa [Option.toList_none, List.append_nil], rfl, rfl, rfl⟩
  simp only [addValidator] at h
  by_cases hhash : codec.keccak256 encoded = codeHash
  · rw [if_neg (not_not.mpr hhash)] at h
    have hor : ¬ (encoded.length = 0 ∨ codec.keccak256 encoded ≠ codeHash) := by
      rintro (hnil | hne)
      · exact hcode hnil
      · exact hne hhash
    rw [wrapperIn, if_neg hor]
    cases hdecode : codec.decodeWrapper encoded with
    | error err =>
      rw [hdecode] at h
      exact hskip h rfl
    | ok wrapper =>
      simp only [hdecode] at h
      by_cases hkey : codec.keccak256 wrapper.address.data = secureKey
      · simp only [if_neg (not_not.mpr hkey)] at h ⊢
        split at h
        · cases h
        · rename_i hnew
          split at h
          · cases h
          · rename_i blockReward hblock
            split at h
            · cases h
            · rw [foldlM_addDelegation h]
              rw [hsum.seen] at hnew
              refine ⟨⟨?_, ?_, ?_, ?_, ?_, ?_⟩, rfl, rfl, rfl⟩
              · exact nodup_addresses_concat hsum.nodup hnew
              · intro a
                rw [List.mem_cons, hsum.seen, Option.toList_some, mem_addresses_concat]
              · simp [hsum.count]
              · simp [hsum.active, active]
              · simp [hsum.undelegated, undelegated]
              · simp [hsum.reward, reward]
      · simp only [if_pos hkey] at h ⊢
        exact hskip h rfl
  · rw [if_pos hhash] at h
    rw [wrapperIn, if_pos (Or.inr hhash)]
    exact hskip h rfl

/-! ## The two loops -/

/-- The wrapper of a listed address. -/
def listedWrapper (codec : StateCodec) (db : Database) (trie : Trie) (address : Address) :
    Option ValidatorWrapper :=
  (trie.leaves.lookup (codec.keccak256 address.data)).bind fun value =>
    wrapperAt codec db (codec.keccak256 address.data, value)

/-- The wrapper that the iteration adds for a leaf. -/
def metWrapper (codec : StateCodec) (db : Database) (flags : Flags) (keys : List Hash)
    (leaf : Hash × Bytes) : Option ValidatorWrapper :=
  if flags.staking ∧ (flags.discoverValidators ∨ leaf.1 ∉ keys) then wrapperAt codec db leaf
  else none

/-- What stays the same while wrappers are added. -/
structure SameBase (sum sum' : Accumulator) : Prop where
  liquid : sum'.liquidBalance = sum.liquidBalance
  list : sum'.validatorList = sum.validatorList
  keys : sum'.validatorKeys = sum.validatorKeys

theorem addListed_ok {trie : Trie} (htrie : trie.iterErr = none) {address : Address}
    {sum sum' : Accumulator} {ws : List ValidatorWrapper} (hsum : Credited sum ws)
    (h : addListed codec db trie sum address = .ok sum') :
    Credited sum' (ws ++ (listedWrapper codec db trie address).toList) ∧ SameBase sum sum' := by
  rw [addListed] at h
  split at h
  · cases h
  · cases h
  · rename_i account haccount
    simp only [tryGetAccount, trie.complete htrie, bind_ok] at haccount
    cases hfound : trie.leaves.lookup (codec.keccak256 address.data) with
    | none =>
      rw [hfound] at haccount
      cases haccount
    | some value =>
      simp only [hfound, bind_eq_ok] at haccount
      obtain ⟨decoded, hdecoded, heq⟩ := haccount
      cases heq
      have hw : listedWrapper codec db trie address =
          accountWrapper codec db (codec.keccak256 address.data) account := by
        rw [listedWrapper, hfound, Option.bind_some, wrapperAt, hdecoded]
      split at h
      · cases h
      · dsimp only at h
        split at h
        · cases h
        · rename_i hcode
          obtain ⟨hcredited, hliquid, hlist, hkeys⟩ := addValidator_ok hcode h hsum
          rw [hw]
          exact ⟨hcredited, hliquid, hlist, hkeys⟩

theorem addListedValidators_ok {trie : Trie} (htrie : trie.iterErr = none)
    {listed : List Address} {sum sum' : Accumulator} (hsum : Credited sum [])
    (h : addListedValidators codec db trie listed sum = .ok sum') :
    Credited sum' (listed.filterMap (listedWrapper codec db trie)) ∧ SameBase sum sum' := by
  refine foldlM_invariant (fun done s =>
    Credited s (done.filterMap (listedWrapper codec db trie)) ∧ SameBase sum s) ?_
    [] ⟨hsum, rfl, rfl, rfl⟩ h
  rintro done s a s' ⟨hcredited, hbase⟩ hstep
  obtain ⟨hnext, hsame⟩ := addListed_ok htrie hcredited hstep
  refine ⟨?_, hsame.liquid.trans hbase.liquid, hsame.list.trans hbase.list,
    hsame.keys.trans hbase.keys⟩
  rw [filterMap_concat]
  exact hnext

/-- A leaf adds its balance and, unless its key is listed, its wrapper. -/
theorem addLeaf_ok (hempty : EmptyCodeUnique codec) {flags : Flags} {leaf : Hash × Bytes}
    {sum sum' : Accumulator} {ws : List ValidatorWrapper} (hsum : Credited sum ws)
    (h : addLeaf codec db flags sum leaf = .ok sum') :
    Credited sum' (ws ++ (metWrapper codec db flags sum.validatorKeys leaf).toList) ∧
      sum'.liquidBalance = sum.liquidBalance + balanceAt codec leaf ∧
      sum'.validatorKeys = sum.validatorKeys := by
  simp only [addLeaf, bind_eq_ok] at h
  obtain ⟨account, haccount, balance, hbalance, h⟩ := h
  have hdecoded := decodedAccount_ok haccount
  have hvalue : balanceAt codec leaf = balance := by
    rw [balanceAt, hdecoded]
    simp only [(checkedBalance_ok hbalance).1, amountOf, Option.getD_some]
  have hat : wrapperAt codec db leaf = accountWrapper codec db leaf.1 account := by
    rw [wrapperAt, hdecoded]
  have hnone : wrapperAt codec db leaf = none →
      ws ++ (metWrapper codec db flags sum.validatorKeys leaf).toList = ws := by
    intro hw
    rw [metWrapper, hw, ite_self, Option.toList_none, List.append_nil]
  have hcredited : ∀ counted : Nat,
      Credited { sum with
        accountCount := sum.accountCount + 1
        liquidBalance := sum.liquidBalance + balance
        positiveAccountCount := sum.positiveAccountCount + if 0 < balance then 1 else 0
        codeBearingAccountCount := counted } ws :=
    fun _ => ⟨hsum.nodup, hsum.seen, hsum.count, hsum.active, hsum.undelegated, hsum.reward⟩
  rw [hvalue]
  split at h
  · rename_i hcodeHash
    cases h
    rw [hnone]
    · exact ⟨hcredited _, rfl, rfl⟩
    · rw [hat]
      exact accountWrapper_empty hempty (by rw [hcodeHash, FixedBytes.ofBytes_data])
  · split at h
    · rename_i hmet
      split at h
      · rename_i hcode
        obtain ⟨hnext, hliquid, -, hkeys⟩ := addValidator_ok hcode h (hcredited _)
        rw [metWrapper, if_pos hmet, hat]
        exact ⟨hnext, hliquid, hkeys⟩
      · rename_i hcode
        cases h
        rw [hnone]
        · exact ⟨hcredited _, rfl, rfl⟩
        · rw [hat]
          exact accountWrapper_no_code (not_not.mp hcode)
    · rename_i hskipped
      cases h
      rw [metWrapper, if_neg hskipped, Option.toList_none, List.append_nil]
      exact ⟨hcredited _, rfl, rfl⟩

theorem foldlM_addLeaf (hempty : EmptyCodeUnique codec) {flags : Flags}
    {leaves : List (Hash × Bytes)} {sum sum' : Accumulator} {ws : List ValidatorWrapper}
    (hsum : Credited sum ws) (h : leaves.foldlM (addLeaf codec db flags) sum = .ok sum') :
    Credited sum' (ws ++ leaves.filterMap (metWrapper codec db flags sum.validatorKeys)) ∧
      sum'.liquidBalance = sum.liquidBalance + (leaves.map (balanceAt codec)).sum := by
  have hrun := foldlM_invariant (fun done s =>
    Credited s (ws ++ done.filterMap (metWrapper codec db flags sum.validatorKeys)) ∧
      s.liquidBalance = sum.liquidBalance + (done.map (balanceAt codec)).sum ∧
      s.validatorKeys = sum.validatorKeys) ?_ []
    ⟨by rwa [List.filterMap_nil, List.append_nil], by simp, rfl⟩ h
  · exact ⟨hrun.1, hrun.2.1⟩
  · rintro done s leaf s' ⟨hcredited, hliquid, hkeys⟩ hstep
    obtain ⟨hnext, hadded, hkeys'⟩ := addLeaf_ok hempty hcredited hstep
    refine ⟨?_, ?_, hkeys'.trans hkeys⟩
    · rw [hkeys] at hnext
      rw [filterMap_concat, ← List.append_assoc]
      exact hnext
    · rw [hadded, hliquid, List.map_append, List.sum_append, List.map_singleton,
        List.sum_singleton, Int.add_assoc]

/-! ## Whole runs -/

/-- A run that looks at staking meets exactly the wrappers of the state. -/
theorem mem_met_iff {trie : Trie} {flags : Flags} (hstaking : flags.staking)
    {listed order : List Address} (horder : order.Perm listed) (w : ValidatorWrapper) :
    (w ∈ order.filterMap (listedWrapper codec db trie) ++ trie.leaves.filterMap
        (metWrapper codec db flags (listed.map fun a => codec.keccak256 a.data))) ↔
      w ∈ wrappers codec db trie := by
  rw [List.mem_append, List.mem_filterMap, List.mem_filterMap, wrappers, List.mem_filterMap]
  constructor
  · rintro (⟨address, -, hw⟩ | ⟨leaf, hleaf, hw⟩)
    · obtain ⟨value, hvalue, hw⟩ := Option.bind_eq_some_iff.mp hw
      exact ⟨_, KeyedTable.mem_of_lookup hvalue, hw⟩
    · rw [metWrapper] at hw
      split at hw
      · exact ⟨leaf, hleaf, hw⟩
      · cases hw
  · rintro ⟨leaf, hleaf, hw⟩
    by_cases hkey : leaf.1 ∈ listed.map fun a => codec.keccak256 a.data
    · obtain ⟨address, haddress, heq⟩ := List.mem_map.mp hkey
      refine Or.inl ⟨address, horder.mem_iff.mpr haddress, ?_⟩
      rw [listedWrapper, heq, KeyedTable.lookup_of_mem (leaves_nodup trie) hleaf]
      exact hw
    · refine Or.inr ⟨leaf, hleaf, ?_⟩
      rw [metWrapper, if_pos ⟨hstaking, Or.inr hkey⟩]
      exact hw

theorem wrappers_addresses_nodup {codec : StateCodec} {db : Database} {trie : Trie} :
    ((wrappers codec db trie).map ValidatorWrapper.address).Nodup := by
  have hkeys : (wrappers codec db trie).Pairwise fun w v =>
      (codec.keccak256 w.address.data).data < (codec.keccak256 v.address.data).data := by
    rw [wrappers, List.pairwise_filterMap]
    refine trie.increasing.imp ?_
    intro leaf leaf' hlt w hw v hv
    rw [wrapperAt_address hw, wrapperAt_address hv]
    exact hlt
  rw [List.Nodup, List.pairwise_map]
  refine hkeys.imp ?_
  intro w v hlt heq
  rw [heq] at hlt
  exact Std.lt_irrefl hlt

theorem addAccounts_ok {flags : Flags} (hfull : flags.validatorOnly = false) {trie : Trie}
    {sum sum' : Accumulator} (h : addAccounts codec db flags trie sum = .ok sum') :
    trie.iterErr = none ∧ trie.leaves.foldlM (addLeaf codec db flags) sum = .ok sum' := by
  simp only [addAccounts, hfull, Bool.false_eq_true, if_false, bind_eq_ok] at h
  obtain ⟨found, hrun, h⟩ := h
  split at h
  · cases h
  · rename_i hnone
    cases h
    exact ⟨hnone, hrun⟩

theorem listedValidators_without_staking {flags : Flags} (hno : ¬ flags.staking)
    {listed : List Address} (h : listedValidators codec db flags = .ok listed) : listed = [] := by
  rw [listedValidators, if_neg (fun hand => hno hand.1)] at h
  cases h
  rfl

/-- A run over all accounts has the whole liquid balance and, with staking, every
wrapper of the state exactly once, listed or not. -/
theorem collect_ok (hempty : EmptyCodeUnique codec) {flags : Flags} {trie : Trie} {root : Hash}
    {order : List Address → List Address} (horder : ∀ l, (order l).Perm l)
    (hfull : flags.validatorOnly = false) {sum : Accumulator}
    (h : collect codec db flags trie root order = .ok sum) :
    sum.liquidBalance = liquid codec trie ∧
      ∃ ws, Credited sum ws ∧ ws.Perm (if flags.staking then wrappers codec db trie else []) := by
  simp only [collect, bind_eq_ok] at h
  obtain ⟨-, -, listed, hlisted, -, -, sum1, hfirst, sum2, haccounts, h⟩ := h
  obtain ⟨htrie, hleaves⟩ := addAccounts_ok hfull haccounts
  have heq : sum2 = sum := by
    rw [requireWrappers] at h
    split at h
    · cases h
    · exact Except.ok.inj h
  subst heq
  obtain ⟨hcredited, hbase⟩ := addListedValidators_ok htrie (Credited.start _ _) hfirst
  obtain ⟨hmet, hliquid⟩ := foldlM_addLeaf hempty hcredited hleaves
  rw [hbase.keys] at hmet
  refine ⟨?_, _, hmet, ?_⟩
  · rw [hliquid, hbase.liquid, liquid]
    exact zero_add _
  · by_cases hstaking : flags.staking
    · rw [if_pos hstaking]
      apply (List.perm_ext_iff_of_nodup (List.Nodup.of_map _ hmet.nodup)
        (List.Nodup.of_map _ wrappers_addresses_nodup)).mpr
      exact fun w => mem_met_iff hstaking (horder listed) w
    · have hnil := listedValidators_without_staking hstaking hlisted
      subst hnil
      have hnone : metWrapper codec db flags [] = fun _ => none := by
        funext leaf
        rw [metWrapper, if_neg (fun hand => hstaking hand.1)]
      rw [if_neg hstaking, List.perm_nil.mp (horder []), List.map_nil, hnone]
      simp

theorem main_ok (hempty : EmptyCodeUnique codec) {flags : Flags} {trie : Trie} {root : Hash}
    {order : List Address → List Address} (horder : ∀ l, (order l).Perm l)
    (hfull : flags.validatorOnly = false) {totals : Totals}
    (h : main codec db flags trie root order = .ok totals) :
    totals.liquidBalanceAtto = toString (liquid codec trie) ∧
      ∃ ws, ws.Perm (if flags.staking then wrappers codec db trie else []) ∧
        totals.validatorCount = ws.length ∧
        totals.activeDelegationAtto = toString (active ws) ∧
        totals.pendingUndelegationAtto = toString (undelegated ws) ∧
        totals.unclaimedDelegationRewardAtto = toString (reward ws) ∧
        totals.accountAndStakingClaimsAtto =
          toString (liquid codec trie + active ws + undelegated ws + reward ws) := by
  rw [main, bind_eq_ok] at h
  obtain ⟨sum, hsum, h⟩ := h
  obtain ⟨hliquid, ws, hws, hperm⟩ := collect_ok hempty horder hfull hsum
  cases h
  simp only [hliquid, hws.active, hws.undelegated, hws.reward]
  exact ⟨trivial, ws, hperm, hws.count, rfl, rfl, rfl, rfl⟩

end ActualSupplyTotals
