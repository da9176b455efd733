import SupplyAudit.IndependentSums
import SupplyAudit.PipelineAcceptance

/-!
# What each delegator holds

The claims that `staking-claims` collects are the amounts of all wrappers,
credited one by one to their delegators. Each delegator's claim is therefore
the sum of its own amounts, in either mode of discovery.
-/

namespace DelegatorClaims

open ByteWords NumeralText HexText ReceiptKeys ChainDatabase FallibleScan KeyedTable StateTrie
open WrapperTotals StakingClaims StakingTotals ActualSupplyTotals PipelineAcceptance

/-- What one entry of a wrapper adds to a delegator's claim. -/
structure Contribution where
  delegator : Address
  active : Int
  pendingUndelegation : Int
  reward : Int

/-- A delegation, and then its undelegations. -/
def delegationContributions (d : Delegation) : List Contribution :=
  ⟨d.delegatorAddress, amountOf d.amount, 0, amountOf d.reward⟩ ::
    d.undelegations.map fun u => ⟨d.delegatorAddress, 0, amountOf u.amount, 0⟩

def contributions (ws : List ValidatorWrapper) : List Contribution :=
  ws.flatMap fun w => w.delegations.flatMap delegationContributions

/-- What the wrappers hold for an address in one of the three columns. -/
def held (column : Contribution → Int) (ws : List ValidatorWrapper) (a : Address) : Int :=
  ((contributions ws).map fun c => if a = c.delegator then column c else 0).sum

theorem held_perm {ws vs : List ValidatorWrapper} (h : ws.Perm vs) (column : Contribution → Int)
    (a : Address) : held column ws a = held column vs a :=
  ((h.flatMap_right _).map _).sum_eq

theorem contributions_append (ws vs : List ValidatorWrapper) :
    contributions (ws ++ vs) = contributions ws ++ contributions vs :=
  List.flatMap_append

variable {codec : StateCodec} {db : Database}

/-- A claim table after one more contribution. -/
def credit (codec : StateCodec) (claims : List (Hash × Claim)) (c : Contribution) :
    List (Hash × Claim) :=
  KeyedTable.update claims (codec.keccak256 c.delegator.data) ⟨c.delegator, 0, 0, 0⟩ fun entry =>
    { entry with
      active := entry.active + c.active
      pendingUndelegation := entry.pendingUndelegation + c.pendingUndelegation
      reward := entry.reward + c.reward }

/-! ## A run credits the contributions of the wrappers it reads -/

theorem addUndelegation_claims {validator delegator : Address} {u : Undelegation}
    {p p' : Progress}
    (h : addUndelegation codec validator delegator (codec.keccak256 delegator.data) p u = .ok p') :
    p'.claims = credit codec p.claims ⟨delegator, 0, amountOf u.amount, 0⟩ := by
  simp only [addUndelegation, bind_eq_ok] at h
  obtain ⟨amount, hamount, h⟩ := h
  have hvalue := (requireNonNegative_ok hamount).1
  split at h
  · cases h
  · split at h
    · cases h
    · cases h
      simp only [credit, KeyedTable.update, hvalue, amountOf, Option.getD_some, add_zero]

theorem foldlM_addUndelegation_claims {validator delegator : Address} {us : List Undelegation}
    {p p' : Progress}
    (h : us.foldlM (addUndelegation codec validator delegator (codec.keccak256 delegator.data)) p =
      .ok p') :
    p'.claims = (us.map fun u => (⟨delegator, 0, amountOf u.amount, 0⟩ : Contribution)).foldl
      (credit codec) p.claims := by
  induction us generalizing p with
  | nil =>
    cases h
    rfl
  | cons u us ih =>
    rw [List.foldlM_cons, bind_eq_ok] at h
    obtain ⟨next, hstep, hrest⟩ := h
    rw [ih hrest, addUndelegation_claims hstep, List.map_cons, List.foldl_cons]

theorem addDelegation_claims {validator : Address} {d : Delegation}
    {acc acc' : List Address × Progress} (h : addDelegation codec validator acc d = .ok acc') :
    acc'.2.claims = (delegationContributions d).foldl (credit codec) acc.2.claims := by
  rw [addDelegation] at h
  split at h
  · cases h
  simp only [bind_eq_ok] at h
  obtain ⟨amount, hamount, reward, hreward, h⟩ := h
  split at h
  · cases h
  simp only [bind_eq_ok] at h
  obtain ⟨p', hrun, h⟩ := h
  cases h
  rw [foldlM_addUndelegation_claims hrun, delegationContributions, List.foldl_cons]
  simp only [credit, KeyedTable.update, (requireNonNegative_ok hamount).1,
    (requireNonNegative_ok hreward).1, amountOf, Option.getD_some, add_zero]

theorem foldlM_addDelegation_claims {validator : Address} {ds : List Delegation}
    {acc acc' : List Address × Progress}
    (h : ds.foldlM (addDelegation codec validator) acc = .ok acc') :
    acc'.2.claims = (ds.flatMap delegationContributions).foldl (credit codec) acc.2.claims := by
  induction ds generalizing acc with
  | nil =>
    cases h
    rfl
  | cons d ds ih =>
    rw [List.foldlM_cons, bind_eq_ok] at h
    obtain ⟨next, hstep, hrest⟩ := h
    rw [ih hrest, addDelegation_claims hstep, List.flatMap_cons, List.foldl_append]

/-- `processValidator` credits what the account's wrapper holds, if its code is one. -/
theorem processValidator_claims {secureKey codeHash : Hash} {code : Bytes × Bool}
    {p p' : Progress} {valid : Bool}
    (h : processValidator codec secureKey codeHash code p = .ok (valid, p')) :
    p'.claims = (contributions (wrapperIn codec secureKey codeHash code.1).toList).foldl
        (credit codec) p.claims ∧
      valid = (wrapperIn codec secureKey codeHash code.1).isSome := by
  obtain ⟨encoded, isPrefixed⟩ := code
  have hskip : ∀ {err : String} {w : Option ValidatorWrapper},
      (if isPrefixed then Except.error err else Except.ok (false, p)) = .ok (valid, p') →
      w = none → p'.claims = (contributions w.toList).foldl (credit codec) p.claims ∧
        valid = w.isSome := by
    rintro err w hif rfl
    split at hif
    · cases hif
    · cases hif
      exact ⟨rfl, rfl⟩
  simp only [processValidator] at h
  by_cases hcode : encoded.length = 0 ∨ codec.keccak256 encoded ≠ codeHash
  · rw [if_pos hcode] at h
    rw [wrapperIn, if_pos hcode]
    exact hskip h rfl
  · rw [if_neg hcode] at h
    rw [wrapperIn, if_neg hcode]
    cases hdecode : codec.decodeWrapper encoded with
    | error err =>
      rw [hdecode] at h
      exact hskip h rfl
    | ok wrapper =>
      simp only [hdecode] at h
      by_cases hkey : codec.keccak256 wrapper.address.data = secureKey
      · simp only [if_neg (not_not.mpr hkey)] at h ⊢
        split at h
        · cases h
        · simp only [bind_eq_ok] at h
          obtain ⟨⟨seen, q⟩, hrun, h⟩ := h
          cases h
          refine ⟨?_, rfl⟩
          rw [foldlM_addDelegation_claims hrun, contributions, Option.toList_some,
            List.flatMap_singleton]
      · simp only [if_pos hkey] at h ⊢
        exact hskip h rfl

theorem discoverLeaf_claims (hempty : EmptyCodeUnique codec) {leaf : Hash × Bytes}
    {p p' : Progress} (h : discoverLeaf codec db p leaf = .ok p') :
    p'.claims =
      (contributions (wrapperAt codec db leaf).toList).foldl (credit codec) p.claims := by
  simp only [discoverLeaf, bind_eq_ok] at h
  obtain ⟨account, haccount, h⟩ := h
  have hat : wrapperAt codec db leaf = accountWrapper codec db leaf.1 account := by
    rw [wrapperAt, decodedAccount_ok haccount]
  rw [hat]
  split at h
  · rename_i hcodeHash
    cases h
    rw [accountWrapper_empty hempty hcodeHash]
    rfl
  · split at h
    · rw [bind_eq_ok] at h
      obtain ⟨⟨valid, q⟩, hstep, h⟩ := h
      cases h
      exact (processValidator_claims hstep).1
    · rename_i hcode
      cases h
      rw [accountWrapper_no_code (not_not.mp hcode)]
      rfl

theorem listedValidator_claims {trie : Trie} (htrie : trie.iterErr = none) {address : Address}
    {p p' : Progress} (h : listedValidator codec db trie p address = .ok p') :
    p'.claims = (contributions (listedWrapper codec db trie address).toList).foldl
      (credit codec) p.claims := by
  rw [listedValidator] at h
  split at h
  · cases h
  · cases h
  · rename_i account haccount
    simp only [tryGetAccount, trie.complete htrie, bind_ok] at haccount
    cases hfound : trie.leaves.lookup (codec.keccak256 address.data) with
    | none =>
      rw [hfound] at haccount
      cases haccount
    | some value =>
      simp only [hfound, bind_eq_ok] at haccount
      obtain ⟨decoded, hdecoded, heq⟩ := haccount
      cases heq
      have hw : listedWrapper codec db trie address =
          accountWrapper codec db (codec.keccak256 address.data) account := by
        rw [listedWrapper, hfound, Option.bind_some, wrapperAt, hdecoded]
      dsimp only at h
      split at h
      · cases h
      · rw [bind_eq_ok] at h
        obtain ⟨⟨valid, q⟩, hstep, h⟩ := h
        dsimp only at h
        split at h
        · cases h
          rw [hw]
          exact (processValidator_claims hstep).1
        · cases h

/-- Every wrapper of the state belongs to a listed validator. -/
def AllListed (codec : StateCodec) (db : Database) (trie : Trie) : Prop :=
  ∀ listed, StakingClaims.readValidatorList codec db = .ok listed →
    ∀ w ∈ wrappers codec db trie, w.address ∈ listed

theorem nodup_of_readValidatorList {listed : List Address}
    (h : StakingClaims.readValidatorList codec db = .ok listed) : listed.Nodup := by
  simp only [StakingClaims.readValidatorList, StateTrie.readValidatorList] at h
  split at h
  · cases h
  · split at h
    · cases h
    · split at h
      · cases h
      · split at h
        · cases h
        · rename_i hnone
          cases h
          exact ((firstRepeated_eq_none_iff [] _).mp hnone).1

/-- The wrappers of a complete list are the wrappers of the state. -/
theorem listed_perm (hinjective : AddressInjective codec.keccak256) {trie : Trie}
    {listed : List Address} (hnodup : listed.Nodup)
    (hall : ∀ w ∈ wrappers codec db trie, w.address ∈ listed) :
    (listed.filterMap (listedWrapper codec db trie)).Perm (wrappers codec db trie) := by
  have haddress : ∀ a w, listedWrapper codec db trie a = some w → w.address = a := by
    intro a w hw
    obtain ⟨value, -, hat⟩ := Option.bind_eq_some_iff.mp hw
    exact hinjective _ _ (wrapperAt_address hat)
  refine (List.perm_ext_iff_of_nodup (hnodup.filterMap ?_)
    (List.Nodup.of_map _ wrappers_addresses_nodup)).mpr fun w => ?_
  · intro a a' w hw hw'
    exact (haddress a w hw).symm.trans (haddress a' w hw')
  · rw [List.mem_filterMap]
    constructor
    · rintro ⟨a, -, hw⟩
      obtain ⟨value, hvalue, hat⟩ := Option.bind_eq_some_iff.mp hw
      exact List.mem_filterMap.mpr ⟨_, mem_of_lookup hvalue, hat⟩
    · intro hw
      obtain ⟨leaf, hleaf, hat⟩ := List.mem_filterMap.mp hw
      refine ⟨w.address, hall w hw, ?_⟩
      rw [listedWrapper, wrapperAt_address hat, lookup_of_mem (leaves_nodup trie) hleaf]
      exact hat

/-- A run that reads every wrapper has credited what they hold. -/
theorem collect_claims (hempty : EmptyCodeUnique codec)
    (hinjective : AddressInjective codec.keccak256) {trie : Trie} (htrie : trie.iterErr = none)
    {discover : Bool} (hmode : discover = true ∨ AllListed codec db trie) {p : Progress}
    (h : collect codec db trie discover = .ok p) :
    ∃ ws, ws.Perm (wrappers codec db trie) ∧
      p.claims = (contributions ws).foldl (credit codec) [] := by
  cases discover with
  | true =>
    simp only [collect, if_true, bind_eq_ok, htrie] at h
    obtain ⟨q, hrun, h⟩ := h
    cases h
    refine ⟨wrappers codec db trie, List.Perm.refl _, ?_⟩
    refine foldlM_invariant (fun done p => p.claims =
      (contributions (done.filterMap (wrapperAt codec db))).foldl (credit codec) []) ?_ [] rfl hrun
    intro done p leaf p' hp hstep
    rw [filterMap_concat, contributions_append, List.foldl_append, ← hp]
    exact discoverLeaf_claims hempty hstep
  | false =>
    have hall := hmode.resolve_left (by simp)
    simp only [collect, Bool.false_eq_true, if_false, bind_eq_ok] at h
    obtain ⟨listed, hlisted, hrun⟩ := h
    refine ⟨_, listed_perm hinjective (nodup_of_readValidatorList hlisted)
      (hall listed hlisted), ?_⟩
    refine foldlM_invariant (fun done p => p.claims =
      (contributions (done.filterMap (listedWrapper codec db trie))).foldl (credit codec) [])
      ?_ [] rfl hrun
    intro done p address p' hp hstep
    rw [filterMap_concat, contributions_append, List.foldl_append, ← hp]
    exact listedValidator_claims htrie hstep

/-! ## Shares of a delegator -/

/-- A column of the claims and the same column of what is contributed to them. -/
structure Column (share : Claim → Int) (column : Contribution → Int) : Prop where
  fresh : ∀ delegator, share ⟨delegator, 0, 0, 0⟩ = 0
  credited : ∀ (entry : Claim) (c : Contribution),
    share { entry with
      active := entry.active + c.active
      pendingUndelegation := entry.pendingUndelegation + c.pendingUndelegation
      reward := entry.reward + c.reward } = share entry + column c

theorem activeColumn : Column Claim.active Contribution.active := ⟨fun _ => rfl, fun _ _ => rfl⟩

theorem pendingColumn : Column Claim.pendingUndelegation Contribution.pendingUndelegation :=
  ⟨fun _ => rfl, fun _ _ => rfl⟩

theorem rewardColumn : Column Claim.reward Contribution.reward := ⟨fun _ => rfl, fun _ _ => rfl⟩

/-- The claims hold for each address what was contributed for it. -/
theorem shareAt_foldl_credit (hinjective : AddressInjective codec.keccak256)
    {share : Claim → Int} {column : Contribution → Int} (hcolumn : Column share column)
    (cs : List Contribution) (claims : List (Hash × Claim)) (a : Address) :
    shareAt share (cs.foldl (credit codec) claims) (codec.keccak256 a.data) =
      shareAt share claims (codec.keccak256 a.data) +
        (cs.map fun c => if a = c.delegator then column c else 0).sum := by
  induction cs generalizing claims with
  | nil => exact (add_zero _).symm
  | cons c cs ih =>
    have hkey : (codec.keccak256 a.data = codec.keccak256 c.delegator.data) ↔ a = c.delegator :=
      ⟨hinjective _ _, fun h => h ▸ rfl⟩
    rw [List.foldl_cons, ih, credit,
      shareAt_update claims _ (hcolumn.fresh _) fun entry => hcolumn.credited entry c,
      List.map_cons, List.sum_cons, add_assoc]
    simp only [hkey]

/-- The claim of each address is what the wrappers of the state hold for it. -/
theorem shareAt_claims (hinjective : AddressInjective codec.keccak256) {share : Claim → Int}
    {column : Contribution → Int} (hcolumn : Column share column) {trie : Trie} {p : Progress}
    {ws : List ValidatorWrapper} (hws : ws.Perm (wrappers codec db trie))
    (hclaims : p.claims = (contributions ws).foldl (credit codec) []) (a : Address) :
    shareAt share p.claims (codec.keccak256 a.data) = held column (wrappers codec db trie) a := by
  rw [hclaims, shareAt_foldl_credit hinjective hcolumn, ← held_perm hws, held]
  exact zero_add _

/-- The claims together hold what was contributed. -/
theorem total_foldl_credit {share : Claim → Int} {column : Contribution → Int}
    (hcolumn : Column share column) (cs : List Contribution) {claims : List (Hash × Claim)}
    (h : (claims.map Prod.fst).Nodup) :
    total share (cs.foldl (credit codec) claims) = total share claims + (cs.map column).sum := by
  induction cs generalizing claims with
  | nil => exact (add_zero _).symm
  | cons c cs ih =>
    have hnodup : ((credit codec claims c).map Prod.fst).Nodup := nodup_update h _ _ _
    rw [List.foldl_cons, ih hnodup, credit,
      total_update_add h _ (hcolumn.fresh _) fun entry => hcolumn.credited entry c,
      List.map_cons, List.sum_cons, add_assoc]

theorem sum_contributions (column : Contribution → Int) (ws : List ValidatorWrapper) :
    ((contributions ws).map column).sum =
      (ws.map fun w => (w.delegations.map fun d =>
        ((delegationContributions d).map column).sum).sum).sum := by
  rw [contributions, sum_map_flatMap]
  simp only [sum_map_flatMap]

theorem sum_active (ws : List ValidatorWrapper) :
    ((contributions ws).map Contribution.active).sum = active ws := by
  rw [sum_contributions, active]
  simp [delegationContributions, activeOf, Function.comp_def]

theorem sum_pending (ws : List ValidatorWrapper) :
    ((contributions ws).map Contribution.pendingUndelegation).sum = undelegated ws := by
  rw [sum_contributions, undelegated]
  simp [delegationContributions, undelegatedOf, pendingOf, Function.comp_def]

theorem sum_reward (ws : List ValidatorWrapper) :
    ((contributions ws).map Contribution.reward).sum = reward ws := by
  rw [sum_contributions, reward]
  simp [delegationContributions, rewardOf, Function.comp_def]

/-- The claims of a run that has read every wrapper of a state. -/
structure ClaimsOf (codec : StateCodec) (db : Database) (trie : Trie) (p : Progress) : Prop where
  claimed : Claimed codec p
  shares : ∀ {share : Claim → Int} {column : Contribution → Int}, Column share column → ∀ a,
    shareAt share p.claims (codec.keccak256 a.data) = held column (wrappers codec db trie) a
  active : total Claim.active p.claims = active (wrappers codec db trie)
  pending : total Claim.pendingUndelegation p.claims = undelegated (wrappers codec db trie)
  reward : total Claim.reward p.claims = reward (wrappers codec db trie)

theorem claimsOf_of_collect (hempty : EmptyCodeUnique codec)
    (hinjective : AddressInjective codec.keccak256) {trie : Trie} (htrie : trie.iterErr = none)
    {discover : Bool} (hmode : discover = true ∨ AllListed codec db trie) {p : Progress}
    (h : collect codec db trie discover = .ok p) : ClaimsOf codec db trie p := by
  obtain ⟨read, hheld⟩ := collect_ok h
  obtain ⟨ws, hws, hclaims⟩ := collect_claims hempty hinjective htrie hmode h
  have htotal : ∀ {share : Claim → Int} {column : Contribution → Int}, Column share column →
      total share p.claims = ((contributions ws).map column).sum := by
    intro share column hcolumn
    have hnone : (([] : List (Hash × Claim)).map Prod.fst).Nodup := List.nodup_nil
    rw [hclaims, total_foldl_credit hcolumn _ hnone]
    exact zero_add _
  refine ⟨hheld.claimed, fun hcolumn => shareAt_claims hinjective hcolumn hws hclaims, ?_, ?_, ?_⟩
  · rw [htotal activeColumn, sum_active, IndependentSums.active_perm hws]
  · rw [htotal pendingColumn, sum_pending, IndependentSums.undelegated_perm hws]
  · rw [htotal rewardColumn, sum_reward, IndependentSums.reward_perm hws]

end DelegatorClaims
