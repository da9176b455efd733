import SupplyAudit.AddressRoundTrip
import SupplyAudit.ClaimsDiffTotals
import SupplyAudit.HistoricalStaking

/-!
# Two exports of the staking claims

The database export reads validator wrappers from a state, and the node export
asks for the validators of the block page by page, with bech32 addresses and zero
claims. If the node serves the wrappers of the state, a reader of the two files
finds the same claims.
-/

namespace StakingExports

open ByteWords NumeralText HexText ReceiptKeys ChainDatabase FallibleScan KeyedTable ScriptValues
open BlacklistedAddresses AddressRoundTrip StateTrie WrapperTotals StakingClaims StakingTotals
open PipelineAcceptance DelegatorClaims ClaimsDiffTotals BatchReplies PagedListing TablePublication
open ClaimsDiff (Staked)
open HistoricalStaking (Information Node StakingError addAmounts claimCells)

variable {codec : StateCodec} {db : Database} {py : PyText}

/-! ## What the node says of a wrapper -/

/-- A delegation in the words of the node. -/
def delegationOf (d : Delegation) : HistoricalStaking.Delegation where
  delegatorAddress := spelled d.delegatorAddress.data
  amount := amountOf d.amount
  undelegations := d.undelegations.map fun u => amountOf u.amount
  reward := amountOf d.reward

def informationOf (w : ValidatorWrapper) : Information := ⟨w.delegations.map delegationOf⟩

/-- The node answers for every page up to the first empty one, and together the pages list the
wrappers, in some order. -/
structure ServesWrappers (node : Node) (block : Int) (ws : List ValidatorWrapper)
    (pages : List (List Information)) : Prop where
  answered : ∀ i (h : i < pages.length),
    AnsweredBy HistoricalStaking.caught (node.attempt block i) 4 pages[i]
  ended : AnsweredBy HistoricalStaking.caught (node.attempt block pages.length) 4 []
  nonempty : ∀ batch ∈ pages, batch ≠ []
  listed : pages.flatten.Perm (ws.map informationOf)

theorem rpc_of_answered {node : Node} {block : Int} {page : Nat} {batch : List Information}
    (h : AnsweredBy HistoricalStaking.caught (node.attempt block page) 4 batch) :
    HistoricalStaking.rpc node block page = .ok batch := by
  rw [HistoricalStaking.rpc, retryIf_eq_ok h]
  rfl

theorem decode_delegator (py : PyText) (a : Address) :
    stakingDecodeAddress py.lower (spelled a.data) = .ok (prefixedHex a.data) :=
  ((spelled_readers_agree py.lower (prefix_spelled a.data)).readsAs
    (decode_spelled py a.size)).staking

/-! ## The scan of the node's pages -/

/-- The address and the amounts of a delegation. -/
structure Credit where
  address : String
  amounts : Staked

def creditOf (d : Delegation) : Credit where
  address := prefixedHex d.delegatorAddress.data
  amounts := (delegationOf d).staked

/-- The claims after these delegations. -/
def credited (claims : List (String × Staked)) (credits : List Credit) : List (String × Staked) :=
  grouped Credit.address Staked.zero (fun c => addAmounts c.amounts) claims credits

theorem addDelegation_ok (py : PyText) (claims : List (String × Staked)) (d : Delegation) :
    HistoricalStaking.addDelegation py.lower claims (delegationOf d) =
      .ok (credited claims [creditOf d]) := by
  rw [HistoricalStaking.addDelegation, delegationOf, decode_delegator]
  rfl

theorem credited_append (claims : List (String × Staked)) (front back : List Credit) :
    credited claims (front ++ back) = credited (credited claims front) back :=
  List.foldl_append

/-- The delegations of these validators, in order. -/
def creditsOf (ws : List ValidatorWrapper) : List Credit :=
  ws.flatMap fun w => w.delegations.map creditOf

theorem foldlM_delegations (py : PyText) (ds : List Delegation) (claims : List (String × Staked)) :
    (ds.map delegationOf).foldlM (HistoricalStaking.addDelegation py.lower) claims =
      .ok (credited claims (ds.map creditOf)) := by
  induction ds generalizing claims with
  | nil => rfl
  | cons d ds ih =>
    rw [List.map_cons, List.foldlM_cons, addDelegation_ok, bind_ok, ih, ← credited_append]
    rfl

theorem foldlM_wrappers (py : PyText) (ws : List ValidatorWrapper)
    (claims : List (String × Staked)) :
    (ws.map informationOf).foldlM (fun claims information =>
        information.delegations.foldlM (HistoricalStaking.addDelegation py.lower) claims) claims =
      .ok (credited claims (creditsOf ws)) := by
  induction ws generalizing claims with
  | nil => rfl
  | cons w ws ih =>
    have hfirst : (informationOf w).delegations = w.delegations.map delegationOf := rfl
    rw [List.map_cons, List.foldlM_cons, hfirst, foldlM_delegations, bind_ok, ih, ← credited_append]
    rfl

/-- A page of wrappers is credited; the pages count the validators. -/
theorem foldlM_pages (py : PyText) {pages : List (List Information)} {ws : List ValidatorWrapper}
    (h : pages.flatten = ws.map informationOf) (p : HistoricalStaking.Progress) :
    pages.foldlM (HistoricalStaking.addBatch py.lower) p =
      .ok ⟨credited p.claims (creditsOf ws), p.validators + ws.length⟩ := by
  induction pages generalizing ws p with
  | nil =>
    have hws : ws = [] := List.map_eq_nil_iff.mp h.symm
    subst hws
    rfl
  | cons batch pages ih =>
    rw [List.flatten_cons, eq_comm, List.map_eq_append_iff] at h
    obtain ⟨front, back, rfl, hfront, hback⟩ := h
    have hcredits : creditsOf (front ++ back) = creditsOf front ++ creditsOf back :=
      List.flatMap_append
    rw [List.foldlM_cons, HistoricalStaking.addBatch, ← hfront, foldlM_wrappers, bind_ok, bind_ok,
      ih hback.symm, hcredits, credited_append, List.length_append, List.length_map, Nat.add_assoc]

/-- The scan ends with the claims of all delegations. -/
theorem scan_served (py : PyText) {node : Node} {block : Int} {ws : List ValidatorWrapper}
    {pages : List (List Information)} (h : ServesWrappers node block ws pages) {fuel : Nat}
    (hfuel : pages.length < fuel) :
    ∃ vs : List ValidatorWrapper, vs.Perm ws ∧
      scanPages (HistoricalStaking.rpc node block) List.isEmpty
        (HistoricalStaking.addBatch py.lower) fuel 0 {} =
        some (.ok ⟨credited [] (creditsOf vs), vs.length⟩) := by
  obtain ⟨vs, hflatten, hvs⟩ :
      Relation.Comp (· = List.map informationOf ·) List.Perm pages.flatten ws := by
    rw [List.eq_map_comp_perm]
    exact h.listed
  refine ⟨vs, hvs, scanPages_ok_iff.mpr ⟨pages ++ [[]], ?_, ?_, ?_⟩⟩
  · refine serves_append ?_ ?_ ?_ rfl
    · intro i hi
      rw [Nat.zero_add]
      exact rpc_of_answered (h.answered i hi)
    · intro batch hbatch
      exact List.isEmpty_eq_false_iff.mpr (h.nonempty batch hbatch)
    · rw [Nat.zero_add]
      exact rpc_of_answered h.ended
  · rw [List.length_append]
    exact hfuel
  · rw [List.foldlM_append, foldlM_pages py hflatten, bind_ok, List.foldlM_cons,
      HistoricalStaking.addBatch]
    simp

/-! ## Claims and totals -/

/-- A column of the node's claims is a column of the wrappers' contributions. -/
structure SameColumn (share : Staked → Int) (column : Contribution → Int) : Prop where
  zero : share .zero = 0
  added : ∀ amounts claim, share (addAmounts amounts claim) = share claim + share amounts
  contributed : ∀ d : Delegation,
    ((delegationContributions d).map column).sum = share (creditOf d).amounts

theorem sameActive : SameColumn Staked.active Contribution.active := by
  refine ⟨rfl, fun _ _ => rfl, fun d => ?_⟩
  simp [delegationContributions, creditOf, delegationOf, HistoricalStaking.Delegation.staked,
    Function.comp_def]

theorem samePending : SameColumn Staked.pendingUndelegation Contribution.pendingUndelegation := by
  refine ⟨rfl, fun _ _ => rfl, fun d => ?_⟩
  simp [delegationContributions, creditOf, delegationOf, HistoricalStaking.Delegation.staked,
    Function.comp_def]

theorem sameReward : SameColumn Staked.unclaimedReward Contribution.reward := by
  refine ⟨rfl, fun _ _ => rfl, fun d => ?_⟩
  simp [delegationContributions, creditOf, delegationOf, HistoricalStaking.Delegation.staked,
    Function.comp_def]

section Columns
variable {share : Staked → Int} {column : Contribution → Int} (h : SameColumn share column)
include h

/-- A delegation contributes to its own delegator. -/
theorem sum_delegation (a : Address) (d : Delegation) :
    ((delegationContributions d).map fun c => if a = c.delegator then column c else 0).sum =
      if prefixedHex a.data = (creditOf d).address then share (creditOf d).amounts else 0 := by
  have hdelegator : ∀ c ∈ delegationContributions d, c.delegator = d.delegatorAddress := by
    intro c hc
    rcases List.mem_cons.mp hc with rfl | hc
    · rfl
    · obtain ⟨u, -, rfl⟩ := List.mem_map.mp hc
      rfl
  have hown : ((delegationContributions d).map fun c => if a = c.delegator then column c else 0) =
      (delegationContributions d).map fun c =>
        if a = d.delegatorAddress then column c else 0 := by
    apply List.map_congr_left
    intro c hc
    rw [hdelegator c hc]
  rw [hown]
  by_cases ha : a = d.delegatorAddress
  · have htext : prefixedHex a.data = (creditOf d).address := by rw [ha, creditOf]
    simp only [if_pos ha]
    rw [if_pos htext, h.contributed]
  · have htext : prefixedHex a.data ≠ (creditOf d).address := fun heq => ha (text_injective heq)
    simp only [if_neg ha]
    rw [if_neg htext, List.map_const', List.sum_replicate, nsmul_zero]

/-- The claim of an address is what the wrappers hold for it. -/
theorem shareAt_credited (ws : List ValidatorWrapper) (a : Address) :
    shareAt share (credited [] (creditsOf ws)) (prefixedHex a.data) = held column ws a := by
  rw [credited, shareAt_grouped Credit.address Staked.zero _ h.zero
    (fun c claim => h.added c.amounts claim)]
  have hnone : shareAt share ([] : List (String × Staked)) (prefixedHex a.data) = 0 := rfl
  rw [hnone, zero_add, held, creditsOf, contributions, sum_map_flatMap, sum_map_flatMap]
  simp only [sum_map_flatMap, List.map_map, Function.comp_def, sum_delegation h]

/-- The claims together hold what the wrappers hold. -/
theorem total_credited (ws : List ValidatorWrapper) :
    total share (credited [] (creditsOf ws)) = ((contributions ws).map column).sum := by
  have hnone : (([] : List (String × Staked)).map Prod.fst).Nodup := List.nodup_nil
  rw [credited, total_grouped Credit.address Staked.zero _ trivial h.zero (fun _ _ _ => trivial)
    (fun c claim (_ : True) => h.added c.amounts claim) hnone fun _ _ => trivial]
  have hempty : total share ([] : List (String × Staked)) = 0 := rfl
  rw [hempty, zero_add, creditsOf, sum_map_flatMap, sum_contributions]
  simp only [List.map_map, Function.comp_def, h.contributed]

end Columns

theorem nodup_credited (credits : List Credit) : ((credited [] credits).map Prod.fst).Nodup := by
  have hnone : (([] : List (String × Staked)).map Prod.fst).Nodup := List.nodup_nil
  exact nodup_grouped _ _ _ hnone credits

/-- The keys of the claims are the texts of addresses. -/
theorem credited_address {ws : List ValidatorWrapper} {text : String}
    (h : text ∈ (credited [] (creditsOf ws)).map Prod.fst) :
    ∃ a : Address, text = prefixedHex a.data := by
  rw [credited, mem_keys_grouped] at h
  rcases h with h | ⟨c, hc, rfl⟩
  · cases h
  · obtain ⟨w, -, hc⟩ := List.mem_flatMap.mp hc
    obtain ⟨d, -, rfl⟩ := List.mem_map.mp hc
    exact ⟨d.delegatorAddress, rfl⟩

/-! ## Reading the two files -/

/-- A claim under the header of the node export. -/
def nodeRow (entry : String × Staked) : Row := dictRow HistoricalStaking.header (claimCells entry)

theorem addStaked_nodeRow (claims : List (String × Staked)) (entry : String × Staked) :
    ClaimsDiff.addStaked py claims (nodeRow entry) =
      .ok (KeyedTable.set claims (py.lower entry.1) entry.2) := by
  have hactive : (nodeRow entry).get "active_delegation_atto" =
      .ok (some (toString entry.2.active)) := by rfl
  have hpending : (nodeRow entry).get "pending_undelegation_atto" =
      .ok (some (toString entry.2.pendingUndelegation)) := by rfl
  have hreward : (nodeRow entry).get "unclaimed_reward_atto" =
      .ok (some (toString entry.2.unclaimedReward)) := by rfl
  have haddress : (nodeRow entry).get "address" = .ok (some entry.1) := by rfl
  simp only [ClaimsDiff.addStaked, hactive, hpending, hreward, haddress, bind_ok, PyText.parsed,
    py.int_toString, PyText.lowered]

/-- The claims are read back as they were, in the order of their addresses. -/
theorem readStaking_node (py : PyText) (ws : List ValidatorWrapper) :
    ClaimsDiff.readStaking py (dictRows (HistoricalStaking.header ::
        (sorted (credited [] (creditsOf ws))).map claimCells)) =
      .ok (sorted (credited [] (creditsOf ws))) := by
  have hperm := perm_sorted (credited [] (creditsOf ws))
  have hnodup : ((sorted (credited [] (creditsOf ws))).map Prod.fst).Nodup :=
    (hperm.map Prod.fst).nodup_iff.mpr (nodup_credited _)
  have hlower : ∀ entry ∈ sorted (credited [] (creditsOf ws)), py.lower entry.1 = entry.1 := by
    intro entry hentry
    obtain ⟨a, ha⟩ := credited_address (List.mem_map_of_mem (hperm.mem_iff.mp hentry))
    rw [ha, lower_prefixedHex]
  rw [ClaimsDiff.readStaking, dictRows, List.map_map, List.foldlM_map]
  have hstep : ∀ claims, ∀ entry ∈ sorted (credited [] (creditsOf ws)),
      ClaimsDiff.addStaked py claims (nodeRow entry) =
        .ok (KeyedTable.set claims (id entry).1 (id entry).2) := by
    intro claims entry hentry
    rw [addStaked_nodeRow, hlower entry hentry, id]
  rw [← List.map_id (sorted _)] at hnodup
  have hread := foldlM_set hstep hnodup
  rwa [List.map_id] at hread

/-! ## Agreement -/

/-- What the two files and their totals have in common. A file is read as claims by address; the
node's also lists delegators who hold nothing. -/
structure ExportsAgree (py : PyText) (discover : Bool) (fromNode : HistoricalStaking.Output)
    (fromState : StakingClaims.Output) : Prop where
  claims : ∃ listed reported, ClaimsDiff.readStaking py (dictRows fromNode.csv) = .ok listed ∧
    ClaimsDiff.readStaking py (dictRows fromState.csv) = .ok reported ∧
    ∀ text, reported.lookup text = (listed.lookup text).filter (· ≠ .zero)
  active : fromNode.report.activeDelegationAtto = fromState.summary.activeAtto
  pending : fromNode.report.pendingUndelegationAtto = fromState.summary.pendingUndelegationAtto
  reward : fromNode.report.unclaimedRewardAtto = fromState.summary.rewardAtto
  validators : discover = true → fromNode.report.validators = fromState.summary.validatorCount

section Agreement
variable {trie : Trie} {ws : List ValidatorWrapper} (hws : ws.Perm (wrappers codec db trie))
include hws

theorem lookup_credited (a : Address) :
    ((credited [] (creditsOf ws)).lookup (prefixedHex a.data)).getD .zero =
      ⟨held Contribution.active (wrappers codec db trie) a,
        held Contribution.pendingUndelegation (wrappers codec db trie) a,
        held Contribution.reward (wrappers codec db trie) a⟩ := by
  have hactive := shareAt_credited sameActive ws a
  have hpending := shareAt_credited samePending ws a
  have hreward := shareAt_credited sameReward ws a
  rw [held_perm hws] at hactive hpending hreward
  rw [← hactive, ← hpending, ← hreward]
  simp only [shareAt]
  cases (credited [] (creditsOf ws)).lookup (prefixedHex a.data) <;> rfl

/-- A reported claim is the node's, and none is reported where the node's is zero. -/
theorem reported_eq (hinjective : AddressInjective codec.keccak256) {p : Progress}
    (hp : ClaimsOf codec db trie p) (text : String) :
    ((reportedClaims p).map stakedEntry).lookup text =
      ((sorted (credited [] (creditsOf ws))).lookup text).filter (· ≠ .zero) := by
  have hsorted : (sorted (credited [] (creditsOf ws))).lookup text =
      (credited [] (creditsOf ws)).lookup text :=
    (lookup_perm (nodup_credited _) (perm_sorted _).symm text).symm
  rw [hsorted]
  by_cases haddress : ∃ a : Address, text = prefixedHex a.data
  · obtain ⟨a, rfl⟩ := haddress
    have hstate := staked_eq hinjective hp a
    have hkeys := mem_stakedKeys_iff hinjective hp (prefixedHex a.data)
    rw [← lookup_credited hws a] at hstate
    have hstake : HasStake codec db trie a ↔
        ((credited [] (creditsOf ws)).lookup (prefixedHex a.data)).getD .zero ≠ .zero := by
      rw [lookup_credited hws a, HasStake, Staked.zero]
      simp only [ne_eq, Staked.mk.injEq]
      tauto
    cases hreported : ((reportedClaims p).map stakedEntry).lookup (prefixedHex a.data) with
    | some claim =>
      obtain ⟨b, hb, hstaked⟩ := hkeys.mp (List.mem_map_of_mem (mem_of_lookup hreported))
      rw [← text_injective hb, hstake] at hstaked
      rw [hreported, Option.getD_some] at hstate
      cases hlisted : (credited [] (creditsOf ws)).lookup (prefixedHex a.data) with
      | none =>
        rw [hlisted] at hstaked
        exact absurd rfl hstaked
      | some amounts =>
        rw [hlisted, Option.getD_some] at hstaked hstate
        rw [hstate, Option.filter_some, if_pos (by simpa using hstaked)]
    | none =>
      have hnone : ¬ HasStake codec db trie a := fun hstaked =>
        (lookup_eq_none_iff _ _).mp hreported (hkeys.mpr ⟨a, rfl, hstaked⟩)
      rw [hstake, not_not] at hnone
      cases hlisted : (credited [] (creditsOf ws)).lookup (prefixedHex a.data) with
      | none => rfl
      | some amounts =>
        rw [hlisted, Option.getD_some] at hnone
        rw [hnone]
        rfl
  · have hlisted : (credited [] (creditsOf ws)).lookup text = none :=
      (lookup_eq_none_iff _ _).mpr fun hmem => haddress (credited_address hmem)
    have hreported : ((reportedClaims p).map stakedEntry).lookup text = none := by
      refine (lookup_eq_none_iff _ _).mpr fun hmem => haddress ?_
      obtain ⟨a, ha, -⟩ := (mem_stakedKeys_iff hinjective hp text).mp hmem
      exact ⟨a, ha⟩
    rw [hlisted, hreported]
    rfl

end Agreement

/-- A node with one validator on each page, whose every first attempt fails. -/
def sampleNode (ws : List ValidatorWrapper) : Node where
  attempt _ page
    | 0 => .error (.connection "timed out")
    | _ + 1 => .ok ((ws.map fun w => [informationOf w]).getD page [])

theorem sampleNode_serves (block : Int) (ws : List ValidatorWrapper) :
    ServesWrappers (sampleNode ws) block ws (ws.map fun w => [informationOf w]) := by
  have hanswered : ∀ page, AnsweredBy HistoricalStaking.caught ((sampleNode ws).attempt block page) 4
      ((ws.map fun w => [informationOf w]).getD page []) := by
    intro page
    refine ⟨1, by decide, rfl, ?_⟩
    intro j hj
    rw [Nat.lt_one_iff.mp hj]
    exact ⟨.connection "timed out", rfl, rfl⟩
  constructor
  case answered =>
    intro i hi
    have hpage := hanswered i
    rwa [List.getD_eq_getElem _ _ hi] at hpage
  case ended =>
    have hpage := hanswered (ws.map fun w => [informationOf w]).length
    rwa [List.getD_eq_default _ _ (Nat.le_refl _)] at hpage
  case nonempty =>
    intro batch hbatch
    obtain ⟨w, -, rfl⟩ := List.mem_map.mp hbatch
    exact List.cons_ne_nil _ _
  case listed =>
    rw [← List.flatMap_def, ← List.map_eq_flatMap]

end StakingExports
