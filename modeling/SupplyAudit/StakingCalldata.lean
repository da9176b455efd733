import SupplyAudit.StakingCalls

/-!
# The calldata of staking calls

`decodeStakingCall` reads fixed slices of its input. It takes an input for a valid
call exactly when the input is the ABI encoding of one, which is then the encoding
of what it returns.
-/

namespace StakingCalldata

open ByteWords ReceiptKeys StakingCalls

/-! ## Encodings -/

/-- An address as an ABI word, padded with zero bytes on the left. -/
def addressWord (address : Address) : Bytes := List.replicate 12 0 ++ address.data

def amountWord (amount : Nat) : Bytes := ofNat 32 amount

/-- The two methods that name a validator and an amount, with their selectors. -/
def stakeMethods : List (String × Bytes) :=
  [("Delegate", delegateSelector), ("Undelegate", undelegateSelector)]

def encodeStake (selector : Bytes) (delegator target : Address) (amount : Nat) : Bytes :=
  selector ++ (addressWord delegator ++ (addressWord target ++ amountWord amount))

def encodeRewards (delegator : Address) : Bytes := rewardsSelector ++ addressWord delegator

/-- The encoding of what was read from an input. -/
def encodeCall (call : StakingCall) : Bytes :=
  match stakeMethods.lookup call.method with
  | some selector => encodeStake selector call.delegator call.target call.amount
  | none => encodeRewards call.delegator

def stakeCall (method : String) (delegator target : Address) (amount : Nat) : StakingCall where
  method := method
  delegator := delegator
  target := target
  amount := amount
  valid := true

def rewardsCall (delegator : Address) : StakingCall where
  method := "CollectRewards"
  delegator := delegator
  valid := true

/-! ## Slices -/

/-- Adjacent slices are one slice. -/
theorem slice_append (input : Bytes) {start middle stop : Nat} (hstart : start ≤ middle)
    (hstop : middle ≤ stop) :
    slice input start middle ++ slice input middle stop = slice input start stop := by
  have hdrop : input.drop middle = (input.drop start).drop (middle - start) := by
    rw [List.drop_drop]
    congr 1
    omega
  have htotal : stop - start = middle - start + (stop - middle) := by omega
  rw [slice, slice, slice, hdrop, htotal, List.take_add]

theorem length_slice {input : Bytes} {start stop : Nat} (h : stop ≤ input.length) :
    (slice input start stop).length = stop - start := by
  rw [slice, List.length_take, List.length_drop]
  omega

/-- The part between two parts of known lengths. -/
theorem slice_part (front part back : Bytes) {start stop : Nat} (hfront : front.length = start)
    (hpart : start + part.length = stop) : slice (front ++ (part ++ back)) start stop = part := by
  subst hfront hpart
  rw [slice, List.drop_left, Nat.add_sub_cancel_left, List.take_left]

/-- An input of a known length is its selector and the slice after it. -/
theorem take_append_slice {input : Bytes} {stop : Nat} (hlength : input.length = stop) :
    input.take 4 ++ slice input 4 stop = input := by
  have hall : slice input 4 stop = input.drop 4 := by
    rw [slice, ← hlength, ← List.length_drop, List.take_length]
  rw [hall, List.take_append_drop]

theorem addressWord_slice {input : Bytes} {start middle stop : Nat}
    (hpadding : slice input start middle = List.replicate 12 0) (hstart : start ≤ middle)
    (hstop : middle + 20 = stop) (hlength : stop ≤ input.length) :
    addressWord (.ofBytes 20 (slice input middle stop)) = slice input start stop := by
  have hsize : (slice input middle stop).length = 20 := by
    rw [length_slice hlength]
    omega
  rw [addressWord, FixedBytes.ofBytes_of_length hsize, ← hpadding]
  exact slice_append input hstart (by omega)

theorem amountWord_slice {input : Bytes} {start stop : Nat} (hstop : start + 32 = stop)
    (hlength : stop ≤ input.length) :
    toNat (slice input start stop) < 2 ^ 256 ∧
      amountWord (toNat (slice input start stop)) = slice input start stop := by
  have hsize : (slice input start stop).length = 32 := by
    rw [length_slice hlength]
    omega
  have hlt := toNat_lt (slice input start stop)
  have hword := ofNat_toNat (slice input start stop)
  rw [hsize] at hlt hword
  exact ⟨hlt, hword⟩

/-! ## Decoding -/

theorem methodOf_stake {method : String} {selector : Bytes}
    (h : (method, selector) ∈ stakeMethods) :
    methodOf selector = some method ∧ selector.length = 4 ∧ method ≠ "CollectRewards" := by
  simp only [stakeMethods, List.mem_cons, List.not_mem_nil, or_false, Prod.mk.injEq] at h
  rcases h with ⟨rfl, rfl⟩ | ⟨rfl, rfl⟩
  · decide
  · decide

theorem methodOf_rewards : methodOf rewardsSelector = some "CollectRewards" := by decide

/-- A known selector is that of its method. -/
theorem selector_of_methodOf {selector : Bytes} {method : String}
    (h : methodOf selector = some method) :
    (method, selector) ∈ stakeMethods ∨ method = "CollectRewards" ∧ selector = rewardsSelector := by
  rw [methodOf] at h
  split at h
  · rename_i hdelegate
    cases h
    exact Or.inl (hdelegate ▸ List.mem_cons_self)
  · split at h
    · rename_i hundelegate
      cases h
      exact Or.inl (hundelegate ▸ List.mem_cons_of_mem _ List.mem_cons_self)
    · split at h
      · rename_i hrewards
        cases h
        exact Or.inr ⟨rfl, hrewards⟩
      · cases h

theorem length_addressWord (address : Address) : (addressWord address).length = 32 := by
  simp [addressWord, address.size]

/-- What follows the selector of a delegation, slice by slice. -/
structure StakeSlices (input selector : Bytes) (delegator target : Address) (amount : Bytes) :
    Prop where
  length : input.length = 100
  selector : input.take 4 = selector
  delegatorPadding : slice input 4 16 = List.replicate 12 0
  delegator : slice input 16 36 = delegator.data
  targetPadding : slice input 36 48 = List.replicate 12 0
  target : slice input 48 68 = target.data
  amount : slice input 68 100 = amount

theorem stakeSlices {selector amount : Bytes} (delegator target : Address)
    (hselector : selector.length = 4) (hamount : amount.length = 32) :
    StakeSlices (selector ++ (addressWord delegator ++ (addressWord target ++ amount))) selector
      delegator target amount := by
  have hdelegator := length_addressWord delegator
  have htarget := length_addressWord target
  let padding : Bytes := List.replicate 12 0
  have hpadding : padding.length = 12 := List.length_replicate
  constructor
  case length => simp [hdelegator, htarget, hselector, hamount]
  case selector => rw [← hselector, List.take_left]
  case delegatorPadding =>
    have hpart := slice_part selector padding (delegator.data ++ (addressWord target ++ amount))
      hselector (congrArg (4 + ·) hpadding)
    simpa only [addressWord, List.append_assoc] using hpart
  case delegator =>
    have hfront : (selector ++ padding).length = 16 := by rw [List.length_append]; omega
    have hpart := slice_part (selector ++ padding) delegator.data (addressWord target ++ amount)
      hfront (congrArg (16 + ·) delegator.size)
    simpa only [addressWord, List.append_assoc] using hpart
  case targetPadding =>
    have hfront : (selector ++ addressWord delegator).length = 36 := by
      rw [List.length_append]
      omega
    have hpart := slice_part (selector ++ addressWord delegator) padding (target.data ++ amount)
      hfront (congrArg (36 + ·) hpadding)
    simpa only [addressWord, List.append_assoc] using hpart
  case target =>
    have hfront : (selector ++ (addressWord delegator ++ padding)).length = 48 := by
      rw [List.length_append, List.length_append]
      omega
    have hpart := slice_part (selector ++ (addressWord delegator ++ padding)) target.data amount
      hfront (congrArg (48 + ·) target.size)
    simpa only [addressWord, List.append_assoc] using hpart
  case amount =>
    have hfront : (selector ++ (addressWord delegator ++ addressWord target)).length = 68 := by
      rw [List.length_append, List.length_append]
      omega
    have hpart := slice_part (selector ++ (addressWord delegator ++ addressWord target)) amount []
      hfront (congrArg (68 + ·) hamount)
    simpa only [List.append_assoc, List.append_nil] using hpart

/-- The encoding of a delegation is decoded to it. -/
theorem decode_encodeStake {method : String} {selector : Bytes}
    (h : (method, selector) ∈ stakeMethods) (delegator target : Address) {amount : Nat}
    (hamount : amount < 2 ^ 256) :
    decodeStakingCall (encodeStake selector delegator target amount) =
      stakeCall method delegator target amount := by
  obtain ⟨hmethod, hselector, hstake⟩ := methodOf_stake h
  have hslices := stakeSlices delegator target hselector (length_ofNat 32 amount)
  have hread : toNat (ofNat 32 amount) = amount := toNat_ofNat_of_lt hamount
  have hlong : ¬ (encodeStake selector delegator target amount).length < 4 := by
    rw [encodeStake, amountWord, hslices.length]
    decide
  rw [decodeStakingCall, if_neg hlong]
  rw [encodeStake, amountWord, hslices.selector, hmethod]
  simp only [if_neg hstake, hslices.length, hslices.delegatorPadding, hslices.delegator,
    hslices.targetPadding, hslices.target, hslices.amount, ne_eq, not_true_eq_false, or_self,
    if_false, FixedBytes.ofBytes_data, hread, stakeCall]

theorem decode_encodeRewards (delegator : Address) :
    decodeStakingCall (encodeRewards delegator) = rewardsCall delegator := by
  have hlength : (encodeRewards delegator).length = 36 := by
    rw [encodeRewards, List.length_append, length_addressWord]
    rfl
  have htake : (encodeRewards delegator).take 4 = rewardsSelector :=
    List.take_append_of_le_length (Nat.le_refl 4)
  have hpadding : slice (encodeRewards delegator) 4 16 = List.replicate 12 0 :=
    slice_part rewardsSelector (List.replicate 12 0) delegator.data rfl rfl
  have hdelegator : slice (encodeRewards delegator) 16 36 = delegator.data := by
    have hfront : (rewardsSelector ++ List.replicate 12 (0 : UInt8)).length = 16 := rfl
    have hpart := slice_part (rewardsSelector ++ List.replicate 12 0) delegator.data [] hfront
      (congrArg (16 + ·) delegator.size)
    simpa only [encodeRewards, addressWord, List.append_assoc, List.append_nil] using hpart
  have hlong : ¬ (encodeRewards delegator).length < 4 := by
    rw [hlength]
    decide
  rw [decodeStakingCall, if_neg hlong, htake, methodOf_rewards]
  simp only [hlength, hpadding, hdelegator, ne_eq, not_true_eq_false, or_self, if_false, if_true,
    FixedBytes.ofBytes_data, rewardsCall]

/-- An input is not the calldata of a call, or it is the encoding of what is returned. -/
theorem decode_cases (input : Bytes) :
    (decodeStakingCall input).valid = false ∧ (decodeStakingCall input).target = .zero 20 ∨
      (∃ delegator, input = encodeRewards delegator) ∨
      ∃ method selector delegator target amount, (method, selector) ∈ stakeMethods ∧
        amount < 2 ^ 256 ∧ input = encodeStake selector delegator target amount := by
  by_cases hshort : input.length < 4
  · rw [decodeStakingCall, if_pos hshort]
    exact Or.inl ⟨rfl, rfl⟩
  cases hmethod : methodOf (input.take 4) with
  | none =>
    rw [decodeStakingCall, if_neg hshort, hmethod]
    exact Or.inl ⟨rfl, rfl⟩
  | some method =>
    rcases selector_of_methodOf hmethod with hstake | ⟨hrewards, hselector⟩
    · by_cases hbad : input.length ≠ 100 ∨ slice input 4 16 ≠ List.replicate 12 0 ∨
          slice input 36 48 ≠ List.replicate 12 0
      · have hdecode : decodeStakingCall input = { method := method, valid := false } := by
          rw [decodeStakingCall, if_neg hshort, hmethod]
          simp only [if_neg (methodOf_stake hstake).2.2, if_pos hbad]
        rw [hdecode]
        exact Or.inl ⟨rfl, rfl⟩
      · rw [not_or, not_or, not_not, not_not, not_not] at hbad
        obtain ⟨hlength, hfirst, hsecond⟩ := hbad
        have hwritten : toNat (slice input 68 100) < 2 ^ 256 ∧
            amountWord (toNat (slice input 68 100)) = slice input 68 100 :=
          amountWord_slice rfl (Nat.le_of_eq hlength.symm)
        obtain ⟨hamount, hword⟩ := hwritten
        refine Or.inr (Or.inr ⟨method, input.take 4, .ofBytes 20 (slice input 16 36),
          .ofBytes 20 (slice input 48 68), toNat (slice input 68 100), hstake, hamount, ?_⟩)
        rw [encodeStake, hword, addressWord_slice hfirst (by decide) rfl (by omega),
          addressWord_slice hsecond (by decide) rfl (by omega),
          slice_append input (by decide) (by decide), slice_append input (by decide) (by decide),
          take_append_slice hlength]
    · by_cases hbad : input.length ≠ 36 ∨ slice input 4 16 ≠ List.replicate 12 0
      · have hdecode : decodeStakingCall input = { method := method, valid := false } := by
          rw [decodeStakingCall, if_neg hshort, hmethod]
          simp only [if_pos hrewards, if_pos hbad]
        rw [hdecode]
        exact Or.inl ⟨rfl, rfl⟩
      · rw [not_or, not_not, not_not] at hbad
        obtain ⟨hlength, hpadding⟩ := hbad
        refine Or.inr (Or.inl ⟨.ofBytes 20 (slice input 16 36), ?_⟩)
        rw [encodeRewards, ← hselector, addressWord_slice hpadding (by decide) rfl (Nat.le_of_eq hlength.symm),
          take_append_slice hlength]

theorem lookup_stakeMethods : ∀ entry ∈ stakeMethods,
    stakeMethods.lookup entry.1 = some entry.2 := by
  decide

theorem encodeCall_stakeCall {method : String} {selector : Bytes}
    (h : (method, selector) ∈ stakeMethods) (delegator target : Address) (amount : Nat) :
    encodeCall (stakeCall method delegator target amount) =
      encodeStake selector delegator target amount := by
  have hlookup : stakeMethods.lookup (stakeCall method delegator target amount).method =
      some selector := lookup_stakeMethods (method, selector) h
  rw [encodeCall, hlookup]
  rfl

/-- The decoder takes the encodings of calls and nothing else, and inverts them. -/
structure DecodesExactly : Prop where
  stake : ∀ entry ∈ stakeMethods, ∀ input,
    (decodeStakingCall input).valid = true ∧ (decodeStakingCall input).method = entry.1 ↔
      ∃ delegator target amount, amount < 2 ^ 256 ∧
        input = encodeStake entry.2 delegator target amount
  rewards : ∀ input,
    (decodeStakingCall input).valid = true ∧ (decodeStakingCall input).method = "CollectRewards" ↔
      ∃ delegator, input = encodeRewards delegator
  reencoded : ∀ input, (decodeStakingCall input).valid = true →
    encodeCall (decodeStakingCall input) = input
  stakeReturned : ∀ entry ∈ stakeMethods, ∀ delegator target amount, amount < 2 ^ 256 →
    decodeStakingCall (encodeStake entry.2 delegator target amount) =
      stakeCall entry.1 delegator target amount
  rewardsReturned : ∀ delegator,
    decodeStakingCall (encodeRewards delegator) = rewardsCall delegator

theorem calldata_decodes_exactly : DecodesExactly := by
  constructor
  case stake =>
    intro entry hentry input
    constructor
    · rintro ⟨hvalid, hmethod⟩
      rcases decode_cases input with ⟨hinvalid, -⟩ | ⟨delegator, rfl⟩ |
        ⟨method, selector, delegator, target, amount, hstake, hamount, rfl⟩
      · rw [hinvalid] at hvalid
        cases hvalid
      · rw [decode_encodeRewards] at hmethod
        exact absurd hmethod.symm (methodOf_stake hentry).2.2
      · rw [decode_encodeStake hstake delegator target hamount] at hmethod
        have hselector := lookup_stakeMethods _ hstake
        rw [show method = entry.1 from hmethod, lookup_stakeMethods entry hentry] at hselector
        exact ⟨delegator, target, amount, hamount, by rw [Option.some.inj hselector]⟩
    · rintro ⟨delegator, target, amount, hamount, rfl⟩
      rw [decode_encodeStake hentry delegator target hamount]
      exact ⟨rfl, rfl⟩
  case rewards =>
    intro input
    constructor
    · rintro ⟨hvalid, hmethod⟩
      rcases decode_cases input with ⟨hinvalid, -⟩ | hrewards |
        ⟨method, selector, delegator, target, amount, hstake, hamount, rfl⟩
      · rw [hinvalid] at hvalid
        cases hvalid
      · exact hrewards
      · rw [decode_encodeStake hstake delegator target hamount] at hmethod
        exact absurd hmethod (methodOf_stake hstake).2.2
    · rintro ⟨delegator, rfl⟩
      rw [decode_encodeRewards]
      exact ⟨rfl, rfl⟩
  case reencoded =>
    intro input hvalid
    rcases decode_cases input with ⟨hinvalid, -⟩ | ⟨delegator, rfl⟩ |
      ⟨method, selector, delegator, target, amount, hstake, hamount, rfl⟩
    · rw [hinvalid] at hvalid
      cases hvalid
    · rw [decode_encodeRewards]
      rfl
    · rw [decode_encodeStake hstake delegator target hamount]
      exact encodeCall_stakeCall hstake delegator target amount
  case stakeReturned =>
    intro entry hentry delegator target amount hamount
    exact decode_encodeStake hentry delegator target hamount
  case rewardsReturned => exact decode_encodeRewards

end StakingCalldata
