import SupplyAudit.StateTrie

/-!
# The independent sum of a state

`actual-supply` adds up the balances of a state and, with staking, what its
validator wrappers hold. Wrappers of listed validators are read first, in no
particular order; the iteration over all accounts then skips their keys. In
discovery mode there is no list and every wrapper is met in the iteration.
-/

namespace ActualSupply

open ByteWords NumeralText ReceiptKeys ChainDatabase StateTrie

variable (codec : StateCodec) (db : Database)

structure Accumulator where
  accountCount : Nat := 0
  positiveAccountCount : Nat := 0
  codeBearingAccountCount : Nat := 0
  validatorCount : Nat := 0
  validatorNotInListCount : Nat := 0
  delegationCount : Nat := 0
  undelegationEntryCount : Nat := 0
  liquidBalance : Int := 0
  activeDelegation : Int := 0
  pendingUndelegation : Int := 0
  unclaimedDelegationReward : Int := 0
  validatorLifetimeBlockReward : Int := 0
  validators : List Address := []
  validatorList : List Address := []
  validatorKeys : List Hash := []

/-- The body of the loop over one delegation's undelegations. -/
def addUndelegation (validator delegator : Address) (sum : Accumulator)
    (undelegation : Undelegation) : Except String Accumulator := do
  let amount ← requireNonNegative codec undelegation.amount "undelegation amount" validator
    delegator
  let refused := "invalid undelegation epoch for validator " ++ addressHex codec validator ++
    " delegator " ++ addressHex codec delegator
  match undelegation.epoch with
  | none => .error refused
  | some epoch =>
    if epoch < 0 then .error refused
    else .ok { sum with
      undelegationEntryCount := sum.undelegationEntryCount + 1
      pendingUndelegation := sum.pendingUndelegation + amount }

/-- The body of the loop over a wrapper's delegations. -/
def addDelegation (validator : Address) (sum : Accumulator) (delegation : Delegation) :
    Except String Accumulator := do
  let delegator := delegation.delegatorAddress
  let amount ← requireNonNegative codec delegation.amount "delegation amount" validator delegator
  let reward ← requireNonNegative codec delegation.reward "delegation reward" validator delegator
  delegation.undelegations.foldlM (addUndelegation codec validator delegator)
    { sum with
      delegationCount := sum.delegationCount + 1
      activeDelegation := sum.activeDelegation + amount
      unclaimedDelegationReward := sum.unclaimedDelegationReward + reward }

def addValidator (sum : Accumulator) (secureKey accountCodeHash : Hash) (code : Bytes × Bool) :
    Except String Accumulator :=
  let (encoded, isPrefixed) := code
  if codec.keccak256 encoded ≠ accountCodeHash then
    if isPrefixed then
      .error ("validator code hash mismatch at account key " ++ prefixedHex secureKey.data ++
        ": got " ++ prefixedHex (codec.keccak256 encoded).data ++ " want " ++
        prefixedHex accountCodeHash.data)
    else .ok sum
  else match codec.decodeWrapper encoded with
    | .error err =>
      if isPrefixed then
        .error ("decode prefixed validator code " ++ prefixedHex accountCodeHash.data ++ ": " ++ err)
      else .ok sum
    | .ok wrapper =>
      if codec.keccak256 wrapper.address.data ≠ secureKey then
        if isPrefixed then
          .error ("validator wrapper address " ++ addressHex codec wrapper.address ++
            " does not match account key " ++ prefixedHex secureKey.data)
        else .ok sum
      else if wrapper.address ∈ sum.validators then
        .error ("duplicate validator wrapper " ++ addressHex codec wrapper.address)
      else
        let refused := "invalid lifetime block reward for validator " ++
          addressHex codec wrapper.address
        match wrapper.blockReward with
        | none => .error refused
        | some blockReward =>
          if blockReward < 0 then .error refused
          else wrapper.delegations.foldlM (addDelegation codec wrapper.address)
            { sum with
              validators := wrapper.address :: sum.validators
              validatorCount := sum.validatorCount + 1
              validatorNotInListCount := sum.validatorNotInListCount +
                if wrapper.address ∈ sum.validatorList then 0 else 1
              validatorLifetimeBlockReward := sum.validatorLifetimeBlockReward + blockReward }

structure Flags where
  staking : Bool
  validatorOnly : Bool
  discoverValidators : Bool

def readValidatorList : Except String (List Address) :=
  StateTrie.readValidatorList codec db fun a => "duplicate address " ++ a ++ " in validator-list"

/-- The body of the loop over listed validators. -/
def addListed (trie : Trie) (sum : Accumulator) (address : Address) : Except String Accumulator :=
  match tryGetAccount codec trie address with
  | .error err => .error ("read validator account " ++ addressHex codec address ++ ": " ++ err)
  | .ok none => .error ("validator account " ++ addressHex codec address ++ " has no code")
  | .ok (some account) =>
    if account.codeHash = emptyCodeHash.data then
      .error ("validator account " ++ addressHex codec address ++ " has no code")
    else
      let codeHash := FixedBytes.ofBytes 32 account.codeHash
      let code := validatorCode db codeHash
      if code.1.length = 0 then
        .error ("validator account " ++ addressHex codec address ++ " has no validator code " ++
          prefixedHex codeHash.data)
      else addValidator codec sum (codec.keccak256 address.data) codeHash code

/-- The body of the loop over the trie's leaves. -/
def addLeaf (flags : Flags) (sum : Accumulator) (leaf : Hash × Bytes) :
    Except String Accumulator := do
  let account ← decodedAccount codec leaf.1 leaf.2
  let balance ← checkedBalance leaf.1 account
  let sum := { sum with
    accountCount := sum.accountCount + 1
    liquidBalance := sum.liquidBalance + balance
    positiveAccountCount := sum.positiveAccountCount + if 0 < balance then 1 else 0 }
  if account.codeHash = emptyCodeHash.data then .ok sum
  else
    let sum := { sum with codeBearingAccountCount := sum.codeBearingAccountCount + 1 }
    if flags.staking ∧ (flags.discoverValidators ∨ leaf.1 ∉ sum.validatorKeys) then
      let codeHash := FixedBytes.ofBytes 32 account.codeHash
      let code := validatorCode db codeHash
      if code.1.length ≠ 0 then addValidator codec sum leaf.1 codeHash code else .ok sum
    else .ok sum

structure Totals where
  stateRoot : String
  accountCount : Nat
  positiveAccountCount : Nat
  codeBearingAccountCount : Nat
  liquidBalanceAtto : String
  stakingScanned : Bool
  validatorOnly : Bool
  validatorDiscovery : String
  validatorCount : Nat
  validatorListCount : Nat
  validatorNotInListCount : Nat
  delegationCount : Nat
  undelegationEntryCount : Nat
  activeDelegationAtto : String
  pendingUndelegationAtto : String
  unclaimedDelegationRewardAtto : String
  validatorLifetimeBlockRewardAtto : String
  accountAndStakingClaimsAtto : String

def checkFlags (flags : Flags) : Except String Unit :=
  if flags.validatorOnly ∧ ¬ flags.staking then .error "-validator-only requires -staking"
  else if flags.discoverValidators ∧ ¬ flags.staking then
    .error "-discover-validators requires -staking"
  else if flags.validatorOnly ∧ flags.discoverValidators then
    .error "-validator-only cannot be combined with -discover-validators"
  else .ok ()

/-- The list, where the run reads one. -/
def listedValidators (flags : Flags) : Except String (List Address) :=
  if flags.staking ∧ ¬ flags.discoverValidators then readValidatorList codec db else .ok []

def checkRoot (trie : Trie) (root : Hash) : Except String Unit :=
  if trie.hash ≠ root then
    .error ("opened trie root mismatch: got " ++ prefixedHex trie.hash.data ++ " want " ++
      prefixedHex root.data)
  else .ok ()

def addListedValidators (trie : Trie) (listed : List Address) (sum : Accumulator) :
    Except String Accumulator :=
  listed.foldlM (addListed codec db trie) sum

def addAccounts (flags : Flags) (trie : Trie) (sum : Accumulator) : Except String Accumulator :=
  if flags.validatorOnly then .ok sum
  else do
    let sum ← trie.leaves.foldlM (addLeaf codec db flags) sum
    match trie.iterErr with
    | some err => .error ("state trie iteration: " ++ err)
    | none => .ok sum

def requireWrappers (listed : List Address) (sum : Accumulator) : Except String Accumulator :=
  match listed.find? (fun a => a ∉ sum.validators) with
  | some a =>
    .error ("validator-list address " ++ addressHex codec a ++ " has no wrapper in state")
  | none => .ok sum

/-- The whole scan. Go iterates over the validator list as a map, so a run may
take the listed addresses in any order; `order` is the one it takes. -/
def collect (flags : Flags) (trie : Trie) (root : Hash) (order : List Address → List Address) :
    Except String Accumulator := do
  checkFlags flags
  let listed ← listedValidators codec db flags
  checkRoot trie root
  let sum ← addListedValidators codec db trie (order listed)
    { validatorList := listed, validatorKeys := listed.map fun a => codec.keccak256 a.data }
  let sum ← addAccounts codec db flags trie sum
  requireWrappers codec (order listed) sum

def main (flags : Flags) (trie : Trie) (root : Hash) (order : List Address → List Address) :
    Except String Totals := do
  let sum ← collect codec db flags trie root order
  .ok
    { stateRoot := prefixedHex root.data
      accountCount := sum.accountCount
      positiveAccountCount := sum.positiveAccountCount
      codeBearingAccountCount := sum.codeBearingAccountCount
      liquidBalanceAtto := toString sum.liquidBalance
      stakingScanned := flags.staking
      validatorOnly := flags.validatorOnly
      validatorDiscovery :=
        if flags.staking then
          if flags.discoverValidators then "state-root" else "validator-list"
        else "disabled"
      validatorCount := sum.validatorCount
      validatorListCount := sum.validatorList.length
      validatorNotInListCount := sum.validatorNotInListCount
      delegationCount := sum.delegationCount
      undelegationEntryCount := sum.undelegationEntryCount
      activeDelegationAtto := toString sum.activeDelegation
      pendingUndelegationAtto := toString sum.pendingUndelegation
      unclaimedDelegationRewardAtto := toString sum.unclaimedDelegationReward
      validatorLifetimeBlockRewardAtto := toString sum.validatorLifetimeBlockReward
      accountAndStakingClaimsAtto := toString (sum.liquidBalance + sum.activeDelegation +
        sum.pendingUndelegation + sum.unclaimedDelegationReward) }

end ActualSupply
