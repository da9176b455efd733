import Mathlib.Data.List.Sort
import SupplyAudit.KeyedTable
import SupplyAudit.StateTrie

/-!
# The staking claims

`staking-claims` reads validator wrappers, either of the accounts that the
database lists as validators or of every account with code, and adds up what
each delegator holds in them. Delegators who hold nothing are dropped.
-/

namespace StakingClaims

open ByteWords NumeralText ReceiptKeys ChainDatabase StateTrie

variable (codec : StateCodec) (db : Database)

def header : List String :=
  ["secure_key", "address", "active_delegation_atto", "pending_undelegation_atto",
    "unclaimed_reward_atto"]

structure Claim where
  address : Address
  active : Int
  pendingUndelegation : Int
  reward : Int
  deriving DecidableEq

structure Progress where
  claims : List (Hash × Claim) := []
  activeTotal : Int := 0
  pendingTotal : Int := 0
  rewardTotal : Int := 0
  validatorCount : Nat := 0
  delegationCount : Nat := 0
  undelegationCount : Nat := 0
  seenValidators : List Address := []

/-- `hash.Hex()` -/
def hashHex (hash : Hash) : String := prefixedHex hash.data

/-- The body of the loop over one delegation's undelegations; `key` is the
delegator's entry, which exists by then. -/
def addUndelegation (validator delegator : Address) (key : Hash) (p : Progress)
    (undelegation : Undelegation) : Except String Progress := do
  let amount ← requireNonNegative codec undelegation.amount "pending undelegation" validator
    delegator
  let refused := "invalid undelegation epoch for validator " ++ addressHex codec validator ++
    " delegator " ++ addressHex codec delegator
  match undelegation.epoch with
  | none => .error refused
  | some epoch =>
    if epoch < 0 then .error refused
    else
      let entry := (p.claims.lookup key).getD ⟨delegator, 0, 0, 0⟩
      .ok { p with
        undelegationCount := p.undelegationCount + 1
        claims := KeyedTable.set p.claims key
          { entry with pendingUndelegation := entry.pendingUndelegation + amount }
        pendingTotal := p.pendingTotal + amount }

/-- The body of the loop over a wrapper's delegations. -/
def addDelegation (validator : Address) (acc : List Address × Progress)
    (delegation : Delegation) : Except String (List Address × Progress) :=
  let delegator := delegation.delegatorAddress
  if delegator ∈ acc.1 then
    .error ("duplicate delegator " ++ addressHex codec delegator ++ " within validator " ++
      addressHex codec validator)
  else do
    let amount ← requireNonNegative codec delegation.amount "active delegation" validator delegator
    let reward ← requireNonNegative codec delegation.reward "reward" validator delegator
    let key := codec.keccak256 delegator.data
    let p := acc.2
    let entry := (p.claims.lookup key).getD ⟨delegator, 0, 0, 0⟩
    if entry.address ≠ delegator then
      .error ("secure-key collision for delegator " ++ addressHex codec delegator)
    else do
      let p ← delegation.undelegations.foldlM (addUndelegation codec validator delegator key)
        { p with
          delegationCount := p.delegationCount + 1
          claims := KeyedTable.set p.claims key
            { entry with active := entry.active + amount, reward := entry.reward + reward }
          activeTotal := p.activeTotal + amount
          rewardTotal := p.rewardTotal + reward }
      .ok (delegator :: acc.1, p)

/-- `processValidator`: whether the code is the account's wrapper, and the
progress after it. Only code found under the prefix must be one. -/
def processValidator (secureKey codeHash : Hash) (code : Bytes × Bool) (p : Progress) :
    Except String (Bool × Progress) :=
  let (encoded, isPrefixed) := code
  if encoded.length = 0 ∨ codec.keccak256 encoded ≠ codeHash then
    if isPrefixed then
      .error ("validator code missing or hash mismatch for secure key " ++ hashHex secureKey)
    else .ok (false, p)
  else match codec.decodeWrapper encoded with
    | .error err =>
      if isPrefixed then
        .error ("decode validator at secure key " ++ hashHex secureKey ++ ": " ++ err)
      else .ok (false, p)
    | .ok wrapper =>
      if codec.keccak256 wrapper.address.data ≠ secureKey then
        if isPrefixed then
          .error ("validator wrapper address " ++ addressHex codec wrapper.address ++
            " does not match secure key " ++ hashHex secureKey)
        else .ok (false, p)
      else if wrapper.address ∈ p.seenValidators then
        .error ("duplicate validator wrapper " ++ addressHex codec wrapper.address)
      else do
        let (_, p) ← wrapper.delegations.foldlM (addDelegation codec wrapper.address)
          ([], { p with
            seenValidators := wrapper.address :: p.seenValidators
            validatorCount := p.validatorCount + 1 })
        .ok (true, p)

/-- The body of the loop over all accounts. -/
def discoverLeaf (p : Progress) (leaf : Hash × Bytes) : Except String Progress := do
  let account ← decodedAccount codec leaf.1 leaf.2
  let codeHash := FixedBytes.ofBytes 32 account.codeHash
  if codeHash = emptyCodeHash then .ok p
  else
    let code := validatorCode db codeHash
    if code.1.length ≠ 0 then do
      let (_, p) ← processValidator codec leaf.1 codeHash code p
      .ok p
    else .ok p

def readValidatorList : Except String (List Address) :=
  StateTrie.readValidatorList codec db fun a => "duplicate validator-list address " ++ a

/-- The body of the loop over listed validators. -/
def listedValidator (trie : Trie) (p : Progress) (address : Address) : Except String Progress :=
  match tryGetAccount codec trie address with
  | .error err =>
    .error ("read validator account " ++ addressHex codec address ++ ": " ++ err)
  | .ok none => .error ("read validator account " ++ addressHex codec address ++ ": <nil>")
  | .ok (some account) =>
    let codeHash := FixedBytes.ofBytes 32 account.codeHash
    if codeHash = emptyCodeHash then
      .error ("validator " ++ addressHex codec address ++ " has empty code hash")
    else do
      let (valid, p) ← processValidator codec (codec.keccak256 address.data) codeHash
        (validatorCode db codeHash) p
      if valid then .ok p
      else .error ("validator " ++ addressHex codec address ++ " has no valid wrapper")

def Claim.isZero (c : Claim) : Bool :=
  c.active = 0 ∧ c.pendingUndelegation = 0 ∧ c.reward = 0

def bytesCompare : Bytes → Bytes → Int
  | a :: as, b :: bs => if a < b then -1 else if b < a then 1 else bytesCompare as bs
  | _, _ => 0

/-- The delegators who hold something, in key order. -/
def reportedClaims (p : Progress) : List (Hash × Claim) :=
  (p.claims.filter fun entry => !entry.2.isZero).insertionSort
    fun a b => ¬ bytesCompare b.1.data a.1.data < 0

def claimRecord (entry : Hash × Claim) : List String :=
  [hashHex entry.1, addressHex codec entry.2.address, toString entry.2.active,
    toString entry.2.pendingUndelegation, toString entry.2.reward]

structure Summary where
  stateRoot : String
  validatorDiscovery : String
  validatorCount : Nat
  delegationCount : Nat
  delegatorCount : Nat
  undelegationEntryCount : Nat
  activeAtto : String
  pendingUndelegationAtto : String
  rewardAtto : String

structure Output where
  csv : List (List String)
  summary : Summary

/-- The scan itself: what is collected from the state. -/
def collect (trie : Trie) (discover : Bool) : Except String Progress :=
  if discover then do
    let p ← trie.leaves.foldlM (discoverLeaf codec db) {}
    match trie.iterErr with
    | some err => .error ("iterate state root for validators: " ++ err)
    | none => .ok p
  else do
    let validators ← readValidatorList codec db
    validators.foldlM (listedValidator codec db trie) {}

def main (trie : Trie) (root : Hash) (discover : Bool) : Except String Output := do
  let p ← collect codec db trie discover
  .ok
    { csv := header :: (reportedClaims p).map (claimRecord codec)
      summary :=
        { stateRoot := hashHex root
          validatorDiscovery := if discover then "state-root" else "validator-list"
          validatorCount := p.validatorCount
          delegationCount := p.delegationCount
          delegatorCount := (reportedClaims p).length
          undelegationEntryCount := p.undelegationCount
          activeAtto := toString p.activeTotal
          pendingUndelegationAtto := toString p.pendingTotal
          rewardAtto := toString p.rewardTotal } }

end StakingClaims
