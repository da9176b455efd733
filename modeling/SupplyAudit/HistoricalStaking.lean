import SupplyAudit.BatchReplies
import SupplyAudit.BlacklistedAddresses
import SupplyAudit.ClaimsDiff
import SupplyAudit.PagedListing
import SupplyAudit.TablePublication

/-!
# Staking claims from a node

`historical-staking-rpc.py` reads the validators of a block page by page and adds
up what each delegator holds with them, by the decoded address. The node's
answers are a parameter, with their numbers as `int` reads them.
-/

namespace HistoricalStaking

open ScriptValues FallibleScan HarmonyAddress BlacklistedAddresses BatchReplies PagedListing
  TablePublication
open ClaimsDiff (Staked)

/-! ## The node -/

structure Delegation where
  delegatorAddress : String
  amount : Int
  undelegations : List Int
  reward : Int
  deriving DecidableEq

/-- What is read of the information about a validator. -/
structure Information where
  delegations : List Delegation
  deriving DecidableEq

/-- The errors after which a call is made again. -/
def caught : CallError → Bool
  | .connection _ => true
  | .reported _ => true
  | .other _ => false

/-- What comes of each attempt to read a page of the validators of a block. -/
structure Node where
  attempt : Int → Nat → Nat → Except CallError (List Information)

inductive StakingError where
  | rpc (err : CallError)
  | address (err : AddressError)
  | fileExists (path : String)
  deriving DecidableEq

def StakingError.text : StakingError → String
  | .rpc err => err.text
  | .address err => err.text
  | .fileExists path => "[Errno 17] File exists: '" ++ path ++ "'"

def rpc (node : Node) (block : Int) (page : Nat) : Except StakingError (List Information) :=
  (retryIf caught (node.attempt block page) 0 4).mapError .rpc

/-! ## The scan -/

/-- The variables of the loop over pages. -/
structure Progress where
  claims : List (String × Staked) := []
  validators : Nat := 0

def Delegation.staked (d : Delegation) : Staked := ⟨d.amount, d.undelegations.sum, d.reward⟩

def addAmounts (amounts claim : Staked) : Staked where
  active := claim.active + amounts.active
  pendingUndelegation := claim.pendingUndelegation + amounts.pendingUndelegation
  unclaimedReward := claim.unclaimedReward + amounts.unclaimedReward

variable (lower : String → String)

/-- The body of the loop over the delegations of a validator. -/
def addDelegation (claims : List (String × Staked)) (d : Delegation) :
    Except StakingError (List (String × Staked)) := do
  let address ← (stakingDecodeAddress lower d.delegatorAddress).mapError .address
  .ok (KeyedTable.update claims address .zero (addAmounts d.staked))

/-- The body of the loop over pages. A page without validators changes nothing, and the loop ends
with it. -/
def addBatch (p : Progress) (batch : List Information) : Except StakingError Progress := do
  let claims ← batch.foldlM
    (fun claims information => information.delegations.foldlM (addDelegation lower) claims) p.claims
  .ok ⟨claims, p.validators + batch.length⟩

/-! ## The export -/

def header : List String :=
  ["address", "active_delegation_atto", "pending_undelegation_atto", "unclaimed_reward_atto"]

def claimCells (entry : String × Staked) : List String :=
  [entry.1, toString entry.2.active, toString entry.2.pendingUndelegation,
    toString entry.2.unclaimedReward]

structure Args where
  block : Int
  output : String

structure Report where
  block : Int
  validators : Nat
  delegators : Nat
  activeDelegationAtto : String
  pendingUndelegationAtto : String
  unclaimedRewardAtto : String
  output : String

structure Output where
  csv : List (List String)
  report : Report

def publish (args : Args) (p : Progress) : Output where
  csv := header :: (sorted p.claims).map claimCells
  report :=
    { block := args.block
      validators := p.validators
      delegators := p.claims.length
      activeDelegationAtto := toString (KeyedTable.total Staked.active p.claims)
      pendingUndelegationAtto := toString (KeyedTable.total Staked.pendingUndelegation p.claims)
      unclaimedRewardAtto := toString (KeyedTable.total Staked.unclaimedReward p.claims)
      output := args.output }

/-- The output must not exist; without fuel the loop over pages has not ended. -/
def main (node : Node) (args : Args) (outputExists : Bool) (fuel : Nat) :
    Option (Except StakingError Output) :=
  (scanPages (rpc node args.block) List.isEmpty (addBatch lower) fuel 0 {}).map fun scanned =>
    scanned >>= fun p =>
      if outputExists then .error (.fileExists args.output) else .ok (publish args p)

end HistoricalStaking
