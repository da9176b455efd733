import Mathlib.Data.List.Sort
import Mathlib.Data.List.Dedup
import SupplyAudit.KeyedTable
import SupplyAudit.ScriptValues

/-!
# The difference of all claims

`historical-claims-diff.py` joins the state difference with the staking exports
of its two roots by lower-cased address, and lists what every address gained or
lost in each component.
-/

namespace ClaimsDiff

open ScriptValues

inductive ClaimsError where
  | value (err : PyError)
  | missingPreimage (key : Option String)
  deriving DecidableEq

def ClaimsError.text : ClaimsError → String
  | .value err => err.text
  | .missingPreimage key => "missing preimage for " ++ key.getD "None"

/-- A claim of a staking export. -/
structure Staked where
  active : Int
  pendingUndelegation : Int
  unclaimedReward : Int
  deriving DecidableEq

/-- The default of an address without a claim. -/
def Staked.zero : Staked := ⟨0, 0, 0⟩

structure Liquid where
  secureKey : Option String
  oldLiquid : Int
  newLiquid : Int
  deriving DecidableEq

/-- The default of an address without a change. -/
def Liquid.unchanged : Liquid := ⟨some "", 0, 0⟩

structure DiffRow where
  address : String
  secureKey : Option String
  oldLiquid : Int
  newLiquid : Int
  liquidDelta : Int
  activeDelta : Int
  pendingDelta : Int
  rewardDelta : Int
  old : Staked
  new : Staked
  total : Int
  deriving DecidableEq

structure Extreme where
  address : String
  totalClaimDeltaAtto : String
  deriving DecidableEq

structure Summary where
  addresses : Nat
  liquidDeltaAtto : String
  activeDelegationDeltaAtto : String
  pendingUndelegationDeltaAtto : String
  unclaimedRewardDeltaAtto : String
  totalClaimDeltaAtto : String
  topPositive : List Extreme
  topNegative : List Extreme
  deriving DecidableEq

structure Output where
  rows : List DiffRow
  summary : Summary
  deriving DecidableEq

variable (py : PyText)

/-- The body of the loop over a staking export. -/
def addStaked (claims : List (String × Staked)) (row : Row) :
    Except PyError (List (String × Staked)) := do
  let active ← row.get "active_delegation_atto"
  let active ← py.parsed active
  let pending ← row.get "pending_undelegation_atto"
  let pending ← py.parsed pending
  let reward ← row.get "unclaimed_reward_atto"
  let reward ← py.parsed reward
  let address ← row.get "address"
  let address ← py.lowered address
  .ok (KeyedTable.set claims address ⟨active, pending, reward⟩)

def readStaking (rows : List Row) : Except PyError (List (String × Staked)) :=
  rows.foldlM (addStaked py) []

/-- The record of a changed account. -/
def liquidOf (row : Row) : Except PyError Liquid := do
  let secureKey ← row.get "secure_key"
  let oldLiquid ← row.get "old_balance_atto"
  let oldLiquid ← py.parsed oldLiquid
  let newLiquid ← row.get "new_balance_atto"
  let newLiquid ← py.parsed newLiquid
  .ok ⟨secureKey, oldLiquid, newLiquid⟩

/-- The body of the loop over the state difference. -/
def addLiquid (records : List (String × Liquid)) (row : Row) :
    Except ClaimsError (List (String × Liquid)) :=
  match row.get "address" >>= py.lowered with
  | .error err => .error (.value err)
  | .ok address =>
    if address = "" then
      match row.get "secure_key" with
      | .error err => .error (.value err)
      | .ok key => .error (.missingPreimage key)
    else match liquidOf py row with
      | .error err => .error (.value err)
      | .ok record => .ok (KeyedTable.set records address record)

def diffRow (records : List (String × Liquid)) (oldStaking newStaking : List (String × Staked))
    (address : String) : DiffRow :=
  let liquid := (records.lookup address).getD .unchanged
  let old := (oldStaking.lookup address).getD .zero
  let new := (newStaking.lookup address).getD .zero
  let liquidDelta := liquid.newLiquid - liquid.oldLiquid
  let activeDelta := new.active - old.active
  let pendingDelta := new.pendingUndelegation - old.pendingUndelegation
  let rewardDelta := new.unclaimedReward - old.unclaimedReward
  { address := address
    secureKey := liquid.secureKey
    oldLiquid := liquid.oldLiquid
    newLiquid := liquid.newLiquid
    liquidDelta := liquidDelta
    activeDelta := activeDelta
    pendingDelta := pendingDelta
    rewardDelta := rewardDelta
    old := old
    new := new
    total := liquidDelta + activeDelta + pendingDelta + rewardDelta }

structure ComponentTotals where
  liquid : Int := 0
  active : Int := 0
  pending : Int := 0
  reward : Int := 0
  total : Int := 0

def addTotals (totals : ComponentTotals) (row : DiffRow) : ComponentTotals where
  liquid := totals.liquid + row.liquidDelta
  active := totals.active + row.activeDelta
  pending := totals.pending + row.pendingDelta
  reward := totals.reward + row.rewardDelta
  total := totals.total + row.total

/-- The rows are sorted by total and address, the largest first. -/
def Precedes (a b : DiffRow) : Prop := b.total < a.total ∨ b.total = a.total ∧ b.address ≤ a.address

instance : DecidableRel Precedes := fun a b =>
  inferInstanceAs (Decidable (b.total < a.total ∨ b.total = a.total ∧ b.address ≤ a.address))

def extreme (row : DiffRow) : Extreme := ⟨row.address, toString row.total⟩

/-- The addresses of all three files. -/
def addresses (records : List (String × Liquid)) (oldStaking newStaking : List (String × Staked)) :
    List String :=
  (records.map Prod.fst ++ oldStaking.map Prod.fst ++ newStaking.map Prod.fst).dedup

/-- The addresses are a set, which is iterated in an order of its own. -/
def main (order : List String → List String) (liquidDiff oldStakingRows newStakingRows : List Row) :
    Except ClaimsError Output := do
  let oldStaking ← (readStaking py oldStakingRows).mapError .value
  let newStaking ← (readStaking py newStakingRows).mapError .value
  let records ← liquidDiff.foldlM (addLiquid py) []
  let rows := (order (addresses records oldStaking newStaking)).map
    (diffRow records oldStaking newStaking)
  let totals := rows.foldl addTotals {}
  let rows := rows.insertionSort Precedes
  .ok
    { rows := rows
      summary :=
        { addresses := rows.length
          liquidDeltaAtto := toString totals.liquid
          activeDelegationDeltaAtto := toString totals.active
          pendingUndelegationDeltaAtto := toString totals.pending
          unclaimedRewardDeltaAtto := toString totals.reward
          totalClaimDeltaAtto := toString totals.total
          topPositive := (rows.take 20).map extreme
          topNegative := (rows.drop (rows.length - 20)).reverse.map extreme } }

end ClaimsDiff
