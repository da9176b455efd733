import Mathlib.Data.List.Sort
import SupplyAudit.NumeralText
import SupplyAudit.TablePublication

/-!
# The December 2023 undelegation mint

`undelegation-mint-reconcile.py` reads the validators of one block page by page
and adds up, for every undelegation that should have been paid once, what its
repeated payouts minted. The node's answers are a parameter, with their numbers
as `int` reads them; the command is followed up to the result that it prints.
-/

namespace UndelegationMint

open NumeralText KeyedTable TablePublication

structure Undelegation where
  epoch : Int
  amount : Int
  deriving DecidableEq

structure Delegation where
  delegatorAddress : String
  undelegations : List Undelegation
  deriving DecidableEq

structure Validator where
  address : String
  delegations : List Delegation
  deriving DecidableEq

structure Block where
  hash : String
  epoch : Int

/-- What the node answers about the block; a page past the last is empty. -/
structure Node where
  blockByNumber : Except String Block
  validators : Nat → Except String (List Validator)

def lockPeriod : Int := 7

def atto : Int := 10 ^ 18

def one (amount : Int) : String :=
  let fraction := toString (amount % atto)
  toString (amount / atto) ++ "." ++ "".pushn '0' (18 - fraction.length) ++ fraction

/-- An entry of the result for one undelegation. -/
structure Entry where
  validator : String
  delegator : String
  undelegationEpoch : Int
  amountAtto : String
  repeatedPayouts : Int
  mintAtto : String
  mintOne : String
  deriving DecidableEq

/-- The variables of the loop over pages. -/
structure ScanState where
  validatorTotals : List (String × Int) := []
  delegatorTotals : List (String × Int) := []
  affectedEntries : List Entry := []
  delegators : List String := []
  entries : Nat := 0
  validatorsScanned : Nat := 0

/-- The body of the loop over the undelegations of a delegation. -/
def addUndelegation (lastPaidEpoch : Int) (validator delegator : String)
    (acc : Int × ScanState) (undelegation : Undelegation) : Int × ScanState :=
  let repeatedPayouts := lastPaidEpoch - (undelegation.epoch + lockPeriod)
  if repeatedPayouts ≤ 0 then acc
  else
    let repeatedMint := undelegation.amount * repeatedPayouts
    let st := acc.2
    (acc.1 + repeatedMint,
      { st with
        delegatorTotals := update st.delegatorTotals delegator 0 fun total => total + repeatedMint
        affectedEntries := st.affectedEntries ++
          [{ validator := validator
             delegator := delegator
             undelegationEpoch := undelegation.epoch
             amountAtto := toString undelegation.amount
             repeatedPayouts := repeatedPayouts
             mintAtto := toString repeatedMint
             mintOne := one repeatedMint }]
        delegators := st.delegators.insert delegator
        entries := st.entries + 1 })

def addDelegation (lastPaidEpoch : Int) (validator : String) (acc : Int × ScanState)
    (delegation : Delegation) : Int × ScanState :=
  delegation.undelegations.foldl
    (addUndelegation lastPaidEpoch validator delegation.delegatorAddress) acc

/-- The body of the loop over a batch: a total that is not zero is assigned. -/
def addValidator (lastPaidEpoch : Int) (st : ScanState) (validator : Validator) : ScanState :=
  let (validatorTotal, st) :=
    validator.delegations.foldl (addDelegation lastPaidEpoch validator.address) (0, st)
  if validatorTotal ≠ 0 then
    { st with
      validatorTotals := KeyedTable.set st.validatorTotals validator.address validatorTotal }
  else st

def addBatch (lastPaidEpoch : Int) (st : ScanState) (batch : List Validator) : ScanState :=
  batch.foldl (addValidator lastPaidEpoch)
    { st with validatorsScanned := st.validatorsScanned + batch.length }

/-- The loop over pages; without fuel it has not ended. -/
def scanPages (node : Node) (lastPaidEpoch : Int) : Nat → Nat → ScanState →
    Option (Except String ScanState)
  | 0, _, _ => none
  | fuel + 1, page, st =>
    match node.validators page with
    | .error err => some (.error err)
    | .ok [] => some (.ok st)
    | .ok batch => scanPages node lastPaidEpoch fuel (page + 1) (addBatch lastPaidEpoch st batch)

structure AmountRow where
  name : String
  atto : String
  one : String
  deriving DecidableEq

structure Result where
  blockHash : String
  epoch : Int
  lastPaidEpoch : Int
  validatorsScanned : Nat
  affectedValidators : Nat
  affectedDelegators : Nat
  badUndelegationEntries : Nat
  totalAtto : String
  totalOne : String
  byValidator : List AmountRow
  byDelegator : List AmountRow
  entries : List Entry

/-- `key=lambda item: (-item[1], item[0])` -/
def LargerFirst (a b : String × Int) : Prop := b.2 < a.2 ∨ a.2 = b.2 ∧ a.1 ≤ b.1

instance : DecidableRel LargerFirst := fun _ _ => inferInstanceAs (Decidable (_ ∨ _))

def amountRow (entry : String × Int) : AmountRow :=
  ⟨entry.1, toString entry.2, one entry.2⟩

def amountRows (table : List (String × Int)) : List AmountRow :=
  (table.insertionSort LargerFirst).map amountRow

/-- The entries by validator, delegator and epoch. -/
def EntryBefore (a b : Entry) : Prop :=
  a.validator < b.validator ∨ a.validator = b.validator ∧
    (a.delegator < b.delegator ∨ a.delegator = b.delegator ∧
      a.undelegationEpoch ≤ b.undelegationEpoch)

instance : DecidableRel EntryBefore := fun _ _ => inferInstanceAs (Decidable (_ ∨ _))

def result (block : Block) (st : ScanState) : Result :=
  let total := (st.validatorTotals.map Prod.snd).sum
  { blockHash := block.hash
    epoch := block.epoch
    lastPaidEpoch := block.epoch - 1
    validatorsScanned := st.validatorsScanned
    affectedValidators := st.validatorTotals.length
    affectedDelegators := st.delegators.length
    badUndelegationEntries := st.entries
    totalAtto := toString total
    totalOne := one total
    byValidator := amountRows st.validatorTotals
    byDelegator := amountRows st.delegatorTotals
    entries := st.affectedEntries.insertionSort EntryBefore }

def main (node : Node) (fuel : Nat) : Option (Except String Result) :=
  match node.blockByNumber with
  | .error err => some (.error err)
  | .ok block =>
    match scanPages node (block.epoch - 1) fuel 0 {} with
    | none => none
    | some (.error err) => some (.error err)
    | some (.ok st) => some (.ok (result block st))

end UndelegationMint
