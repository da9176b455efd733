import SupplyAudit.AuditFiles

/-!
# The historical closure

`historical-closure.py` recomputes, checkpoint by checkpoint, what remains of the
state after the formula and the named adjustments. A value of the configuration
is a numeral or a field of another file; the files are a parameter.
-/

namespace HistoricalClosure

open ScriptValues AuditFiles

/-- A value of the configuration. -/
inductive Specification where
  | literal (text : String)
  | field (path field : String)
  | invalid (shown : String)
  deriving DecidableEq

structure Checkpoint where
  name : String
  shard0Claims : Specification
  shard1Claims : Specification
  blockRewardAccumulator : Specification
  adjustments : List (String × Specification) := []
  expectedResidual : Option Int := none
  expectedChange : Option Int := none

structure Configuration where
  genesis : Specification
  preStakingRewards : Specification
  checkpoints : List Checkpoint

/-- A point of the result. -/
structure Point where
  name : String
  shard0Claims : Int
  shard1Claims : Int
  blockRewardAccumulator : Int
  formula : Int
  formulaGap : Int
  adjustments : List (String × Int)
  residual : Int
  changeFromPrevious : Option Int
  deriving DecidableEq

variable (py : PyText) (nested : String → String → Except AuditError (Option String))

def resolve : Specification → Except AuditError Int
  | .literal text => raisePython (py.parsed (some text))
  | .field path field => do
    let value ← nested path field
    raisePython (py.parsed value)
  | .invalid shown => .error (.typeError ("invalid value specification: " ++ shown))

def resolveAdjustment (adjustment : String × Specification) : Except AuditError (String × Int) := do
  let value ← resolve py nested adjustment.2
  .ok (adjustment.1, value)

/-- `"name" in point and value != int(point["name"])` -/
def unexpected (expected value : Option Int) : Prop := expected.isSome = true ∧ value ≠ expected

instance (expected value : Option Int) : Decidable (unexpected expected value) :=
  inferInstanceAs (Decidable (_ ∧ _))

/-- The body of the loop over checkpoints, with the points so far and the last residual. -/
def addPoint (formulaBase : Int) (acc : List Point × Option Int) (point : Checkpoint) :
    Except AuditError (List Point × Option Int) := do
  let shard0 ← resolve py nested point.shard0Claims
  let shard1 ← resolve py nested point.shard1Claims
  let accumulator ← resolve py nested point.blockRewardAccumulator
  let adjustments ← point.adjustments.mapM (resolveAdjustment py nested)
  let formula := formulaBase + accumulator
  let formulaGap := shard0 + shard1 - formula
  let residual := formulaGap - (adjustments.map Prod.snd).sum
  let change := acc.2.map fun previous => residual - previous
  require (¬ unexpected point.expectedResidual (some residual))
    (.valueError (point.name ++ ": residual " ++ toString residual ++ " != expected " ++
      toString (point.expectedResidual.getD 0)))
  require (¬ unexpected point.expectedChange change)
    (.valueError (point.name ++ ": change " ++ ((change.map toString).getD "None") ++
      " != expected " ++ toString (point.expectedChange.getD 0)))
  .ok (acc.1 ++ [⟨point.name, shard0, shard1, accumulator, formula, formulaGap, adjustments,
    residual, change⟩], some residual)

def calculate (configuration : Configuration) : Except AuditError (List Point) := do
  let genesis ← resolve py nested configuration.genesis
  let preStaking ← resolve py nested configuration.preStakingRewards
  let (points, _) ← configuration.checkpoints.foldlM
    (addPoint py nested (genesis + preStaking)) ([], none)
  .ok points

end HistoricalClosure
