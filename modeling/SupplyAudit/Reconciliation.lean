import SupplyAudit.HistoricalClosure
import SupplyAudit.NonIssuanceAudit
import SupplyAudit.TablePublication

/-!
# Reconciliation verification

`verify-reconciliation.py` loads the published result files and checks that
their figures agree. Numbers of the JSON files are given as `int` reads them,
and digests and sizes of files as the system reports them.
-/

namespace Reconciliation

open ScriptValues FallibleScan KeyedTable TablePublication AuditFiles NonIssuanceAudit
  HistoricalClosure

/-! ## Result files -/

structure Component where
  name : String
  atto : Int
  deriving DecidableEq

structure MaxRate where
  netStateFormulaEffectAtCleanup : Int
  activationInclusivePeak : Int
  postCheckpointPeak : Int
  activationOpening : Int
  peakIsNotSecondPayout : Bool
  staleLiabilitiesRemoved : Int
  rewardsNotCommitted : Int
  equationClosure : Int
  measuredThroughOctober : Int

/-- How a policy section treats the amounts that are not issued. -/
structure PolicySemantics where
  treasuryDestination : Option String
  availableForOtherUse : Bool
  oldChainGrossClaimChanged : Bool
  migrationAllocationReduced : Bool
  fixedTotalSupplyChanged : Bool
  compositePolicySummary : String

structure ReconciliationFile where
  components : List Component
  stateGap : Int
  pendingReceipts : Int
  claimGap : Int
  maxRate : MaxRate
  knownNet : Int
  knownPeak : Int
  preExistingNet : Int
  treasuryReclaim : String
  policy : PolicySemantics

structure FormulaInput where
  genesis : Int
  preStakingRewards : Int
  baseAccumulator : Int
  baseWrapperRewards : Int
  cutoffWrapperRewards : Int
  wrapperRewardDelta : Int
  reconstructedAccumulator : Int
  formulaBeforeExclusions : Int

structure LedgerSummary where
  liquidShard1 : Int
  totalClaim : Int
  pendingCrossShard : Int

structure DecemberResult where
  total : Int
  byDelegator : List Int

structure BurnAudit where
  inaccessible : List Int
  inaccessibleTotal : Int

structure PrecompileAudit where
  blocksScanned : Int
  topLevelCalls : Int
  unknownTargetTransactions : Int

structure TreasuryInventory where
  treasuryReclaim : String
  policyStatus : String

/-- A CSV file with its digest and size. -/
structure HashedCsv where
  name : String
  rows : List Row
  sha256 : String
  bytes : Int

structure LeakSection where
  notIssued : Int
  positiveAddresses : Int
  sourceSha256 : String

structure NonIssuanceFile where
  migrationTreatment : String
  policy : PolicySemantics
  existingNotIssued : Int
  retainedNotIssued : Int
  retainedOverlaps : Bool
  leak : Option LeakSection
  notIssued : Int
  grossCutoffClaim : Int
  remaining : Int
  retainedRows : Int
  retainedSha256 : String

structure Asset where
  name : String
  bytes : Int
  rows : Int
  sha256 : String
  deriving DecidableEq

/-- What the command loads. -/
structure Inputs where
  reconciliation : ReconciliationFile
  formula : FormulaInput
  cutoffSupplyClaims : Int
  ledger : LedgerSummary
  pendingActive : Int
  closure : Configuration
  closureFiles : String → String → Except AuditError (Option String)
  december : DecemberResult
  burn : BurnAudit
  precompile : PrecompileAudit
  treasury : TreasuryInventory
  nonIssuance : NonIssuanceFile
  heldCaps : List Int
  retainedCsv : HashedCsv
  isFile : String → Bool
  releaseAssets : List Asset
  leakCsv : HashedCsv

variable (py : PyText)

/-- `if not condition: raise ValueError(text)` -/
def demand (condition : Prop) [Decidable condition] (text : String) : Except AuditError Unit :=
  require condition (.valueError text)

/-- `table[key]` -/
def item {β : Type} (table : List (String × β)) (key : String) : Except AuditError β :=
  match table.lookup key with
  | none => .error (.keyError key)
  | some value => .ok value

/-! ## Components -/

def legacyName : String := "proven_cross_shard_rollback_leakage"

def traceName : String := "trace_proven_cross_shard_rollback_leakage"

def absentName : String := "canonical_state_proven_source_debit_absence"

def decemberName : String := "december_2023_repeated_undelegation_mint"

def maxRateName : String := "post_2023_max_rate_net_effect_at_cleanup"

def roundingName : String := "post_top_max_rate_rounding_drift"

/-- `{component["name"]: component["atto"] for component in components}` -/
def byName (components : List Component) : List (String × Int) :=
  written [] (components.map fun component => (component.name, component.atto))

structure CrossShard where
  traceProven : Int
  sourceDebitAbsent : Int
  totalUnbackedCredit : Int
  deriving DecidableEq

def crossShardComponents (names : List (String × Int)) : Except AuditError CrossShard :=
  match names.lookup legacyName, names.lookup traceName, names.lookup absentName with
  | some legacy, none, none => .ok ⟨legacy, 0, legacy⟩
  | some _, _, _ =>
    .error (.valueError "cross-shard reconciliation mixes legacy and split components")
  | none, none, none => .error (.valueError "cross-shard reconciliation component is missing")
  | none, some trace, some absent => .ok ⟨trace, absent, trace + absent⟩
  | none, _, _ => .error
    (.valueError "split cross-shard reconciliation requires both evidence components")

/-! ## Sections of the check -/

structure KnownAmounts where
  crossShard : Int
  december : Int
  maxRateNet : Int
  rounding : Int
  deriving DecidableEq

/-- The components against the gaps and the subtotals. -/
def checkComponents (r : ReconciliationFile) : Except AuditError KnownAmounts := do
  demand ((r.components.map Component.atto).sum = r.stateGap)
    ("component sum " ++ toString (r.components.map Component.atto).sum ++ " != state gap " ++
      toString r.stateGap)
  demand (r.stateGap + r.pendingReceipts = r.claimGap)
    "claim-adjusted gap does not equal state gap plus pending receipts"
  let names := byName r.components
  let crossShard ← crossShardComponents names
  let december ← item names decemberName
  let maxRateNet ← item names maxRateName
  let rounding ← item names roundingName
  demand (r.maxRate.netStateFormulaEffectAtCleanup = maxRateNet)
    "max-rate component does not match cleanup result"
  demand (crossShard.totalUnbackedCredit + december + maxRateNet = r.knownNet)
    "known unauthorized net subtotal mismatch"
  demand (crossShard.totalUnbackedCredit + december + r.maxRate.activationInclusivePeak =
    r.knownPeak) "known peak claim-inflation subtotal mismatch"
  .ok ⟨crossShard.totalUnbackedCredit, december, maxRateNet, rounding⟩

def checkMaxRate (m : MaxRate) : Except AuditError Unit := do
  demand (m.postCheckpointPeak + m.activationOpening = m.activationInclusivePeak)
    "max-rate activation-inclusive exposure mismatch"
  demand (m.peakIsNotSecondPayout = true) "max-rate peak exposure is mislabeled as liquid payout"
  demand (m.postCheckpointPeak - m.staleLiabilitiesRemoved - m.rewardsNotCommitted +
    m.equationClosure = m.measuredThroughOctober)
    "max-rate exposure/cleanup/reward equation mismatch"

/-- The formula before exclusions, recomputed. -/
def checkFormula (f : FormulaInput) : Except AuditError Int := do
  let wrapperDelta := f.cutoffWrapperRewards - f.baseWrapperRewards
  demand (wrapperDelta = f.wrapperRewardDelta) "cutoff wrapper-reward delta mismatch"
  let reconstructedAccumulator := f.baseAccumulator + wrapperDelta
  demand (reconstructedAccumulator = f.reconstructedAccumulator)
    "reconstructed cutoff accumulator mismatch"
  let formulaBeforeExclusions := f.genesis + f.preStakingRewards + reconstructedAccumulator
  demand (formulaBeforeExclusions = f.formulaBeforeExclusions)
    "cutoff formula component sum mismatch"
  .ok formulaBeforeExclusions

/-- The ledger against the receipts, the gaps and the formula. -/
def checkLedger (inputs : Inputs) (formulaBeforeExclusions : Int) : Except AuditError Unit := do
  let r := inputs.reconciliation
  let ledger := inputs.ledger
  demand (ledger.pendingCrossShard = r.pendingReceipts ∧
    ledger.pendingCrossShard = inputs.pendingActive) "pending-receipt totals disagree"
  demand (inputs.cutoffSupplyClaims + ledger.liquidShard1 + r.pendingReceipts = ledger.totalClaim)
    "cutoff ledger components do not sum to total claim"
  demand (inputs.cutoffSupplyClaims + ledger.liquidShard1 - formulaBeforeExclusions = r.stateGap)
    "state gap is not derived from cutoff result files"
  demand (ledger.totalClaim - formulaBeforeExclusions = r.claimGap)
    "claim gap is not derived from cutoff result files"

/-- The checkpoints of the historical closure against the reconciliation. -/
def checkClosure (inputs : Inputs) (known : KnownAmounts) : Except AuditError Unit := do
  let r := inputs.reconciliation
  let results ← calculate py inputs.closureFiles inputs.closure
  let points := results.foldl (fun points point => KeyedTable.set points point.name point) []
  let first ← item points "post-2023-fix"
  demand (first.residual = r.preExistingNet) "pre-existing checkpoint residual mismatch"
  let cleanup ← item points "top-max-rate-cleanup"
  let cleanupChange ← raisePython (py.parsed (cleanup.changeFromPrevious.map toString))
  demand (cleanupChange = known.maxRateNet)
    "historical closure does not reproduce max-rate net effect"
  let cutoff ← item points "cutoff"
  demand (cutoff.formulaGap = r.stateGap) "historical cutoff formula gap mismatch"
  demand (cutoff.shard0Claims = inputs.cutoffSupplyClaims)
    "historical closure shard-0 cutoff mismatch"
  demand (cutoff.shard1Claims = inputs.ledger.liquidShard1)
    "historical closure shard-1 cutoff mismatch"
  demand (cutoff.residual = first.residual + known.maxRateNet + known.rounding)
    "historical residual chain does not close at cutoff"

/-- The audits of single mechanisms. -/
def checkAudits (inputs : Inputs) (known : KnownAmounts) : Except AuditError Unit := do
  demand (inputs.december.total = known.december)
    "December reconstruction does not match reconciliation"
  demand (inputs.december.byDelegator.sum = known.december) "December per-delegator sum mismatch"
  demand (inputs.burn.inaccessible.sum = inputs.burn.inaccessibleTotal)
    "inaccessible-address total mismatch"
  demand (inputs.precompile.blocksScanned = 13697024) "staking-precompile block count mismatch"
  demand (inputs.precompile.topLevelCalls = 79602) "staking-precompile call count mismatch"
  demand (inputs.precompile.unknownTargetTransactions = 0)
    "unexpected unknown staking-precompile target"
  demand (inputs.treasury.treasuryReclaim = inputs.reconciliation.treasuryReclaim)
    "historical treasury calculation mismatch"
  demand (inputs.treasury.policyStatus = "superseded")
    "historical treasury policy is not marked superseded"

def compositePolicy : String := "2026-09-17/migration-policy-reconciliation.json"

/-- `text.endswith(ending)` -/
def endsWith (text ending : String) : Bool := ending.toList.isSuffixOf text.toList

/-- The policy neither frees the amounts nor changes the gross claim. -/
def PolicySemantics.consistent (p : PolicySemantics) : Bool :=
  p.treasuryDestination = none && !p.availableForOtherUse && !p.oldChainGrossClaimChanged &&
    p.migrationAllocationReduced && !p.fixedTotalSupplyChanged &&
    endsWith p.compositePolicySummary compositePolicy

/-- The non-issuance totals against the treasury, the exploit flow and the ledger. -/
def checkNonIssuance (inputs : Inputs) : Except AuditError Unit := do
  let n := inputs.nonIssuance
  demand (inputs.reconciliation.policy.consistent = true)
    "reconciliation points to an invalid migration policy"
  demand (n.migrationTreatment = "not_issued") "current migration treatment is not non-issuance"
  demand (n.policy.consistent = true) "non-issuance policy semantics are inconsistent"
  let historicalTreasury ← raisePython (py.parsed (some inputs.treasury.treasuryReclaim))
  demand (historicalTreasury ≤ n.existingNotIssued)
    "historical policy amount exceeds current non-issuance"
  demand (n.retainedNotIssued = inputs.heldCaps.sum)
    "historical retained-balance totals disagree"
  demand (n.retainedOverlaps = false) "historical retained addresses overlap existing policy"
  let revertLeak := (n.leak.map LeakSection.notIssued).getD 0
  demand (n.notIssued = n.existingNotIssued + n.retainedNotIssued + revertLeak)
    "combined non-issuance total mismatch"
  demand (n.grossCutoffClaim = inputs.ledger.totalClaim)
    "non-issuance gross claim does not match cutoff ledger"
  demand (n.remaining + n.notIssued = inputs.ledger.totalClaim)
    "gross claim does not close after non-issuance"

/-- The body of the loop over the retained CSV. -/
def addRetained (isFile : String → Bool) (acc : List String × Int) (row : Row) :
    Except AuditError (List String × Int) := do
  let address ← lowerField py row "address_hex"
  demand (address ∉ acc.1) ("duplicate retained address: " ++ address)
  let amount ← intField py row "retained_cap_atto"
  let initial ← intField py row "initial_distribution_atto"
  let cutoff ← intField py row "cutoff_balance_atto"
  demand (amount = min initial cutoff) ("invalid retained cap: " ++ address)
  let treatment ← raisePython (row.get "migration_treatment")
  demand (treatment = some "not_issued") ("retained address is not terminal: " ++ address)
  let evidence ← raisePython (row.get "source_evidence")
  match evidence with
  | none => .error (.typeError "unsupported operand type(s) for /: 'PosixPath' and 'NoneType'")
  | some name =>
    require (isFile name = true) (.fileNotFound name)
    .ok (address :: acc.1, acc.2 + amount)

/-- The release asset describes the file. -/
def Asset.describes (asset : Asset) (csv : HashedCsv) : Prop :=
  asset.bytes = csv.bytes ∧ asset.rows = csv.rows.length ∧ asset.sha256 = csv.sha256

instance (asset : Asset) (csv : HashedCsv) : Decidable (asset.describes csv) :=
  inferInstanceAs (Decidable (_ ∧ _))

def assetTable (assets : List Asset) : List (String × Asset) :=
  assets.foldl (fun table asset => KeyedTable.set table asset.name asset) []

def checkRetainedCsv (inputs : Inputs) : Except AuditError Unit := do
  let n := inputs.nonIssuance
  let csv := inputs.retainedCsv
  demand (csv.sha256 = n.retainedSha256) "retained non-issuance CSV hash mismatch"
  let (_, total) ← csv.rows.foldlM (addRetained py inputs.isFile) ([], 0)
  demand (csv.rows.length = n.retainedRows) "retained non-issuance CSV row-count mismatch"
  demand (total = n.retainedNotIssued) "retained non-issuance CSV total mismatch"
  match (assetTable inputs.releaseAssets).lookup csv.name with
  | none => .error (.valueError "retained non-issuance CSV missing from release manifest")
  | some asset =>
    demand (asset.describes csv) "retained non-issuance release metadata mismatch"

/-- The body of the loop over the revert-leak CSV. -/
def addLeak (total : Int) (row : Row) : Except AuditError Int := do
  let amount ← intField py row "retained_cap_atto"
  let credit ← intField py row "unbacked_credit_atto"
  let claim ← intField py row "cutoff_native_claim_atto"
  let prior ← intField py row "prior_non_issuance_atto"
  let treatment ← raisePython (row.get "migration_treatment")
  demand (amount = min credit (max (claim - prior) 0) ∧ 0 < amount ∧
    treatment = some "not_issued")
    ("invalid revert-leak amount: " ++ ((row.lookup "address_hex").join.getD "None"))
  .ok (total + amount)

def checkLeakCsv (inputs : Inputs) (leak : LeakSection) : Except AuditError Unit := do
  let csv := inputs.leakCsv
  demand (csv.sha256 = leak.sourceSha256) "revert-leak non-issuance CSV hash mismatch"
  let total ← csv.rows.foldlM (addLeak py) 0
  demand (csv.rows.length = leak.positiveAddresses ∧ total = leak.notIssued)
    "revert-leak non-issuance CSV total mismatch"
  match (assetTable inputs.releaseAssets).lookup csv.name with
  | none => .error (.valueError "revert-leak non-issuance release metadata mismatch")
  | some asset =>
    demand (asset.describes csv) "revert-leak non-issuance release metadata mismatch"

/-- What the last line prints. -/
structure Passed where
  stateGap : Int
  claimGap : Int
  knownPeak : Int
  notIssued : Int
  deriving DecidableEq

def main (inputs : Inputs) : Except AuditError Passed := do
  let known ← checkComponents inputs.reconciliation
  checkMaxRate inputs.reconciliation.maxRate
  let formulaBeforeExclusions ← checkFormula inputs.formula
  checkLedger inputs formulaBeforeExclusions
  checkClosure py inputs known
  checkAudits inputs known
  checkNonIssuance py inputs
  checkRetainedCsv py inputs
  match inputs.nonIssuance.leak with
  | none => .ok ()
  | some leak => checkLeakCsv py inputs leak
  .ok ⟨inputs.reconciliation.stateGap, inputs.reconciliation.claimGap,
    inputs.reconciliation.knownPeak, inputs.nonIssuance.notIssued⟩

end Reconciliation
