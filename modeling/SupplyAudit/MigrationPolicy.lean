import Mathlib.Data.List.Sort
import SupplyAudit.NonIssuanceAudit

/-!
# Migration policy verification

`migration-policy-reconciliation.py` reads the stage policy row by row, checks
every row on its own, and compares the sums with the summaries that came with
it.
-/

namespace MigrationPolicy

open ScriptValues FallibleScan KeyedTable AuditFiles NonIssuanceAudit

/-- Text functions of the script; `fromIsoFormat` gives the instant that a
timestamp with its offset stands for. -/
structure PolicyText extends PyText where
  fromIsoFormat : String → Option Int

variable (py : PolicyText)

/-! ## Rows -/

/-- The amounts that must be present and not negative. -/
structure Amounts where
  grossAllocation : Int := 0
  existingNonIssuance : Int := 0
  historicalRetainedCap : Int := 0
  woneSourceOffset : Int := 0
  reviewedContractNonIssuance : Int := 0
  reviewedContractWalletNonIssuance : Int := 0
  reviewedContractStakedNonIssuance : Int := 0
  migrationWalletAllocation : Int := 0
  migrationStakedToVault : Int := 0
  migrationAllocation : Int := 0
  deriving DecidableEq

def Amounts.values (a : Amounts) : List Int :=
  [a.grossAllocation, a.existingNonIssuance, a.historicalRetainedCap, a.woneSourceOffset,
    a.reviewedContractNonIssuance, a.reviewedContractWalletNonIssuance,
    a.reviewedContractStakedNonIssuance, a.migrationWalletAllocation, a.migrationStakedToVault,
    a.migrationAllocation]

def Amounts.add (a b : Amounts) : Amounts where
  grossAllocation := a.grossAllocation + b.grossAllocation
  existingNonIssuance := a.existingNonIssuance + b.existingNonIssuance
  historicalRetainedCap := a.historicalRetainedCap + b.historicalRetainedCap
  woneSourceOffset := a.woneSourceOffset + b.woneSourceOffset
  reviewedContractNonIssuance := a.reviewedContractNonIssuance + b.reviewedContractNonIssuance
  reviewedContractWalletNonIssuance :=
    a.reviewedContractWalletNonIssuance + b.reviewedContractWalletNonIssuance
  reviewedContractStakedNonIssuance :=
    a.reviewedContractStakedNonIssuance + b.reviewedContractStakedNonIssuance
  migrationWalletAllocation := a.migrationWalletAllocation + b.migrationWalletAllocation
  migrationStakedToVault := a.migrationStakedToVault + b.migrationStakedToVault
  migrationAllocation := a.migrationAllocation + b.migrationAllocation

def readAmounts (row : Row) : Except AuditError Amounts := do
  let gross ← intField py.toPyText row "gross_allocation_atto"
  let existing ← intField py.toPyText row "existing_non_issuance_atto"
  let historical ← intField py.toPyText row "historical_retained_cap_atto"
  let wone ← intField py.toPyText row "wone_source_offset_atto"
  let contract ← intField py.toPyText row "reviewed_contract_non_issuance_atto"
  let contractWallet ← intField py.toPyText row "reviewed_contract_wallet_non_issuance_atto"
  let contractStaked ← intField py.toPyText row "reviewed_contract_staked_non_issuance_atto"
  let wallet ← intField py.toPyText row "migration_wallet_allocation_atto"
  let staked ← intField py.toPyText row "migration_staked_to_vault_atto"
  let allocation ← intField py.toPyText row "migration_allocation_atto"
  .ok ⟨gross, existing, historical, wone, contract, contractWallet, contractStaked, wallet, staked,
    allocation⟩

/-- `parse_utc` -/
def parseUtc (text : String) : Except AuditError Int :=
  match text.toList.reverse with
  | 'Z' :: rest =>
    match py.fromIsoFormat (String.ofList rest.reverse ++ "+00:00") with
    | none => .error (.valueError ("Invalid isoformat string: '" ++ String.ofList rest.reverse ++
        "+00:00'"))
    | some instant => .ok instant
  | _ => .error (.valueError ("UTC timestamp must end in Z: " ++ text))

/-- The activity of a row, if the row tells one. -/
def readActivity (cell : Option String) : Except AuditError (Option Int) :=
  match cell with
  | none => .ok none
  | some "" => .ok none
  | some text => do
    let instant ← parseUtc py text
    .ok (some instant)

/-- What the script reads of a row. -/
structure PolicyRow where
  classification : Option String
  policyGroup : Option String
  routingCategory : Option String
  stage : Option String
  treatment : Option String
  qualification : Int
  amounts : Amounts
  activity : Option Int
  deriving DecidableEq

def PolicyRow.allocation (r : PolicyRow) : Int := r.amounts.migrationAllocation

/-- `if stage` -/
def PolicyRow.staged (r : PolicyRow) : Bool := r.stage ≠ none ∧ r.stage ≠ some ""

def PolicyRow.isWallet (r : PolicyRow) : Bool :=
  r.classification = some "wallet" ∨ r.classification = some "validator_wallet"

def PolicyRow.isContract (r : PolicyRow) : Bool := r.classification = some "genuine_contract"

def threshold : Int := 1000 * (atto : Int)

def PolicyRow.meetsThreshold (r : PolicyRow) : Bool :=
  threshold ≤ r.qualification - r.amounts.existingNonIssuance - r.amounts.historicalRetainedCap

/-- The last activity is known and not before the window. -/
def PolicyRow.active (r : PolicyRow) (since : Int) : Bool :=
  ∃ instant ∈ r.activity, since ≤ instant

def PolicyRow.belowThreshold (r : PolicyRow) : Bool :=
  r.isWallet ∧ 0 < r.allocation ∧ r.meetsThreshold = false

def atLine (text : String) (line : Nat) : AuditError :=
  .valueError (text ++ " at line " ++ toString line)

/-- Treatment, stage and amount of a row fit together. -/
def checkTreatment (r : PolicyRow) (line : Nat) : Except AuditError Unit :=
  if r.treatment = some "issue" then
    require (r.staged = true ∧ 0 < r.allocation) (atLine "issued row has no stage or amount" line)
  else if r.treatment = some "not_issued" then
    require (r.staged = false ∧ r.allocation = 0)
      (atLine "not-issued row has stage or amount" line)
  else .error (atLine "invalid issuance treatment" line)

/-- An initial row is an active wallet above the threshold, and such a wallet is
not deferred. -/
def checkWindow (since : Int) (r : PolicyRow) (line : Nat) : Except AuditError Unit :=
  if r.stage = some "initial" then
    require (r.isWallet = true ∧ 0 < r.allocation ∧ r.meetsThreshold = true ∧
      r.active since = true) (atLine "invalid initial-stage row" line)
  else
    require (¬ (r.stage = some "deferred" ∧ r.isWallet = true ∧ 0 < r.allocation ∧
      r.meetsThreshold = true ∧ r.active since = true))
      (atLine "active wallet incorrectly deferred" line)

/-- The stage of a row fits its classification, threshold and activity. -/
def checkStage (since : Int) (r : PolicyRow) (line : Nat) : Except AuditError Unit := do
  require (r.belowThreshold = true → r.stage = some "deferred")
    (atLine "wallet below threshold after incident deductions is not deferred" line)
  checkWindow since r line
  require (¬ (r.isContract = true ∧ r.stage = some "initial"))
    (.valueError "genuine contract entered initial stage")

/-- What the body of the loop reads and checks of a row. -/
def checkRow (since : Int) (line : Nat) (row : Row) : Except AuditError PolicyRow := do
  let amounts ← readAmounts py row
  require (∀ value ∈ amounts.values, 0 ≤ value) (atLine "negative stage amount" line)
  let qualification ← intField py.toPyText row "qualification_total_atto"
  require (threshold ≤ qualification) (atLine "below-threshold stage row" line)
  require (amounts.grossAllocation - amounts.existingNonIssuance - amounts.historicalRetainedCap -
    amounts.woneSourceOffset - amounts.reviewedContractNonIssuance = amounts.migrationAllocation)
    (atLine "stage row does not close" line)
  let stage ← raisePython (row.get "migration_stage")
  let treatment ← raisePython (row.get "issuance_treatment")
  require (amounts.migrationWalletAllocation + amounts.migrationStakedToVault =
    amounts.migrationAllocation) (atLine "final components do not close" line)
  require (amounts.reviewedContractWalletNonIssuance + amounts.reviewedContractStakedNonIssuance =
    amounts.reviewedContractNonIssuance)
    (atLine "contract non-issuance components do not close" line)
  let cell (field : String) : Option String := (row.lookup field).join
  let r : PolicyRow := ⟨cell "account_classification", cell "policy_group",
    cell "routing_category", stage, treatment, qualification, amounts, none⟩
  checkTreatment r line
  let activity ← readActivity py (cell "last_activity_time_utc")
  checkStage since { r with activity := activity } line
  .ok { r with activity := activity }

/-! ## The loop -/

structure StageTotals where
  addresses : Nat := 0
  allocationAtto : Int := 0
  deriving DecidableEq

structure ContractTotals where
  addresses : Nat := 0
  allocationAtto : Int := 0
  walletAllocationAtto : Int := 0
  stakedAllocationAtto : Int := 0
  notIssuedAtto : Int := 0
  notIssuedWalletAtto : Int := 0
  notIssuedStakedAtto : Int := 0
  deriving DecidableEq

def StageTotals.add (t : StageTotals) (amount : Int) : StageTotals :=
  ⟨t.addresses + 1, t.allocationAtto + amount⟩

def ContractTotals.add (t : ContractTotals) (a : Amounts) : ContractTotals where
  addresses := t.addresses + 1
  allocationAtto := t.allocationAtto + a.migrationAllocation
  walletAllocationAtto := t.walletAllocationAtto + a.migrationWalletAllocation
  stakedAllocationAtto := t.stakedAllocationAtto + a.migrationStakedToVault
  notIssuedAtto := t.notIssuedAtto + a.reviewedContractNonIssuance
  notIssuedWalletAtto := t.notIssuedWalletAtto + a.reviewedContractWalletNonIssuance
  notIssuedStakedAtto := t.notIssuedStakedAtto + a.reviewedContractStakedNonIssuance

structure PolicyState where
  seen : List String := []
  stages : List (String × StageTotals) := []
  treatments : List (String × Nat) := []
  contracts : List (Option String × ContractTotals) := []
  totals : Amounts := {}
  initialRouting : List (Option String × Nat) := []
  initialValidators : Nat := 0
  belowAfterDeductions : StageTotals := {}

/-- What a checked row adds to the sums. -/
def PolicyState.record (st : PolicyState) (address : String) (r : PolicyRow) : PolicyState where
  seen := address :: st.seen
  stages :=
    if r.staged then update st.stages (r.stage.getD "") {} fun t => t.add r.allocation
    else st.stages
  treatments := update st.treatments (r.treatment.getD "") 0 fun n => n + 1
  contracts :=
    if r.isContract then update st.contracts r.policyGroup {} fun t => t.add r.amounts
    else st.contracts
  totals := st.totals.add r.amounts
  initialRouting :=
    if r.stage = some "initial" then update st.initialRouting r.routingCategory 0 fun n => n + 1
    else st.initialRouting
  initialValidators := st.initialValidators +
    if r.stage = some "initial" ∧ r.classification = some "validator_wallet" then 1 else 0
  belowAfterDeductions :=
    if r.belowThreshold then st.belowAfterDeductions.add r.allocation
    else st.belowAfterDeductions

def addRow (since : Int) (st : PolicyState) (numbered : Row × Nat) :
    Except AuditError PolicyState := do
  let line := numbered.2 + 2
  let address ← lowerField py.toPyText numbered.1 "address"
  require (address ∉ st.seen) (atLine "duplicate stage address" line)
  let r ← checkRow py since line numbered.1
  .ok (st.record address r)

/-! ## Summaries -/

/-- The amounts that the stage summary gives, as `int` reads them. -/
structure Allocation where
  grossNativeSnapshotAtto : Int
  existingNonIssuanceAtto : Int
  historicalRetainedCapsAtto : Int
  reviewedContractNonIssuanceAtto : Int
  initialWalletsAtto : Int
  nextStageContractsAtto : Int
  deferredWalletsAtto : Int
  totalMigrationAtto : Int

structure StageSummary where
  status : String
  outputSha256 : String
  migrationSummarySha256 : String
  existingNonIssuanceSha256 : List String
  historicalRetentionSha256 : List String
  sinceTimeUtc : String
  qualifiedRows : Int
  stageRows : List (String × Int)
  issuanceTreatmentRows : List (String × Int)
  contractGroups : List (String × ContractTotals)
  allocation : Allocation
  automaticPolicyAddresses : Int
  manualRoutingAddresses : Int
  validatorInitialAddresses : Int
  belowThresholdAddresses : Int
  belowThresholdAtto : Int

structure MigrationSummary where
  status : String
  nativeTotalClaimAtto : Int
  woneRetainedNotIssuedAtto : Int
  woneReserveAtto : Int

/-- A summary without a revert-leak section has none of its amount. -/
structure SupplyNonIssuance where
  status : String
  existingNotIssuedAtto : Int
  retainedNotIssuedAtto : Int
  revertLeakNotIssuedAtto : Option Int
  totalNotIssuedAtto : Int

/-- The digests of the files that are read. -/
structure Hashes where
  stagePolicy : String
  migrationSummary : String
  existingNonIssuance : List String
  historicalRetention : List String

structure Inputs where
  fields : List String
  rows : List Row
  stageSummary : StageSummary
  migration : MigrationSummary
  supplyNonIssuance : SupplyNonIssuance
  hashes : Hashes
  outputFree : Bool
  reportFree : Bool

def requiredFields : List String :=
  ["address", "account_classification", "policy_group", "routing_category", "migration_stage",
    "issuance_treatment", "qualification_total_atto", "gross_allocation_atto",
    "existing_non_issuance_atto", "historical_retained_cap_atto", "wone_source_offset_atto",
    "reviewed_contract_non_issuance_atto", "reviewed_contract_wallet_non_issuance_atto",
    "reviewed_contract_staked_non_issuance_atto", "migration_wallet_allocation_atto",
    "migration_staked_to_vault_atto", "migration_allocation_atto", "last_activity_time_utc"]

def missingFields (fields : List String) : List String :=
  requiredFields.filter fun field => field ∉ fields

/-! ## Comparison with the summaries -/

/-- Both tables have the same keys. -/
def sameKeys {α β : Type} (a : List (String × α)) (b : List (String × β)) : Prop :=
  (∀ entry ∈ a, entry.1 ∈ b.map Prod.fst) ∧ ∀ entry ∈ b, entry.1 ∈ a.map Prod.fst

instance {α β : Type} (a : List (String × α)) (b : List (String × β)) : Decidable (sameKeys a b) :=
  inferInstanceAs (Decidable (_ ∧ _))

def checkStageCount (summary : StageSummary) (entry : String × StageTotals) :
    Except AuditError Unit :=
  require (summary.stageRows.lookup entry.1 = some (entry.2.addresses : Int))
    (.valueError (entry.1 ++ " address count mismatch"))

def checkGroup (summary : StageSummary) (entry : Option String × ContractTotals) :
    Except AuditError Unit :=
  match entry.1.bind fun group => summary.contractGroups.lookup group with
  | none => .error (.keyError (entry.1.getD "None"))
  | some expected =>
    require (entry.2 = expected)
      (.valueError (entry.1.getD "None" ++ " contract totals mismatch"))

/-- The counts of the summary are those of the rows. -/
def checkCounts (summary : StageSummary) (st : PolicyState) : Except AuditError Unit := do
  require ((st.seen.length : Int) = summary.qualifiedRows) (.valueError "stage row count mismatch")
  require (sameKeys st.stages summary.stageRows)
    (.valueError "stage labels do not match summary")
  let _ ← st.stages.mapM (checkStageCount summary)
  require (sameKeys st.treatments summary.issuanceTreatmentRows ∧
    ∀ entry ∈ st.treatments, summary.issuanceTreatmentRows.lookup entry.1 = some (entry.2 : Int))
    (.valueError "issuance-treatment counts do not match summary")
  let _ ← st.contracts.mapM (checkGroup summary)
  .ok ()

def PolicyState.stageAllocation (st : PolicyState) (stage : String) : Int :=
  shareAt StageTotals.allocationAtto st.stages stage

structure Result where
  qualifiedRows : Nat
  stages : List (String × StageTotals)
  grossNativeSnapshotAtto : Int
  existingNonIssuanceAtto : Int
  historicalRetainedCapsAtto : Int
  woneRetainedNotIssuedAtto : Int
  reviewedContractNonIssuanceAtto : Int
  initialWalletsAtto : Int
  nextStageContractsAtto : Int
  deferredWalletsAtto : Int
  totalMigrationAtto : Int

/-- Supply totals against the summaries. -/
def checkSupply (inputs : Inputs) : Except AuditError Unit := do
  let allocation := inputs.stageSummary.allocation
  let supply := inputs.supplyNonIssuance
  require (allocation.existingNonIssuanceAtto = supply.existingNotIssuedAtto)
    (.valueError "existing non-issuance total mismatch")
  require (allocation.historicalRetainedCapsAtto =
    supply.retainedNotIssuedAtto + supply.revertLeakNotIssuedAtto.getD 0)
    (.valueError "historical retained-cap total mismatch")
  require (allocation.existingNonIssuanceAtto + allocation.historicalRetainedCapsAtto =
    supply.totalNotIssuedAtto) (.valueError "supply non-issuance total does not close")

/-- `total_migration` -/
def totalMigration (inputs : Inputs) (st : PolicyState) : Int :=
  inputs.migration.nativeTotalClaimAtto - inputs.stageSummary.allocation.existingNonIssuanceAtto -
    inputs.stageSummary.allocation.historicalRetainedCapsAtto -
    inputs.migration.woneRetainedNotIssuedAtto - st.totals.reviewedContractNonIssuance

/-- A counter without an entry is zero. -/
def PolicyState.routed (st : PolicyState) (category : String) : Nat :=
  shareAt id st.initialRouting (some category)

/-- The sums of the rows against the summaries. -/
def checkTotals (inputs : Inputs) (st : PolicyState) : Except AuditError Unit := do
  let summary := inputs.stageSummary
  let allocation := summary.allocation
  let total := totalMigration inputs st
  require (inputs.migration.nativeTotalClaimAtto = allocation.grossNativeSnapshotAtto)
    (.valueError "gross native snapshot mismatch")
  require (total = allocation.totalMigrationAtto)
    (.valueError "total migration allocation mismatch")
  require (st.totals.woneSourceOffset = inputs.migration.woneReserveAtto)
    (.valueError "WONE source offset mismatch")
  require (st.totals.reviewedContractNonIssuance = allocation.reviewedContractNonIssuanceAtto)
    (.valueError "reviewed-contract non-issuance mismatch")
  require (st.stageAllocation "initial" = allocation.initialWalletsAtto)
    (.valueError "initial wallet allocation mismatch")
  require ((st.routed "automatic_policy" : Int) = summary.automaticPolicyAddresses ∧
    (st.routed "exchange_or_manual" : Int) = summary.manualRoutingAddresses ∧
    (st.initialValidators : Int) = summary.validatorInitialAddresses)
    (.valueError "initial wallet composition mismatch")
  require ((st.belowAfterDeductions.addresses : Int) = summary.belowThresholdAddresses ∧
    st.belowAfterDeductions.allocationAtto = summary.belowThresholdAtto)
    (.valueError "below-threshold-after-deductions wallets mismatch")
  require (st.stageAllocation "next_stage" = allocation.nextStageContractsAtto)
    (.valueError "next-stage allocation mismatch")
  require (st.stageAllocation "initial" + st.stageAllocation "next_stage" +
    allocation.deferredWalletsAtto = total) (.valueError "stage allocation does not close")

/-- The stages of the result, which names the two that were asked for. -/
def PolicyState.finalStages (st : PolicyState) : List (String × StageTotals) :=
  (update (update st.stages "initial" {} id) "next_stage" {} id).insertionSort fun a b => a.1 ≤ b.1

/-- The contract groups that the report names. -/
def reportGroups : List String :=
  ["multisig", "layerzero_bridge_collateral", "onewallet", "smartvault", "other_reviewed_contract"]

def checkReport (st : PolicyState) : Except AuditError Unit := do
  let _ ← reportGroups.mapM fun group =>
    require (some group ∈ st.contracts.map Prod.fst) (.keyError group)
  .ok ()

def checkHashes (inputs : Inputs) : Except AuditError Unit := do
  require (inputs.hashes.stagePolicy = inputs.stageSummary.outputSha256)
    (.valueError "stage-policy hash mismatch")
  require (inputs.hashes.migrationSummary = inputs.stageSummary.migrationSummarySha256)
    (.valueError "migration_summary hash mismatch")
  require (inputs.hashes.existingNonIssuance = inputs.stageSummary.existingNonIssuanceSha256)
    (.valueError "existing_non_issuance hash mismatch")
  require (inputs.hashes.historicalRetention = inputs.stageSummary.historicalRetentionSha256)
    (.valueError "historical_retention hash mismatch")

def checkStatus (inputs : Inputs) : Except AuditError Unit := do
  require (inputs.stageSummary.status = "passed") (.valueError "stage summary did not pass")
  require (inputs.migration.status = "passed") (.valueError "migration summary did not pass")
  require (inputs.supplyNonIssuance.status = "passed")
    (.valueError "supply non-issuance summary did not pass")

def main (inputs : Inputs) : Except AuditError Result := do
  checkStatus inputs
  checkHashes inputs
  let since ← parseUtc py inputs.stageSummary.sinceTimeUtc
  require (missingFields inputs.fields = []) (.valueError
    ("stage policy is missing fields: " ++ listText (missingFields inputs.fields)))
  let st ← inputs.rows.zipIdx.foldlM (addRow py since) {}
  checkCounts inputs.stageSummary st
  checkSupply inputs
  checkTotals inputs st
  require (inputs.outputFree = true) (.fileExists "output")
  checkReport st
  require (inputs.reportFree = true) (.fileExists "report")
  .ok
    { qualifiedRows := st.seen.length
      stages := st.finalStages
      grossNativeSnapshotAtto := inputs.migration.nativeTotalClaimAtto
      existingNonIssuanceAtto := inputs.stageSummary.allocation.existingNonIssuanceAtto
      historicalRetainedCapsAtto := inputs.stageSummary.allocation.historicalRetainedCapsAtto
      woneRetainedNotIssuedAtto := inputs.migration.woneRetainedNotIssuedAtto
      reviewedContractNonIssuanceAtto := st.totals.reviewedContractNonIssuance
      initialWalletsAtto := st.stageAllocation "initial"
      nextStageContractsAtto := st.stageAllocation "next_stage"
      deferredWalletsAtto := inputs.stageSummary.allocation.deferredWalletsAtto
      totalMigrationAtto := totalMigration inputs st }

end MigrationPolicy
