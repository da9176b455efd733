import SupplyAudit.KeyedSums
import SupplyAudit.MigrationPolicy

/-!
# What a passed verification says about stages

Every row that passes is checked against threshold and activity for two stages
only. The documented assignment, and the bound on what is issued, follow exactly
when the other labels do not occur and the deferred figure covers its rows.
-/

namespace MigrationStages

open ScriptValues FallibleScan KeyedTable AuditFiles MigrationPolicy

variable (py : PolicyText)

/-! ## Checked rows -/

/-- What the checks of one row establish. -/
structure Checked (since : Int) (r : PolicyRow) : Prop where
  treatment : r.treatment = some "issue" ∧ r.staged = true ∧ 0 < r.allocation ∨
    r.treatment = some "not_issued" ∧ r.staged = false ∧ r.allocation = 0
  below : r.belowThreshold = true → r.stage = some "deferred"
  initial : r.stage = some "initial" →
    r.isWallet = true ∧ 0 < r.allocation ∧ r.meetsThreshold = true ∧ r.active since = true
  deferred : ¬ (r.stage = some "deferred" ∧ r.isWallet = true ∧ 0 < r.allocation ∧
    r.meetsThreshold = true ∧ r.active since = true)
  contract : ¬ (r.isContract = true ∧ r.stage = some "initial")

theorem checkTreatment_ok {r : PolicyRow} {line : Nat} {u : Unit}
    (h : checkTreatment r line = .ok u) :
    r.treatment = some "issue" ∧ r.staged = true ∧ 0 < r.allocation ∨
      r.treatment = some "not_issued" ∧ r.staged = false ∧ r.allocation = 0 := by
  rw [checkTreatment] at h
  split at h
  · rename_i hissue
    exact .inl ⟨hissue, require_ok.mp h⟩
  · split at h
    · rename_i hnot
      exact .inr ⟨hnot, require_ok.mp h⟩
    · cases h

theorem checkWindow_ok {since : Int} {r : PolicyRow} {line : Nat} {u : Unit}
    (h : checkWindow since r line = .ok u) :
    (r.stage = some "initial" →
        r.isWallet = true ∧ 0 < r.allocation ∧ r.meetsThreshold = true ∧ r.active since = true) ∧
      ¬ (r.stage = some "deferred" ∧ r.isWallet = true ∧ 0 < r.allocation ∧
        r.meetsThreshold = true ∧ r.active since = true) := by
  rw [checkWindow] at h
  split at h
  · rename_i hinitial
    refine ⟨fun _ => require_ok.mp h, ?_⟩
    rintro ⟨hdeferred, -⟩
    exact absurd (Option.some.inj (hinitial.symm.trans hdeferred)) (by decide)
  · rename_i hinitial
    exact ⟨fun heq => absurd heq hinitial, require_ok.mp h⟩

theorem checkRow_ok {py : PolicyText} {since : Int} {line : Nat} {row : Row} {r : PolicyRow}
    (h : checkRow py since line row = .ok r) : Checked since r := by
  simp only [checkRow, bind_eq_ok, require_ok, checkStage] at h
  obtain ⟨amounts, -, -, -, qualification, -, -, -, -, -, stage, -, treatment, -, -, -, -, -, u,
    htreatment, activity, -, v, ⟨-, hbelow, w, hwindow, hcontract⟩, hr⟩ := h
  cases hr
  obtain ⟨hinitial, hdeferred⟩ := checkWindow_ok hwindow
  exact ⟨checkTreatment_ok htreatment, hbelow, hinitial, hdeferred, hcontract⟩

/-! ## The loop -/

/-- The amounts of the rows that carry a label. -/
def labelled (read : List PolicyRow) : List (String × Int) :=
  (read.filter PolicyRow.staged).map fun r => (r.stage.getD "", r.allocation)

theorem labelled_append (front back : List PolicyRow) :
    labelled (front ++ back) = labelled front ++ labelled back := by
  rw [labelled, List.filter_append, List.map_append, labelled, labelled]

/-- What the loop keeps about the rows it has read. -/
structure PolicyRun (since : Int) (done : List (Row × Nat)) (st : PolicyState)
    (read : List PolicyRow) : Prop where
  rows : List.Forall₂ (fun numbered r => checkRow py since (numbered.2 + 2) numbered.1 = .ok r)
    done read
  labels : ∀ label, label ∈ st.stages.map Prod.fst ↔
    ∃ r ∈ read, r.staged = true ∧ r.stage.getD "" = label
  sums : ∀ label, st.stageAllocation label = KeyedSums.sumAt (labelled read) label
  contract : st.totals.reviewedContractNonIssuance =
    (read.map fun r => r.amounts.reviewedContractNonIssuance).sum

theorem stage_of_staged {r : PolicyRow} (h : r.staged = true) : r.stage = some (r.stage.getD "") := by
  obtain ⟨hsome, -⟩ := of_decide_eq_true h
  obtain ⟨label, hlabel⟩ := Option.ne_none_iff_exists'.mp hsome
  rw [hlabel, Option.getD_some]

theorem policyRun_start (since : Int) : PolicyRun py since [] {} [] :=
  ⟨.nil, fun _ => by simp, fun _ => rfl, rfl⟩

theorem PolicyRun.add {py : PolicyText} {since : Int} {done : List (Row × Nat)}
    {st st' : PolicyState} {read : List PolicyRow} (h : PolicyRun py since done st read)
    {numbered : Row × Nat} (hadd : addRow py since st numbered = .ok st') :
    ∃ r, PolicyRun py since (done ++ [numbered]) st' (read ++ [r]) := by
  simp only [addRow, bind_eq_ok] at hadd
  obtain ⟨address, -, -, -, r, hr, hst⟩ := hadd
  cases hst
  refine ⟨r, ?_⟩
  constructor
  case rows => exact List.rel_append h.rows (.cons hr .nil)
  case labels =>
    intro label
    by_cases hstaged : r.staged = true
    · rw [PolicyState.record, if_pos hstaged]
      simp only [update, mem_keys_set, h.labels, List.mem_append, List.mem_singleton]
      grind
    · rw [PolicyState.record, if_neg hstaged]
      simp only [h.labels, List.mem_append, List.mem_singleton]
      grind
  case sums =>
    intro label
    by_cases hstaged : r.staged = true
    · have hone : labelled [r] = [(r.stage.getD "", r.allocation)] := by
        rw [labelled, List.filter_cons_of_pos hstaged]
        rfl
      have hupdate : shareAt StageTotals.allocationAtto
          (update st.stages (r.stage.getD "") {} fun t => t.add r.allocation) label =
          shareAt StageTotals.allocationAtto st.stages label +
            if label = r.stage.getD "" then r.allocation else 0 :=
        shareAt_update st.stages _ rfl (fun _ => rfl) label
      rw [PolicyState.stageAllocation, PolicyState.record, if_pos hstaged, hupdate,
        labelled_append, KeyedSums.sumAt_append, ← h.sums, hone, KeyedSums.sumAt_cons,
        KeyedSums.sumAt_nil, add_zero, PolicyState.stageAllocation]
    · have hnone : labelled [r] = [] := by
        rw [labelled, List.filter_cons_of_neg hstaged]
        rfl
      rw [PolicyState.stageAllocation, PolicyState.record, if_neg hstaged, labelled_append,
        KeyedSums.sumAt_append, ← h.sums, hnone, KeyedSums.sumAt_nil, add_zero,
        PolicyState.stageAllocation]
  case contract =>
    rw [List.map_append, List.sum_append, ← h.contract, List.map_singleton, List.sum_singleton]
    rfl

theorem policy_ok {py : PolicyText} {since : Int} {rows : List Row} {st : PolicyState}
    (h : rows.zipIdx.foldlM (addRow py since) {} = .ok st) :
    ∃ read, PolicyRun py since rows.zipIdx st read :=
  foldlM_invariant (fun done st => ∃ read, PolicyRun py since done st read)
    (by
      intro done st numbered st' hinv hadd
      obtain ⟨read, hread⟩ := hinv
      obtain ⟨r, hnext⟩ := hread.add hadd
      exact ⟨read ++ [r], hnext⟩)
    [] ⟨[], policyRun_start py since⟩ h

/-! ## Passed verifications -/

/-- What a completed run tells about its rows and its result. -/
structure Verified (inputs : Inputs) (result : Result) (since : Int) (read : List PolicyRow) :
    Prop where
  window : parseUtc py inputs.stageSummary.sinceTimeUtc = .ok since
  rows : List.Forall₂ (fun numbered r => checkRow py since (numbered.2 + 2) numbered.1 = .ok r)
    inputs.rows.zipIdx read
  stages : ∀ label, label ∈ inputs.stageSummary.stageRows.map Prod.fst ↔
    ∃ r ∈ read, r.staged = true ∧ r.stage.getD "" = label
  total : result.totalMigrationAtto = result.grossNativeSnapshotAtto -
    result.existingNonIssuanceAtto - result.historicalRetainedCapsAtto -
    result.woneRetainedNotIssuedAtto - result.reviewedContractNonIssuanceAtto
  contract : result.reviewedContractNonIssuanceAtto =
    (read.map fun r => r.amounts.reviewedContractNonIssuance).sum
  deferred : result.deferredWalletsAtto = inputs.stageSummary.allocation.deferredWalletsAtto
  closure : KeyedSums.sumAt (labelled read) "initial" +
    KeyedSums.sumAt (labelled read) "next_stage" + result.deferredWalletsAtto =
      result.totalMigrationAtto

theorem main_ok {py : PolicyText} {inputs : Inputs} {result : Result}
    (h : main py inputs = .ok result) : ∃ since read, Verified py inputs result since read := by
  simp only [main, checkCounts, checkTotals, bind_eq_ok, require_ok] at h
  obtain ⟨-, -, -, -, since, hsince, -, -, st, hst, -, ⟨-, -, -, hstages, -⟩, -, -, -,
    ⟨-, -, -, -, -, -, -, -, -, -, -, -, -, -, -, -, hclosure⟩, -, -, -, -, -, -, hresult⟩ := h
  cases hresult
  obtain ⟨read, hread⟩ := policy_ok hst
  refine ⟨since, read, ?_⟩
  constructor
  case window => exact hsince
  case rows => exact hread.rows
  case stages =>
    intro label
    rw [← hread.labels]
    constructor
    · intro hmem
      obtain ⟨entry, hentry, rfl⟩ := List.mem_map.mp hmem
      exact hstages.2 entry hentry
    · intro hmem
      obtain ⟨entry, hentry, rfl⟩ := List.mem_map.mp hmem
      exact hstages.1 entry hentry
  case total => rfl
  case contract => exact hread.contract
  case deferred => rfl
  case closure =>
    rw [← hread.sums, ← hread.sums]
    exact hclosure

theorem Verified.checked {py : PolicyText} {inputs : Inputs} {result : Result} {since : Int}
    {read : List PolicyRow} (h : Verified py inputs result since read) {r : PolicyRow}
    (hr : r ∈ read) : Checked since r := by
  obtain ⟨numbered, -, hrow⟩ := forall₂_exists_right h.rows hr
  exact checkRow_ok hrow

/-! ## Sample verifications -/

/-- The only timestamp of the samples is the start of the window, in seconds. -/
def sampleText : PolicyText :=
  { PyText.ascii with
    fromIsoFormat := fun text =>
      if text = "2026-03-10T00:00:00+00:00" then some 1773100800 else none }

def windowStart : String := "2026-03-10T00:00:00Z"

def thousandOne : String := "1000000000000000000000"

/-- A row of 1,000 ONE, which is issued unless it has no stage. -/
def sampleRow (address classification group stage : String) : Row :=
  let issued := stage ≠ ""
  let amount := if issued then thousandOne else "0"
  let withheld := if issued then "0" else thousandOne
  [("address", some address), ("account_classification", some classification),
    ("policy_group", some group), ("routing_category", some "automatic_policy"),
    ("migration_stage", some stage),
    ("issuance_treatment", some (if issued then "issue" else "not_issued")),
    ("qualification_total_atto", some thousandOne), ("gross_allocation_atto", some thousandOne),
    ("existing_non_issuance_atto", some "0"), ("historical_retained_cap_atto", some "0"),
    ("wone_source_offset_atto", some "0"),
    ("reviewed_contract_non_issuance_atto", some withheld),
    ("reviewed_contract_wallet_non_issuance_atto", some withheld),
    ("reviewed_contract_staked_non_issuance_atto", some "0"),
    ("migration_wallet_allocation_atto", some amount),
    ("migration_staked_to_vault_atto", some "0"), ("migration_allocation_atto", some amount),
    ("last_activity_time_utc", some (if stage = "deferred" then "" else windowStart))]

/-- One row for every contract group of the report. -/
def sampleContracts : List Row :=
  [sampleRow "0x01" "genuine_contract" "multisig" "next_stage",
    sampleRow "0x02" "genuine_contract" "layerzero_bridge_collateral" "next_stage",
    sampleRow "0x03" "genuine_contract" "onewallet" "next_stage",
    sampleRow "0x04" "genuine_contract" "smartvault" "",
    sampleRow "0x05" "genuine_contract" "other_reviewed_contract" ""]

/-- The contract rows and a wallet in a stage, with figures that agree. -/
def sampleVerification (stage : String) (labels : List (String × Int))
    (initial nextStage deferred : Int) : Inputs :=
  let total := initial + nextStage + deferred
  let issued : ContractTotals := ⟨1, threshold, threshold, 0, 0, 0, 0⟩
  let withheld : ContractTotals := ⟨1, 0, 0, 0, threshold, threshold, 0⟩
  { fields := requiredFields
    rows := sampleContracts ++ [sampleRow "0x06" "wallet" "" stage]
    stageSummary :=
      { status := "passed", outputSha256 := "policy", migrationSummarySha256 := "migration"
        existingNonIssuanceSha256 := [], historicalRetentionSha256 := [], sinceTimeUtc := windowStart
        qualifiedRows := 6, stageRows := labels
        issuanceTreatmentRows := [("issue", 4), ("not_issued", 2)]
        contractGroups := [("multisig", issued), ("layerzero_bridge_collateral", issued),
          ("onewallet", issued), ("smartvault", withheld), ("other_reviewed_contract", withheld)]
        allocation :=
          { grossNativeSnapshotAtto := total + 2 * threshold, existingNonIssuanceAtto := 0
            historicalRetainedCapsAtto := 0, reviewedContractNonIssuanceAtto := 2 * threshold
            initialWalletsAtto := initial, nextStageContractsAtto := nextStage
            deferredWalletsAtto := deferred, totalMigrationAtto := total }
        automaticPolicyAddresses := if stage = "initial" then 1 else 0
        manualRoutingAddresses := 0, validatorInitialAddresses := 0
        belowThresholdAddresses := 0, belowThresholdAtto := 0 }
    migration := ⟨"passed", total + 2 * threshold, 0, 0⟩
    supplyNonIssuance := ⟨"passed", 0, 0, none, 0⟩
    hashes := ⟨"policy", "migration", [], []⟩
    outputFree := true
    reportFree := true }

def initialVerification : Inputs :=
  sampleVerification "initial" [("initial", 1), ("next_stage", 3)] threshold (3 * threshold) 0

/-- An active wallet above the threshold among the contracts. -/
def nextStageVerification : Inputs :=
  sampleVerification "next_stage" [("next_stage", 4)] 0 (4 * threshold) 0

/-- An inactive wallet that the deferred figure leaves out. -/
def uncoveredVerification : Inputs :=
  sampleVerification "deferred" [("next_stage", 3), ("deferred", 1)] 0 (3 * threshold) 0

/-! ## Stages -/

def stageLabels : List String := ["initial", "next_stage", "deferred"]

/-- The documented stage of every row. -/
structure DocumentedStages (since : Int) (read : List PolicyRow) : Prop where
  wallet : ∀ r ∈ read, r.isWallet = true → 0 < r.allocation →
    (r.stage = some "initial" ↔ r.meetsThreshold = true ∧ r.active since = true) ∧
      (¬ (r.meetsThreshold = true ∧ r.active since = true) → r.stage = some "deferred")
  contract : ∀ r ∈ read, r.isContract = true →
    r.stage = some "next_stage" ∨ r.treatment = some "not_issued"
  labels : ∀ r ∈ read, r.staged = true → r.stage.getD "" ∈ stageLabels

/-- The labels that no check refuses and no documented stage has do not occur. -/
structure KnownLabels (inputs : Inputs) : Prop where
  summary : ∀ entry ∈ inputs.stageSummary.stageRows, entry.1 ∈ stageLabels
  wallet : ∀ row ∈ inputs.rows, (row.lookup "account_classification").join = some "wallet" ∨
    (row.lookup "account_classification").join = some "validator_wallet" →
      (row.lookup "migration_stage").join ≠ some "next_stage"
  contract : ∀ row ∈ inputs.rows,
    (row.lookup "account_classification").join = some "genuine_contract" →
      (row.lookup "migration_stage").join ≠ some "deferred"

theorem raisePython_get {row : Row} {field : String} {cell : Option String}
    (h : raisePython (row.get field) = .ok cell) : (row.lookup field).join = cell := by
  rw [raisePython_ok, Row.get] at h
  cases hrow : row.lookup field with
  | none => rw [hrow] at h; cases h
  | some value => rw [hrow] at h; cases h; rfl

/-- The cells of a row that decide its stage are those that were checked. -/
theorem checkRow_cells {py : PolicyText} {since : Int} {line : Nat} {row : Row} {r : PolicyRow}
    (h : checkRow py since line row = .ok r) :
    (row.lookup "account_classification").join = r.classification ∧
      (row.lookup "migration_stage").join = r.stage := by
  simp only [checkRow, bind_eq_ok] at h
  obtain ⟨amounts, -, -, -, qualification, -, -, -, -, -, stage, hstage, treatment, -, -, -, -, -,
    -, -, activity, -, -, -, hr⟩ := h
  cases hr
  exact ⟨rfl, raisePython_get hstage⟩

/-- An issued row has a stage, one of those that the summary lists. -/
theorem Verified.labelled {py : PolicyText} {inputs : Inputs} {result : Result} {since : Int}
    {read : List PolicyRow} (h : Verified py inputs result since read)
    (hknown : ∀ entry ∈ inputs.stageSummary.stageRows, entry.1 ∈ stageLabels) {r : PolicyRow}
    (hr : r ∈ read) (hstaged : r.staged = true) :
    r.stage = some "initial" ∨ r.stage = some "next_stage" ∨ r.stage = some "deferred" := by
  obtain ⟨entry, hentry, hlabel⟩ := List.mem_map.mp ((h.stages _).mpr ⟨r, hr, hstaged, rfl⟩)
  have hmem := hknown entry hentry
  rw [hlabel] at hmem
  rw [stage_of_staged hstaged]
  simpa [stageLabels] using hmem

theorem Checked.staged {since : Int} {r : PolicyRow} (h : Checked since r)
    (hpos : 0 < r.allocation) : r.staged = true := by
  rcases h.treatment with ⟨-, hstaged, -⟩ | ⟨-, -, hzero⟩
  · exact hstaged
  · omega

theorem documented_of_known {py : PolicyText} {inputs : Inputs} {result : Result} {since : Int}
    {read : List PolicyRow} (h : Verified py inputs result since read)
    (hknown : KnownLabels inputs) : DocumentedStages since read := by
  constructor
  case wallet =>
    intro r hr hwallet hpos
    have hchecked := h.checked hr
    obtain ⟨numbered, hnumbered, hrow⟩ := forall₂_exists_right h.rows hr
    obtain ⟨hclass, hstage⟩ := checkRow_cells hrow
    have hne : r.stage ≠ some "next_stage" := by
      rw [← hstage]
      refine hknown.wallet numbered.1 (List.fst_mem_of_mem_zipIdx hnumbered) ?_
      rw [hclass]
      exact of_decide_eq_true hwallet
    have hdeferred := hchecked.deferred
    rcases h.labelled hknown.summary hr (hchecked.staged hpos) with hlabel | hlabel | hlabel
    · obtain ⟨-, -, hmeets, hactive⟩ := hchecked.initial hlabel
      exact ⟨⟨fun _ => ⟨hmeets, hactive⟩, fun _ => hlabel⟩, fun hnot => absurd ⟨hmeets, hactive⟩ hnot⟩
    · exact absurd hlabel hne
    · have hnot : ¬ (r.meetsThreshold = true ∧ r.active since = true) :=
        fun hboth => hdeferred ⟨hlabel, hwallet, hpos, hboth⟩
      refine ⟨⟨fun hinitial => ?_, fun hboth => absurd hboth hnot⟩, fun _ => hlabel⟩
      exact absurd (Option.some.inj (hinitial.symm.trans hlabel)) (by decide)
  case contract =>
    intro r hr hcontract
    have hchecked := h.checked hr
    obtain ⟨numbered, hnumbered, hrow⟩ := forall₂_exists_right h.rows hr
    obtain ⟨hclass, hstage⟩ := checkRow_cells hrow
    rcases hchecked.treatment with ⟨-, hstaged, -⟩ | ⟨hnot, -⟩
    · rcases h.labelled hknown.summary hr hstaged with hlabel | hlabel | hlabel
      · exact absurd ⟨hcontract, hlabel⟩ hchecked.contract
      · exact .inl hlabel
      · rw [← hstage] at hlabel
        refine absurd hlabel (hknown.contract numbered.1 (List.fst_mem_of_mem_zipIdx hnumbered) ?_)
        rw [hclass]
        exact of_decide_eq_true hcontract
    · exact .inr hnot
  case labels =>
    intro r hr hstaged
    rcases h.labelled hknown.summary hr hstaged with hlabel | hlabel | hlabel <;>
    · rw [hlabel]
      decide

theorem known_of_documented {py : PolicyText} {inputs : Inputs} {result : Result} {since : Int}
    {read : List PolicyRow} (h : Verified py inputs result since read)
    (hstages : DocumentedStages since read) : KnownLabels inputs := by
  have hread : ∀ row ∈ inputs.rows, ∃ r ∈ read,
      (row.lookup "account_classification").join = r.classification ∧
        (row.lookup "migration_stage").join = r.stage := by
    intro row hmem
    rw [← List.zipIdx_map_fst 0 inputs.rows] at hmem
    obtain ⟨numbered, hnumbered, rfl⟩ := List.mem_map.mp hmem
    obtain ⟨r, hr, hrow⟩ := forall₂_exists_left h.rows hnumbered
    exact ⟨r, hr, checkRow_cells hrow⟩
  constructor
  case summary =>
    intro entry hentry
    obtain ⟨r, hr, hstaged, hlabel⟩ := (h.stages _).mp (List.mem_map_of_mem hentry)
    rw [← hlabel]
    exact hstages.labels r hr hstaged
  case wallet =>
    intro row hmem hclass hnext
    obtain ⟨r, hr, hclassification, hstage⟩ := hread row hmem
    rw [hclassification] at hclass
    rw [hstage] at hnext
    have hpos : 0 < r.allocation := by
      rcases (h.checked hr).treatment with ⟨-, -, hpos⟩ | ⟨-, hstaged, -⟩
      · exact hpos
      · rw [PolicyRow.staged, hnext] at hstaged
        exact absurd hstaged (by decide)
    obtain ⟨hinitial, hdeferred⟩ := hstages.wallet r hr (decide_eq_true hclass) hpos
    by_cases hboth : r.meetsThreshold = true ∧ r.active since = true
    · exact absurd (Option.some.inj (hnext.symm.trans (hinitial.mpr hboth))) (by decide)
    · exact absurd (Option.some.inj (hnext.symm.trans (hdeferred hboth))) (by decide)
  case contract =>
    intro row hmem hclass hlabel
    obtain ⟨r, hr, hclassification, hstage⟩ := hread row hmem
    rw [hclassification] at hclass
    rw [hstage] at hlabel
    rcases hstages.contract r hr (decide_eq_true hclass) with hnext | hnot
    · exact absurd (Option.some.inj (hlabel.symm.trans hnext)) (by decide)
    · rcases (h.checked hr).treatment with ⟨hissue, -⟩ | ⟨-, hstaged, -⟩
      · exact absurd (Option.some.inj (hissue.symm.trans hnot)) (by decide)
      · rw [PolicyRow.staged, hlabel] at hstaged
        exact absurd hstaged (by decide)

/-- A passed verification gives every row its documented stage exactly when the
labels in doubt do not occur. -/
theorem documented_stages_iff {inputs : Inputs} {result : Result}
    (h : main py inputs = .ok result) : ∃ since read,
      parseUtc py inputs.stageSummary.sinceTimeUtc = .ok since ∧
        List.Forall₂ (fun numbered r => checkRow py since (numbered.2 + 2) numbered.1 = .ok r)
          inputs.rows.zipIdx read ∧
        (DocumentedStages since read ↔ KnownLabels inputs) := by
  obtain ⟨since, read, hverified⟩ := main_ok h
  exact ⟨since, read, hverified.window, hverified.rows,
    ⟨known_of_documented hverified, documented_of_known hverified⟩⟩

/-- Contracts wait and the active wallet is initial. -/
theorem documented_stages_iff_initial : KnownLabels initialVerification ∧
    ∃ since read, parseUtc sampleText initialVerification.stageSummary.sinceTimeUtc = .ok since ∧
      List.Forall₂ (fun numbered r =>
        checkRow sampleText since (numbered.2 + 2) numbered.1 = .ok r)
        initialVerification.rows.zipIdx read ∧
      (DocumentedStages since read ↔ KnownLabels initialVerification) := by
  obtain ⟨result, hresult⟩ := exists_of_isOk
    (show (main sampleText initialVerification).isOk = true by decide +kernel)
  refine ⟨⟨by decide +kernel, ?_, ?_⟩, documented_stages_iff sampleText hresult⟩
  · decide +kernel
  · decide +kernel

/-- An active wallet above the threshold passes in the stage of the contracts. -/
theorem wallet_passes_in_next_stage : ∃ result read,
    main sampleText nextStageVerification = .ok result ∧
      List.Forall₂ (fun numbered r =>
        checkRow sampleText 1773100800 (numbered.2 + 2) numbered.1 = .ok r)
        nextStageVerification.rows.zipIdx read ∧ ¬ DocumentedStages 1773100800 read := by
  obtain ⟨result, hresult⟩ := exists_of_isOk
    (show (main sampleText nextStageVerification).isOk = true by decide +kernel)
  obtain ⟨since, read, hverified⟩ := main_ok hresult
  have hsince : parseUtc sampleText nextStageVerification.stageSummary.sinceTimeUtc =
      .ok 1773100800 := by decide +kernel
  cases hsince.symm.trans hverified.window
  refine ⟨result, read, hresult, hverified.rows, fun hstages => ?_⟩
  have hknown := (known_of_documented hverified hstages).wallet
  revert hknown
  decide +kernel

/-! ## Issued amounts -/

/-- The allocations of the rows whose cell has a text. -/
def amountWhere (rows : List Row) (field text : String) : Int :=
  (rows.map fun row =>
    if (row.lookup field).join = some text then
      (intField py.toPyText row "migration_allocation_atto").toOption.getD 0
    else 0).sum

/-- What is issued stays within the total, and every stage within its figure. -/
structure BoundedIssue (inputs : Inputs) (result : Result) : Prop where
  total : result.totalMigrationAtto = result.grossNativeSnapshotAtto -
    result.existingNonIssuanceAtto - result.historicalRetainedCapsAtto -
    result.woneRetainedNotIssuedAtto - result.reviewedContractNonIssuanceAtto
  issued : amountWhere py inputs.rows "issuance_treatment" "issue" ≤ result.totalMigrationAtto
  closure : amountWhere py inputs.rows "migration_stage" "initial" +
    amountWhere py inputs.rows "migration_stage" "next_stage" + result.deferredWalletsAtto =
      result.totalMigrationAtto
  deferred : amountWhere py inputs.rows "migration_stage" "deferred" ≤ result.deferredWalletsAtto
  stages : ∀ row ∈ inputs.rows, ∀ label, (row.lookup "migration_stage").join = some label →
    label ≠ "" → label ∈ stageLabels

/-- The summary lists the three stages only, and its deferred figure covers the
deferred rows. -/
structure DeferredCovered (inputs : Inputs) : Prop where
  summary : ∀ entry ∈ inputs.stageSummary.stageRows, entry.1 ∈ stageLabels
  deferred : amountWhere py inputs.rows "migration_stage" "deferred" ≤
    inputs.stageSummary.allocation.deferredWalletsAtto

theorem checkRow_amounts {py : PolicyText} {since : Int} {line : Nat} {row : Row} {r : PolicyRow}
    (h : checkRow py since line row = .ok r) :
    (row.lookup "issuance_treatment").join = r.treatment ∧
      intField py.toPyText row "migration_allocation_atto" = .ok r.allocation := by
  simp only [checkRow, readAmounts, bind_eq_ok] at h
  obtain ⟨amounts, ⟨gross, -, existing, -, historical, -, wone, -, contract, -, contractWallet, -,
    contractStaked, -, wallet, -, staked, -, allocation, hallocation, hamounts⟩, -, -,
    qualification, -, -, -, -, -, stage, -, treatment, htreatment, -, -, -, -, -, -, activity, -,
    -, -, hr⟩ := h
  cases hr
  cases hamounts
  exact ⟨raisePython_get htreatment, hallocation⟩

theorem amountWhere_eq {py : PolicyText} {since : Int} {rows : List Row} {read : List PolicyRow}
    (h : List.Forall₂ (fun numbered r => checkRow py since (numbered.2 + 2) numbered.1 = .ok r)
      rows.zipIdx read) {field text : String} (p : PolicyRow → Bool)
    (hp : ∀ row line r, checkRow py since line row = .ok r →
      ((row.lookup field).join = some text ↔ p r = true)) :
    amountWhere py rows field text = (read.map fun r => if p r then r.allocation else 0).sum := by
  rw [amountWhere, ← List.zipIdx_map_fst 0 rows, List.map_map]
  congr 1
  rw [← List.forall₂_eq_eq_eq, List.forall₂_map_left_iff, List.forall₂_map_right_iff]
  refine h.imp fun numbered r hrow => ?_
  rw [Function.comp_apply, (checkRow_amounts hrow).2]
  by_cases hpr : p r = true
  · rw [if_pos hpr, if_pos ((hp numbered.1 _ r hrow).mpr hpr)]
    rfl
  · rw [if_neg hpr, if_neg fun hcell => hpr ((hp numbered.1 _ r hrow).mp hcell)]

theorem sumAt_labelled (read : List PolicyRow) {label : String} (hlabel : label ≠ "") :
    KeyedSums.sumAt (labelled read) label =
      (read.map fun r => if r.stage = some label then r.allocation else 0).sum := by
  induction read with
  | nil => rfl
  | cons r read ih =>
    rw [List.map_cons, List.sum_cons, ← ih]
    by_cases hstaged : r.staged = true
    · rw [MigrationStages.labelled, List.filter_cons_of_pos hstaged, List.map_cons,
        KeyedSums.sumAt_cons, stage_of_staged hstaged, ← MigrationStages.labelled]
      simp [eq_comm]
    · have hnot : r.stage ≠ some label := by
        intro hstage
        refine hstaged (decide_eq_true ⟨?_, ?_⟩)
        · rw [hstage]
          exact Option.some_ne_none _
        · rw [hstage]
          exact fun heq => hlabel (Option.some.inj heq)
      rw [MigrationStages.labelled, List.filter_cons_of_neg hstaged, if_neg hnot, zero_add,
        ← MigrationStages.labelled]

theorem Verified.stageAmount {py : PolicyText} {inputs : Inputs} {result : Result} {since : Int}
    {read : List PolicyRow} (h : Verified py inputs result since read) {label : String}
    (hlabel : label ≠ "") : amountWhere py inputs.rows "migration_stage" label =
      KeyedSums.sumAt (MigrationStages.labelled read) label := by
  rw [sumAt_labelled read hlabel]
  refine (amountWhere_eq h.rows (fun r => r.stage = some label) ?_).trans (by simp)
  intro row line r hrow
  rw [(checkRow_cells hrow).2, decide_eq_true_iff]

/-- The issued rows are the staged ones. -/
theorem Verified.issuedAmount {py : PolicyText} {inputs : Inputs} {result : Result} {since : Int}
    {read : List PolicyRow} (h : Verified py inputs result since read) :
    amountWhere py inputs.rows "issuance_treatment" "issue" =
      ((MigrationStages.labelled read).map Prod.snd).sum := by
  have hissue : amountWhere py inputs.rows "issuance_treatment" "issue" =
      (read.map fun r => if r.treatment = some "issue" then r.allocation else 0).sum := by
    refine (amountWhere_eq h.rows (fun r => r.treatment = some "issue") ?_).trans (by simp)
    intro row line r hrow
    rw [(checkRow_amounts hrow).1, decide_eq_true_iff]
  have hall : (read.map fun r => if r.treatment = some "issue" then r.allocation else 0) =
      read.map PolicyRow.allocation := by
    apply List.map_congr_left
    intro r hr
    rcases (h.checked hr).treatment with ⟨htreatment, -⟩ | ⟨htreatment, -, hzero⟩
    · rw [if_pos htreatment]
    · rw [htreatment, if_neg (by decide), hzero]
  have hstaged : ∀ r ∈ read, r.staged = false → r.allocation = 0 := by
    intro r hr hnot
    rcases (h.checked hr).treatment with ⟨-, hstaged, -⟩ | ⟨-, -, hzero⟩
    · rw [hnot] at hstaged
      cases hstaged
    · exact hzero
  rw [hissue, hall, MigrationStages.labelled, List.map_map, ← sum_map_filter hstaged]
  rfl

/-- Where only the three stages occur, they share the issued amount. -/
theorem Verified.issued_eq {py : PolicyText} {inputs : Inputs} {result : Result} {since : Int}
    {read : List PolicyRow} (h : Verified py inputs result since read)
    (hknown : ∀ entry ∈ inputs.stageSummary.stageRows, entry.1 ∈ stageLabels) :
    amountWhere py inputs.rows "issuance_treatment" "issue" =
      amountWhere py inputs.rows "migration_stage" "initial" +
        amountWhere py inputs.rows "migration_stage" "next_stage" +
        amountWhere py inputs.rows "migration_stage" "deferred" := by
  have hshared : ∑ label ∈ ({"initial", "next_stage", "deferred"} : Finset String),
      KeyedSums.sumAt (MigrationStages.labelled read) label =
        ((MigrationStages.labelled read).map Prod.snd).sum := by
    apply KeyedSums.sum_sumAt
    intro e he hnot
    obtain ⟨r, hr, rfl⟩ := List.mem_map.mp he
    obtain ⟨hmem, hstaged⟩ := List.mem_filter.mp hr
    refine absurd ?_ hnot
    rcases h.labelled hknown hmem hstaged with hlabel | hlabel | hlabel <;> simp [hlabel]
  rw [h.issuedAmount, ← hshared, h.stageAmount (by decide), h.stageAmount (by decide),
    h.stageAmount (by decide), Finset.sum_insert (by decide), Finset.sum_insert (by decide),
    Finset.sum_singleton, add_assoc]

theorem Verified.closes {py : PolicyText} {inputs : Inputs} {result : Result} {since : Int}
    {read : List PolicyRow} (h : Verified py inputs result since read) :
    amountWhere py inputs.rows "migration_stage" "initial" +
      amountWhere py inputs.rows "migration_stage" "next_stage" + result.deferredWalletsAtto =
        result.totalMigrationAtto := by
  rw [h.stageAmount (by decide), h.stageAmount (by decide)]
  exact h.closure

/-- A passed verification bounds what is issued exactly when the deferred figure
of the summary covers its rows and no other stage is listed. -/
theorem bounded_issue_iff {inputs : Inputs} {result : Result} (h : main py inputs = .ok result) :
    BoundedIssue py inputs result ↔ DeferredCovered py inputs := by
  obtain ⟨since, read, hverified⟩ := main_ok h
  have hdeferred := hverified.deferred
  constructor
  · intro hbounded
    constructor
    case summary =>
      intro entry hentry
      obtain ⟨r, hr, hstaged, hlabel⟩ := (hverified.stages _).mp (List.mem_map_of_mem hentry)
      obtain ⟨numbered, hnumbered, hrow⟩ := forall₂_exists_right hverified.rows hr
      have hstage := (checkRow_cells hrow).2.trans (stage_of_staged hstaged)
      rw [← hlabel]
      refine hbounded.stages numbered.1 (List.fst_mem_of_mem_zipIdx hnumbered) _ hstage ?_
      intro hempty
      have hnonempty := (of_decide_eq_true hstaged).2
      exact hnonempty (hempty ▸ stage_of_staged hstaged)
    case deferred => rw [← hdeferred]; exact hbounded.deferred
  · intro hcovered
    have hle : amountWhere py inputs.rows "migration_stage" "deferred" ≤
        result.deferredWalletsAtto := hdeferred ▸ hcovered.deferred
    constructor
    case total => exact hverified.total
    case issued =>
      rw [hverified.issued_eq hcovered.summary, ← hverified.closes]
      omega
    case closure => exact hverified.closes
    case deferred => exact hle
    case stages =>
      intro row hmem label hlabel hnonempty
      rw [← List.zipIdx_map_fst 0 inputs.rows] at hmem
      obtain ⟨numbered, hnumbered, rfl⟩ := List.mem_map.mp hmem
      obtain ⟨r, hr, hrow⟩ := forall₂_exists_left hverified.rows hnumbered
      have hstage : r.stage = some label := (checkRow_cells hrow).2.symm.trans hlabel
      have hstaged : r.staged = true := by
        refine decide_eq_true ⟨?_, ?_⟩
        · rw [hstage]
          exact Option.some_ne_none _
        · rw [hstage]
          exact fun heq => hnonempty (Option.some.inj heq)
      rcases hverified.labelled hcovered.summary hr hstaged with heq | heq | heq <;>
      · rw [hstage] at heq
        rw [Option.some.inj heq]
        decide

/-- Without deferred rows a figure of zero covers them. -/
theorem bounded_issue_iff_initial : ∃ result, DeferredCovered sampleText initialVerification ∧
    (BoundedIssue sampleText initialVerification result ↔
      DeferredCovered sampleText initialVerification) := by
  obtain ⟨result, hresult⟩ := exists_of_isOk
    (show (main sampleText initialVerification).isOk = true by decide +kernel)
  refine ⟨result, ⟨?_, ?_⟩, bounded_issue_iff sampleText hresult⟩
  · decide +kernel
  · decide +kernel

/-- Deferred rows pass that the total does not hold. -/
theorem uncovered_deferred_passes : ∃ result,
    main sampleText uncoveredVerification = .ok result ∧
      result.totalMigrationAtto <
        amountWhere sampleText uncoveredVerification.rows "issuance_treatment" "issue" ∧
      ¬ BoundedIssue sampleText uncoveredVerification result := by
  obtain ⟨result, hresult⟩ := exists_of_isOk
    (show (main sampleText uncoveredVerification).isOk = true by decide +kernel)
  obtain ⟨since, read, hverified⟩ := main_ok hresult
  have htotal : result.totalMigrationAtto = 3 * threshold := by
    rw [← hverified.closes, hverified.deferred]
    decide +kernel
  have hissued : amountWhere sampleText uncoveredVerification.rows "issuance_treatment" "issue" =
      4 * threshold := by decide +kernel
  have hlt : result.totalMigrationAtto <
      amountWhere sampleText uncoveredVerification.rows "issuance_treatment" "issue" := by
    rw [htotal, hissued]
    decide
  exact ⟨result, hresult, hlt, fun hbounded => absurd hbounded.issued (by omega)⟩

end MigrationStages
