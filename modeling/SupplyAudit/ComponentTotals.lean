import SupplyAudit.Reconciliation

/-!
# Components of the reconciliation

The state gap adds up the list of components and the subtotals look components
up by name, where a later component replaces an earlier one of its name. Both
views account for the same amounts exactly when the replaced ones cancel.
-/

namespace ComponentTotals

open FallibleScan KeyedTable KeyedSums TablePublication AuditFiles HistoricalClosure
  Reconciliation

/-- The December mint, the max-rate net effect and the cross-shard components. -/
def knownNames : List String := [decemberName, maxRateName, legacyName, traceName, absentName]

def namedAmounts (components : List Component) : List (String × Int) :=
  components.map fun component => (component.name, component.atto)

/-- The listed amounts of the known names. -/
def knownTotal (components : List Component) : Int :=
  ((components.filter fun component => component.name ∈ knownNames).map Component.atto).sum

/-- Ledger and known-unauthorized subtotal account for every listed component. -/
structure AccountsForAll (inputs : Inputs) : Prop where
  claim : inputs.ledger.totalClaim = inputs.formula.formulaBeforeExclusions +
    (inputs.reconciliation.components.map Component.atto).sum +
      inputs.reconciliation.pendingReceipts
  known : inputs.reconciliation.knownNet = knownTotal inputs.reconciliation.components

/-- The components of the list that a later one of the same name replaces. -/
def replaced : List Component → List Component
  | [] => []
  | component :: rest =>
    if component.name ∈ rest.map Component.name then component :: replaced rest else replaced rest

/-- The replaced components of the known names cancel. -/
def ReplacedCancel (components : List Component) : Prop := knownTotal (replaced components) = 0

instance (components : List Component) : Decidable (ReplacedCancel components) :=
  inferInstanceAs (Decidable (_ = _))

theorem namedAmounts_replaced (components : List Component) :
    namedAmounts (replaced components) = overwritten (namedAmounts components) := by
  induction components with
  | nil => rfl
  | cons component rest ih =>
    have hkeys : (namedAmounts rest).map Prod.fst = rest.map Component.name := by
      rw [namedAmounts, List.map_map]
      rfl
    change _ = (if component.name ∈ (namedAmounts rest).map Prod.fst then
      (component.name, component.atto) :: overwritten (namedAmounts rest)
      else overwritten (namedAmounts rest))
    rw [replaced, hkeys, ← ih]
    by_cases hagain : component.name ∈ rest.map Component.name
    · rw [if_pos hagain, if_pos hagain]
      rfl
    · rw [if_neg hagain, if_neg hagain]

theorem nodup_knownNames : knownNames.Nodup := by decide

theorem knownTotal_eq (components : List Component) :
    knownTotal components = (knownNames.map (sumAt (namedAmounts components))).sum := by
  rw [sum_sumAt_keys nodup_knownNames, namedAmounts, List.filter_map, List.map_map]
  rfl

/-- What the dictionary holds under a name, nothing if it has none. -/
def heldAt (components : List Component) (name : String) : Int :=
  ((byName components).lookup name).getD 0

theorem sumAt_namedAmounts (components : List Component) (name : String) :
    sumAt (namedAmounts components) name =
      heldAt components name + sumAt (namedAmounts (replaced components)) name := by
  rw [namedAmounts_replaced, sumAt_written [] (namedAmounts components) name]
  by_cases hmem : name ∈ (namedAmounts components).map Prod.fst
  · rw [if_pos hmem]
    rfl
  · have hnone : (byName components).lookup name = none := lookup_written_of_not_mem hmem []
    rw [if_neg hmem, heldAt, hnone, Option.getD_none]

/-- The listed amounts are the held ones and those they replaced. -/
theorem knownTotal_split (components : List Component) :
    knownTotal components =
      (knownNames.map (heldAt components)).sum + knownTotal (replaced components) := by
  rw [knownTotal_eq, knownTotal_eq (replaced components)]
  rw [List.map_congr_left fun name _ => sumAt_namedAmounts components name]
  exact List.sum_map_add

/-- The subtotal is that of the dictionary. -/
theorem crossShard_eq {components : List Component} {shares : CrossShard}
    (h : crossShardComponents (byName components) = .ok shares) :
    shares.totalUnbackedCredit = heldAt components legacyName + heldAt components traceName +
      heldAt components absentName := by
  rw [crossShardComponents] at h
  simp only [heldAt]
  cases hlegacy : (byName components).lookup legacyName <;>
    cases htrace : (byName components).lookup traceName <;>
    cases habsent : (byName components).lookup absentName <;>
    simp only [hlegacy, htrace, habsent] at h <;> cases h <;> simp

theorem item_eq {components : List Component} {name : String} {amount : Int}
    (h : item (byName components) name = .ok amount) : heldAt components name = amount := by
  rw [item] at h
  rw [heldAt]
  cases hname : (byName components).lookup name with
  | none =>
    rw [hname] at h
    cases h
  | some value =>
    rw [hname] at h
    exact Except.ok.inj h

theorem demand_ok {condition : Prop} [Decidable condition] {text : String} {u : Unit} :
    demand condition text = .ok u ↔ condition := require_ok

/-- The figures that the component section ties together. -/
theorem checkComponents_ok {r : ReconciliationFile} {known : KnownAmounts}
    (h : checkComponents r = .ok known) :
    (r.components.map Component.atto).sum = r.stateGap ∧
      r.stateGap + r.pendingReceipts = r.claimGap ∧
      (knownNames.map (heldAt r.components)).sum = r.knownNet := by
  simp only [checkComponents, bind_eq_ok, demand_ok] at h
  obtain ⟨-, hsum, -, hclaim, shares, hshares, december, hdecember, maxRateNet, hmaxRate, rounding,
    -, -, -, -, hknown, -⟩ := h
  refine ⟨hsum, hclaim, ?_⟩
  rw [crossShard_eq hshares, ← item_eq hdecember, ← item_eq hmaxRate] at hknown
  simp only [knownNames, List.map_cons, List.map_nil, List.sum_cons, List.sum_nil]
  omega

theorem checkFormula_ok {f : FormulaInput} {formulaBeforeExclusions : Int}
    (h : checkFormula f = .ok formulaBeforeExclusions) :
    formulaBeforeExclusions = f.formulaBeforeExclusions := by
  simp only [checkFormula, bind_eq_ok, demand_ok] at h
  obtain ⟨-, -, -, -, -, hformula, hsame⟩ := h
  exact (Except.ok.inj hsame).symm.trans hformula

/-- Whenever the verification passes, every component is accounted for exactly when
the components of the known names that others replace cancel. -/
theorem accounts_for_all_iff (py : ScriptValues.PyText) (inputs : Inputs) {passed : Passed}
    (h : main py inputs = .ok passed) :
    AccountsForAll inputs ↔ ReplacedCancel inputs.reconciliation.components := by
  simp only [main, bind_eq_ok] at h
  obtain ⟨known, hknown, -, -, formulaBeforeExclusions, hformula, u, hledger, -⟩ := h
  obtain ⟨hsum, hclaim, hheld⟩ := checkComponents_ok hknown
  simp only [checkLedger, bind_eq_ok, demand_ok] at hledger
  obtain ⟨-, -, -, -, -, -, hgap⟩ := hledger
  have hsplit := knownTotal_split inputs.reconciliation.components
  have hbase := checkFormula_ok hformula
  constructor
  · intro haccounts
    have hnet := haccounts.known
    rw [ReplacedCancel]
    omega
  · intro hcancel
    rw [ReplacedCancel] at hcancel
    constructor
    · omega
    · omega

/-! ## Result files with one and with two December components -/

def samplePolicy : PolicySemantics where
  treasuryDestination := none
  availableForOtherUse := false
  oldChainGrossClaimChanged := false
  migrationAllocationReduced := true
  fixedTotalSupplyChanged := false
  compositePolicySummary := compositePolicy

/-- The December mint, the max-rate effect, the rounding and a legacy leak. -/
def sampleComponents : List Component :=
  [⟨decemberName, 7⟩, ⟨maxRateName, 3⟩, ⟨roundingName, 2⟩, ⟨legacyName, 11⟩]

def sampleReconciliation (earlier : List Component) : ReconciliationFile :=
  let stateGap := 23 + (earlier.map Component.atto).sum
  { components := earlier ++ sampleComponents
    stateGap := stateGap
    pendingReceipts := 4
    claimGap := stateGap + 4
    maxRate := ⟨3, 10, 6, 4, true, 5, 1, 3, 3⟩
    knownNet := 21
    knownPeak := 28
    preExistingNet := -50
    treasuryReclaim := "0"
    policy := samplePolicy }

def literal (amount : Int) : Specification := .literal (toString amount)

/-- Three checkpoints, of which the last has the state gap. -/
def sampleClosure (stateGap : Int) : Configuration where
  genesis := literal 100
  preStakingRewards := literal 10
  checkpoints :=
    [{ name := "post-2023-fix", shard0Claims := literal 60, shard1Claims := literal 0,
       blockRewardAccumulator := literal 0 },
     { name := "top-max-rate-cleanup", shard0Claims := literal 63, shard1Claims := literal 0,
       blockRewardAccumulator := literal 0 },
     { name := "cutoff", shard0Claims := literal (100 + stateGap), shard1Claims := literal 12,
       blockRewardAccumulator := literal 2,
       adjustments := [("recovery", literal (stateGap + 45))] }]

/-- Files that pass, with these components listed before the others. -/
def sampleInputs (earlier : List Component) : Inputs :=
  let r := sampleReconciliation earlier
  let total := 116 + r.stateGap
  { reconciliation := r
    formula := ⟨100, 10, 1, 1, 2, 1, 2, 112⟩
    cutoffSupplyClaims := 100 + r.stateGap
    ledger := ⟨12, total, 4⟩
    pendingActive := 4
    closure := sampleClosure r.stateGap
    closureFiles := fun path _ => .error (.fileNotFound path)
    december := ⟨7, [7]⟩
    burn := ⟨[], 0⟩
    precompile := ⟨13697024, 79602, 0⟩
    treasury := ⟨"0", "superseded"⟩
    nonIssuance :=
      { migrationTreatment := "not_issued", policy := samplePolicy, existingNotIssued := 0
        retainedNotIssued := 0, retainedOverlaps := false, leak := none, notIssued := 0
        grossCutoffClaim := total, remaining := total, retainedRows := 0
        retainedSha256 := "retained" }
    heldCaps := []
    retainedCsv := ⟨"retained.csv", [], "retained", 9⟩
    isFile := fun _ => true
    releaseAssets := [⟨"retained.csv", 9, 0, "retained"⟩]
    leakCsv := ⟨"leaks.csv", [], "leaks", 0⟩ }

theorem accounts_for_sample : ∃ passed,
    main .ascii (sampleInputs []) = .ok passed ∧ AccountsForAll (sampleInputs []) := by
  obtain ⟨passed, hpassed⟩ := exists_of_isOk
    (show (main .ascii (sampleInputs [])).isOk = true by decide +kernel)
  have hcancel : ReplacedCancel (sampleInputs []).reconciliation.components := by
    decide +kernel
  exact ⟨passed, hpassed, (accounts_for_all_iff .ascii (sampleInputs []) hpassed).mpr hcancel⟩

/-- A second December component is in the state gap and not in the subtotal. -/
theorem replaced_component_passes : ∃ passed,
    main .ascii (sampleInputs [⟨decemberName, 5⟩]) = .ok passed ∧
      knownTotal (sampleInputs [⟨decemberName, 5⟩]).reconciliation.components = 26 ∧
      (sampleInputs [⟨decemberName, 5⟩]).reconciliation.knownNet = 21 ∧
      ¬ AccountsForAll (sampleInputs [⟨decemberName, 5⟩]) := by
  obtain ⟨passed, hpassed⟩ := exists_of_isOk
    (show (main .ascii (sampleInputs [⟨decemberName, 5⟩])).isOk = true by decide +kernel)
  have htotal : knownTotal (sampleInputs [⟨decemberName, 5⟩]).reconciliation.components = 26 := by
    decide +kernel
  refine ⟨passed, hpassed, htotal, rfl, ?_⟩
  intro haccounts
  have hknown := haccounts.known
  rw [htotal] at hknown
  cases hknown

end ComponentTotals
