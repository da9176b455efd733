import SupplyAudit.MigrationStages
import SupplyAudit.TablePublication

/-!
# Contract groups of the migration policy

The groups that the rows make up are compared with the summary one by one, and
the report is written from five of them after the result is published. What is
checked covers the summary's groups, the deduction from the gross amount and the
report as far as the rows of reviewed contracts do.
-/

namespace ContractGroups

open ScriptValues FallibleScan KeyedTable TablePublication AuditFiles NonIssuanceAudit
  MigrationPolicy MigrationStages

variable (py : PolicyText)

/-! ## Up to the published result -/

/-- What `main` does before the result is published: all its checks. -/
def checks (inputs : Inputs) : Except AuditError PolicyState := do
  checkStatus inputs
  checkHashes inputs
  let since ← parseUtc py inputs.stageSummary.sinceTimeUtc
  require (missingFields inputs.fields = []) (.valueError
    ("stage policy is missing fields: " ++ listText (missingFields inputs.fields)))
  let st ← inputs.rows.zipIdx.foldlM (addRow py since) {}
  checkCounts inputs.stageSummary st
  checkSupply inputs
  checkTotals inputs st
  require (inputs.outputFree = true) (.fileExists "output")
  .ok st

/-- The result is published when the checks pass; the report comes after it. -/
theorem main_ok_iff {inputs : Inputs} {result : Result} :
    main py inputs = .ok result ↔ ∃ st, checks py inputs = .ok st ∧
      (checkReport st).isOk = true ∧ inputs.reportFree = true ∧
      MigrationPolicy.Result.mk st.seen.length st.finalStages
        inputs.migration.nativeTotalClaimAtto
        inputs.stageSummary.allocation.existingNonIssuanceAtto
        inputs.stageSummary.allocation.historicalRetainedCapsAtto
        inputs.migration.woneRetainedNotIssuedAtto st.totals.reviewedContractNonIssuance
        (st.stageAllocation "initial") (st.stageAllocation "next_stage")
        inputs.stageSummary.allocation.deferredWalletsAtto (totalMigration inputs st) = result := by
  simp only [main, checks, bind_eq_ok, require_ok]
  constructor
  · rintro ⟨a, ha, b, hb, since, hsince, c, hc, st, hst, d, hd, e, he, f, hf, g, hg, u, hu, v, hv,
      hresult⟩
    exact ⟨st, ⟨a, ha, b, hb, since, hsince, c, hc, st, hst, d, hd, e, he, f, hf, g, hg, rfl⟩,
      by rw [hu]; rfl, hv, Except.ok.inj hresult⟩
  · rintro ⟨st, ⟨a, ha, b, hb, since, hsince, c, hc, st', hst, d, hd, e, he, f, hf, g, hg, hsame⟩,
      hreport, hv, hresult⟩
    cases hsame
    obtain ⟨u, hu⟩ := exists_of_isOk hreport
    exact ⟨a, ha, b, hb, since, hsince, c, hc, st, hst, d, hd, e, he, f, hf, g, hg, u, hu, (), hv,
      congrArg Except.ok hresult⟩

/-- The accumulated groups are those of the summary, their not-issued amounts are
the deduction, and the report finds its groups. -/
structure Resummed (inputs : Inputs) (st : PolicyState) : Prop where
  distinct : (st.contracts.map Prod.fst).Nodup
  named : ∀ entry ∈ st.contracts, entry.1 ≠ none
  groups : ∀ group totals, (some group, totals) ∈ st.contracts ↔
    inputs.stageSummary.contractGroups.lookup group = some totals
  deduction : total ContractTotals.notIssuedAtto st.contracts =
    st.totals.reviewedContractNonIssuance
  report : (checkReport st).isOk = true

/-- A row of a reviewed contract of the group. -/
def HasContract (rows : List Row) (group : String) : Prop :=
  ∃ row ∈ rows, (row.lookup "account_classification").join = some "genuine_contract" ∧
    (row.lookup "policy_group").join = some group

/-- Every group that the summary or the report names has a contract row, and only
contract rows have a reviewed-contract amount that is not issued. -/
structure Covered (inputs : Inputs) : Prop where
  summary : ∀ entry ∈ inputs.stageSummary.contractGroups, HasContract inputs.rows entry.1
  contracts : ∀ row ∈ inputs.rows,
    (row.lookup "account_classification").join ≠ some "genuine_contract" →
      intField py.toPyText row "reviewed_contract_non_issuance_atto" = .ok 0
  report : ∀ group ∈ reportGroups, HasContract inputs.rows group

/-! ## The rows that are read -/

/-- What a contract row adds to its group. -/
def joined (r : PolicyRow) (t : ContractTotals) : ContractTotals := t.add r.amounts

/-- The groups and the deduction after the rows read so far. -/
structure ContractRun (since : Int) (done : List (Row × Nat)) (st : PolicyState)
    (read : List PolicyRow) : Prop where
  rows : List.Forall₂ (fun numbered r => checkRow py since (numbered.2 + 2) numbered.1 = .ok r)
    done read
  contracts : st.contracts =
    grouped PolicyRow.policyGroup {} joined [] (read.filter PolicyRow.isContract)
  deduction : st.totals.reviewedContractNonIssuance =
    (read.map fun r => r.amounts.reviewedContractNonIssuance).sum

variable {py}

theorem ContractRun.add {since : Int} {done : List (Row × Nat)} {st st' : PolicyState}
    {read : List PolicyRow} (h : ContractRun py since done st read) {numbered : Row × Nat}
    (hadd : addRow py since st numbered = .ok st') :
    ∃ r, ContractRun py since (done ++ [numbered]) st' (read ++ [r]) := by
  simp only [addRow, bind_eq_ok] at hadd
  obtain ⟨address, -, -, -, r, hr, hst⟩ := hadd
  cases hst
  refine ⟨r, ?_, ?_, ?_⟩
  · exact List.rel_append h.rows (.cons hr .nil)
  · by_cases hcontract : r.isContract = true
    · have hlast : (read ++ [r]).filter PolicyRow.isContract =
          read.filter PolicyRow.isContract ++ [r] := by
        rw [List.filter_append, List.filter_singleton, hcontract]
        rfl
      rw [hlast, grouped, List.foldl_append, List.foldl_cons, List.foldl_nil, ← grouped,
        ← h.contracts]
      exact if_pos hcontract
    · have hlast : (read ++ [r]).filter PolicyRow.isContract =
          read.filter PolicyRow.isContract := by
        rw [List.filter_append, List.filter_singleton, Bool.eq_false_iff.mpr hcontract]
        exact List.append_nil _
      rw [hlast, ← h.contracts]
      exact if_neg hcontract
  · rw [List.map_append, List.sum_append, ← h.deduction, List.map_singleton, List.sum_singleton]
    rfl

theorem contractRun_of_ok {since : Int} {rows : List Row} {st : PolicyState}
    (h : rows.zipIdx.foldlM (addRow py since) {} = .ok st) :
    ∃ read, ContractRun py since rows.zipIdx st read := by
  have hstart : ContractRun py since [] {} [] := ⟨.nil, rfl, rfl⟩
  have hstep : ∀ done st numbered st', (∃ read, ContractRun py since done st read) →
      addRow py since st numbered = .ok st' →
        ∃ read, ContractRun py since (done ++ [numbered]) st' read := by
    rintro done st numbered st' ⟨read, hread⟩ hadd
    obtain ⟨r, hr⟩ := hread.add hadd
    exact ⟨read ++ [r], hr⟩
  exact foldlM_invariant (fun done st => ∃ read, ContractRun py since done st read) hstep []
    ⟨[], hstart⟩ h

/-- The cells behind what is read of a row. -/
theorem checkRow_group {since : Int} {line : Nat} {row : Row} {r : PolicyRow}
    (h : checkRow py since line row = .ok r) :
    (row.lookup "policy_group").join = r.policyGroup ∧
      intField py.toPyText row "reviewed_contract_non_issuance_atto" =
        .ok r.amounts.reviewedContractNonIssuance ∧
      0 ≤ r.amounts.reviewedContractNonIssuance := by
  simp only [checkRow, readAmounts, bind_eq_ok, require_ok] at h
  obtain ⟨amounts, ⟨gross, -, existing, -, historical, -, wone, -, contract, hcontract,
    contractWallet, -, contractStaked, -, wallet, -, staked, -, allocation, -, hamounts⟩, -,
    hnonnegative, qualification, -, -, -, -, -, stage, -, treatment, -, -, -, -, -, -, -, activity,
    -, -, -, hr⟩ := h
  cases hr
  refine ⟨rfl, ?_, ?_⟩
  · cases hamounts
    exact hcontract
  · exact hnonnegative _ (by simp [Amounts.values])

theorem isContract_iff {since : Int} {line : Nat} {row : Row} {r : PolicyRow}
    (h : checkRow py since line row = .ok r) :
    r.isContract = true ↔
      (row.lookup "account_classification").join = some "genuine_contract" := by
  rw [(checkRow_cells h).1, PolicyRow.isContract, decide_eq_true_iff]

/-- A row of the file and what is read of it. -/
theorem ContractRun.exists_read {since : Int} {rows : List Row} {st : PolicyState}
    {read : List PolicyRow} (h : ContractRun py since rows.zipIdx st read) {row : Row}
    (hrow : row ∈ rows) : ∃ r ∈ read, ∃ line, checkRow py since line row = .ok r := by
  rw [← List.zipIdx_map_fst 0 rows] at hrow
  obtain ⟨numbered, hnumbered, rfl⟩ := List.mem_map.mp hrow
  obtain ⟨r, hr, hcheck⟩ := forall₂_exists_left h.rows hnumbered
  exact ⟨r, hr, _, hcheck⟩

theorem ContractRun.exists_row {since : Int} {rows : List Row} {st : PolicyState}
    {read : List PolicyRow} (h : ContractRun py since rows.zipIdx st read) {r : PolicyRow}
    (hr : r ∈ read) : ∃ row ∈ rows, ∃ line, checkRow py since line row = .ok r := by
  obtain ⟨numbered, hnumbered, hcheck⟩ := forall₂_exists_right h.rows hr
  have hrow : numbered.1 ∈ rows := by
    rw [← List.zipIdx_map_fst 0 rows]
    exact List.mem_map_of_mem hnumbered
  exact ⟨numbered.1, hrow, _, hcheck⟩

/-- The accumulated groups are those of the contract rows. -/
theorem ContractRun.mem_groups {since : Int} {rows : List Row} {st : PolicyState}
    {read : List PolicyRow} (h : ContractRun py since rows.zipIdx st read) (group : String) :
    some group ∈ st.contracts.map Prod.fst ↔ HasContract rows group := by
  rw [h.contracts, mem_keys_grouped]
  constructor
  · rintro (hnone | ⟨r, hr, hgroup⟩)
    · cases hnone
    · obtain ⟨hmem, hcontract⟩ := List.mem_filter.mp hr
      obtain ⟨row, hrow, line, hcheck⟩ := h.exists_row hmem
      exact ⟨row, hrow, (isContract_iff hcheck).mp hcontract, (checkRow_group hcheck).1.trans hgroup⟩
  · rintro ⟨row, hrow, hclass, hgroup⟩
    obtain ⟨r, hr, line, hcheck⟩ := h.exists_read hrow
    refine Or.inr ⟨r, List.mem_filter.mpr ⟨hr, (isContract_iff hcheck).mpr hclass⟩, ?_⟩
    exact (checkRow_group hcheck).1.symm.trans hgroup

theorem ContractRun.nodup {since : Int} {done : List (Row × Nat)} {st : PolicyState}
    {read : List PolicyRow} (h : ContractRun py since done st read) :
    (st.contracts.map Prod.fst).Nodup := by
  rw [h.contracts]
  apply nodup_grouped
  exact List.nodup_nil

/-- The groups hold the not-issued amounts of the contract rows. -/
theorem ContractRun.notIssued {since : Int} {done : List (Row × Nat)} {st : PolicyState}
    {read : List PolicyRow} (h : ContractRun py since done st read) :
    total ContractTotals.notIssuedAtto st.contracts =
      ((read.filter PolicyRow.isContract).map fun r =>
        r.amounts.reviewedContractNonIssuance).sum := by
  have hnil : (([] : List (Option String × ContractTotals)).map Prod.fst).Nodup := List.nodup_nil
  have hjoined : ∀ (r : PolicyRow) (t : ContractTotals), True →
      (joined r t).notIssuedAtto = t.notIssuedAtto + r.amounts.reviewedContractNonIssuance :=
    fun _ _ _ => rfl
  have hsum := total_grouped PolicyRow.policyGroup {} joined (P := fun _ => True) trivial rfl
    (fun _ _ _ => trivial) hjoined hnil (fun _ _ => trivial) (read.filter PolicyRow.isContract)
  rw [h.contracts, hsum]
  exact Int.zero_add _

/-- The deduction exceeds the groups by what other rows have. -/
theorem ContractRun.deduction_iff {since : Int} {rows : List Row} {st : PolicyState}
    {read : List PolicyRow} (h : ContractRun py since rows.zipIdx st read) :
    total ContractTotals.notIssuedAtto st.contracts = st.totals.reviewedContractNonIssuance ↔
      ∀ row ∈ rows, (row.lookup "account_classification").join ≠ some "genuine_contract" →
        intField py.toPyText row "reviewed_contract_non_issuance_atto" = .ok 0 := by
  have hsplit := h.deduction
  have hparts : (read.map fun r => r.amounts.reviewedContractNonIssuance).sum =
      ((read.filter PolicyRow.isContract).map fun r => r.amounts.reviewedContractNonIssuance).sum +
        ((read.filter fun r => !r.isContract).map fun r =>
          r.amounts.reviewedContractNonIssuance).sum := by
    rw [← List.sum_append, ← List.map_append]
    exact ((List.filter_append_perm PolicyRow.isContract read).map _).sum_eq.symm
  have hnonnegative : ∀ r ∈ read.filter (fun r => !r.isContract),
      0 ≤ r.amounts.reviewedContractNonIssuance := by
    intro r hr
    obtain ⟨row, -, line, hcheck⟩ := h.exists_row (List.mem_filter.mp hr).1
    exact (checkRow_group hcheck).2.2
  have hzero : total ContractTotals.notIssuedAtto st.contracts =
      st.totals.reviewedContractNonIssuance ↔
        ∀ r ∈ read.filter (fun r => !r.isContract), r.amounts.reviewedContractNonIssuance = 0 := by
    rw [← sum_eq_zero_iff_of_nonneg hnonnegative, h.notIssued]
    omega
  rw [hzero]
  constructor
  · intro hall row hrow hclass
    obtain ⟨r, hr, line, hcheck⟩ := h.exists_read hrow
    have hother : (!r.isContract) = true := by
      rw [Bool.not_eq_true']
      exact Bool.eq_false_iff.mpr fun hcontract => hclass ((isContract_iff hcheck).mp hcontract)
    rw [(checkRow_group hcheck).2.1, hall r (List.mem_filter.mpr ⟨hr, hother⟩)]
  · intro hall r hr
    obtain ⟨hmem, hother⟩ := List.mem_filter.mp hr
    obtain ⟨row, hrow, line, hcheck⟩ := h.exists_row hmem
    have hclass : (row.lookup "account_classification").join ≠ some "genuine_contract" := by
      intro hclass
      rw [(isContract_iff hcheck).mpr hclass] at hother
      cases hother
    have hamount := (checkRow_group hcheck).2.1
    rw [hall row hrow hclass] at hamount
    exact (Except.ok.inj hamount).symm

/-! ## What the checks cover -/

theorem checkGroup_ok {summary : StageSummary} {entry : Option String × ContractTotals} {u : Unit}
    (h : checkGroup summary entry = .ok u) :
    ∃ group, entry.1 = some group ∧ summary.contractGroups.lookup group = some entry.2 := by
  rw [checkGroup] at h
  cases hentry : entry.1 with
  | none =>
    rw [hentry] at h
    cases h
  | some group =>
    rw [hentry, Option.bind_some] at h
    cases hlookup : summary.contractGroups.lookup group with
    | none =>
      rw [hlookup] at h
      cases h
    | some expected =>
      rw [hlookup] at h
      have hsame : entry.2 = expected := require_ok.mp h
      exact ⟨group, rfl, hlookup.trans (congrArg some hsame.symm)⟩

theorem checkReport_isOk_iff {st : PolicyState} :
    (checkReport st).isOk = true ↔
      ∀ group ∈ reportGroups, some group ∈ st.contracts.map Prod.fst := by
  constructor
  · intro hok group hgroup
    obtain ⟨u, hu⟩ := exists_of_isOk hok
    obtain ⟨us, hus, -⟩ := bind_eq_ok.mp hu
    obtain ⟨v, -, hv⟩ := mapM_ok_left hus hgroup
    exact require_ok.mp hv
  · intro hall
    have hfine : ¬ Rejects (List.mapM fun group =>
        require (some group ∈ st.contracts.map Prod.fst) (.keyError group)) reportGroups := by
      rw [mapM_error_iff]
      rintro ⟨group, hgroup, err, herr⟩
      cases (require_of (hall group hgroup) _).symm.trans herr
    obtain ⟨us, hus⟩ := not_rejects_iff.mp hfine
    rw [checkReport, hus]
    rfl

/-- The sample without its SmartVault row; the summary keeps the group. -/
def missingGroupVerification : Inputs :=
  let summary := initialVerification.stageSummary
  { initialVerification with
    rows := initialVerification.rows.filter fun row =>
      (row.lookup "policy_group").join ≠ some "smartvault"
    stageSummary :=
      { summary with
        qualifiedRows := 5
        issuanceTreatmentRows := [("issue", 4), ("not_issued", 1)]
        allocation :=
          { summary.allocation with
            grossNativeSnapshotAtto := 5 * threshold
            reviewedContractNonIssuanceAtto := threshold } }
    migration := ⟨"passed", 5 * threshold, 0, 0⟩ }

end ContractGroups
