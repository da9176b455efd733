import Mathlib.Algebra.Order.BigOperators.Group.Finset
import SupplyAudit.RevertLeakAgreement

/-!
# Deductions and claims

The three deduction lists have different overlap rules: inventories and retained
caps exclude each other, and leaked credit is withheld after both. Together they
take no more from an address than its claim.
-/

namespace ClaimBounds

open ScriptValues FallibleScan KeyedTable KeyedSums TraceInspection AuditFiles NonIssuanceAudit
  NonIssuanceTotals NonIssuanceRows RevertLeakAgreement

variable (py : AuditText)

/-! ## Withheld rows -/

structure WithheldEntry where
  address : String
  withheld : Int
  claim : Int

def WithheldEntry.share (e : WithheldEntry) : String × Int := (e.address, e.withheld)

/-- What a row of withheld credit says, after the prior amounts of its address. -/
structure Withheld (prior : String → Int) (row : Row) (e : WithheldEntry) : Prop where
  reads : Reads py "address_hex" "retained_cap_atto" row e.share
  claim : intField py.toPyText row "cutoff_native_claim_atto" = .ok e.claim
  positive : 0 < e.withheld
  capped : e.withheld ≤ e.claim - prior e.address

/-- What the checking loop keeps about the rows it has read. -/
structure WithheldRows (prior : String → Int) (done : List Row) (leak : RevertLeak)
    (entries : List WithheldEntry) : Prop where
  listed : List.Forall₂ (Withheld py prior) done entries
  seen : ∀ e ∈ entries, e.address ∈ leak.seen
  distinct : (entries.map WithheldEntry.address).Nodup
  keys : (leak.byIncident.map Prod.fst).Nodup
  total : leak.total = (entries.map WithheldEntry.withheld).sum

theorem addRevertLeak_ok {py : AuditText} {caps amounts : List (String × Int)} {path : String}
    {leak leak' : RevertLeak} {numbered : Row × Nat}
    (h : addRevertLeak py caps amounts path leak numbered = .ok leak') :
    ∃ e credit incident overlap, Withheld py (priorAt caps amounts) numbered.1 e ∧
      e.address ∉ leak.seen ∧
      leak' = ⟨e.address :: leak.seen,
        update leak.byIncident incident {} fun values => values.add credit e.withheld,
        overlap⟩ := by
  simp only [addRevertLeak, bind_eq_ok, require_ok] at h
  obtain ⟨address, haddress, -, hnew, quoted, -, -, -, withheld, hwithheld, credit, -, claim,
    hclaim, -, hrule, -, -, -, -, incident, -, hleak⟩ := h
  cases hleak
  obtain ⟨hcap, hpos⟩ := hrule
  refine ⟨⟨address, withheld, claim⟩, credit, incident, _, ⟨⟨haddress, hwithheld⟩, hclaim, hpos, ?_⟩,
    hnew, rfl⟩
  change withheld ≤ claim - priorAt caps amounts address
  omega

theorem WithheldRows.add {py : AuditText} {caps amounts : List (String × Int)} {done : List Row}
    {leak leak' : RevertLeak} {entries : List WithheldEntry}
    (h : WithheldRows py (priorAt caps amounts) done leak entries) {path : String}
    {numbered : Row × Nat} (hadd : addRevertLeak py caps amounts path leak numbered = .ok leak') :
    ∃ e, WithheldRows py (priorAt caps amounts) (done ++ [numbered.1]) leak' (entries ++ [e]) := by
  obtain ⟨e, credit, incident, overlap, hrow, hnew, rfl⟩ := addRevertLeak_ok hadd
  refine ⟨e, ?_⟩
  constructor
  case listed => exact List.rel_append h.listed (.cons hrow .nil)
  case seen =>
    intro old hold
    rcases List.mem_append.mp hold with hold | hold
    · exact List.mem_cons_of_mem _ (h.seen old hold)
    · rw [List.mem_singleton.mp hold]
      exact List.mem_cons_self
  case distinct =>
    rw [List.map_append, List.map_singleton]
    refine List.Nodup.append h.distinct (List.nodup_singleton _) ?_
    intro address hold hother
    rw [List.mem_singleton] at hother
    obtain ⟨old, hmem, rfl⟩ := List.mem_map.mp hold
    exact hnew (hother ▸ h.seen old hmem)
  case keys =>
    exact nodup_update h.keys incident {} fun values => values.add credit e.withheld
  case total =>
    have htotal : KeyedTable.total LeakIncident.notIssuedAtto
        (update leak.byIncident incident {} fun values => values.add credit e.withheld) =
        leak.total + e.withheld := total_update_add h.keys incident rfl fun _ => rfl
    rw [List.map_append, List.sum_append, ← h.total]
    exact htotal.trans (by simp)

theorem withheldRows_start (prior : String → Int) : WithheldRows py prior [] {} [] :=
  ⟨.nil, fun _ he => absurd he List.not_mem_nil, List.nodup_nil, List.nodup_nil, rfl⟩

theorem loadRevertLeak_ok {py : AuditText} {sha256 : List Row → String} {file : CsvFile}
    {summary : RevertLeakRetention.Summary} {summaryPath : String}
    {caps amounts : List (String × Int)} {leak : RevertLeak}
    (h : loadRevertLeak py sha256 file summary summaryPath caps amounts = .ok leak) :
    ∃ entries, WithheldRows py (priorAt caps amounts) file.rows leak entries := by
  simp only [loadRevertLeak, bind_eq_ok, require_ok] at h
  obtain ⟨-, -, -, -, last, hlast, -, -, hleak⟩ := h
  cases hleak
  have hall := foldlM_invariant
    (fun done leak => ∃ entries,
      WithheldRows py (priorAt caps amounts) (done.map Prod.fst) leak entries)
    (by
      intro done st numbered st' hinv hadd
      obtain ⟨entries, hentries⟩ := hinv
      obtain ⟨e, hnext⟩ := hentries.add hadd
      rw [List.map_append, List.map_singleton]
      exact ⟨entries ++ [e], hnext⟩)
    [] ⟨[], withheldRows_start py _⟩ hlast
  rwa [List.nil_append, List.zipIdx_map_fst] at hall

/-! ## The three lists -/

/-- The rows of withheld credit, if they are given. -/
def leakRows (inputs : Inputs) : List Row :=
  (inputs.revertLeak.map fun input => input.file.rows).getD []

/-- What the final totals stand for. -/
structure Deductions (inputs : Inputs) (t : FinalTotals) (listed : List InventoryEntry)
    (held caps : List RetainedEntry) (withheld : List WithheldEntry) : Prop where
  loaded : LoadedRows py inputs.inventories inputs.balances t.loaded listed held caps
  capped : List.Forall₂ (Withheld py fun address =>
    sumAt (capShares caps) address + sumAt (inventoryShares listed) address)
      (leakRows inputs) withheld
  distinct : (withheld.map WithheldEntry.address).Nodup
  leak_total : t.leakTotal = (withheld.map WithheldEntry.withheld).sum

theorem finalTotals_ok {py : AuditText} {sha256 : List Row → String} {inputs : Inputs}
    {t : FinalTotals} (h : finalTotals py sha256 inputs = .ok t) :
    ∃ listed held caps withheld, Deductions py inputs t listed held caps withheld := by
  simp only [finalTotals, bind_eq_ok, require_ok] at h
  obtain ⟨loaded, hloaded, -, -, -, -, -, -, gross, -, leak, hleak, ht⟩ := h
  cases ht
  obtain ⟨listed, held, caps, hrows⟩ := load_ok hloaded
  refine ⟨listed, held, caps, ?_⟩
  cases hinput : inputs.revertLeak with
  | none =>
    rw [hinput] at hleak
    cases hleak
    have hnone : leakRows inputs = [] := by rw [leakRows, hinput]; rfl
    exact ⟨[], hrows, by rw [hnone]; exact .nil, List.nodup_nil, rfl⟩
  | some input =>
    rw [hinput, loadLeakInput] at hleak
    split at hleak
    · cases hleak
    rw [retainedCaps_eq hrows.retained, existingAmounts_eq hrows.existing, bind_ok, bind_ok,
      bind_eq_ok] at hleak
    obtain ⟨found, hfound, hsome⟩ := hleak
    cases hsome
    obtain ⟨entries, hentries⟩ := loadRevertLeak_ok hfound
    have hsome : leakRows inputs = input.file.rows := by rw [leakRows, hinput]; rfl
    have hprior : priorAt (capShares caps) (inventoryShares listed) = fun address =>
        sumAt (capShares caps) address + sumAt (inventoryShares listed) address :=
      funext fun address => priorAt_eq hrows address
    refine ⟨entries, hrows, ?_, hentries.distinct, hentries.total⟩
    rw [hsome, ← hprior]
    exact hentries.listed

/-! ## Amounts of an address -/

/-- The sum of a field over the rows of an address. -/
def amountAt (rows : List Row) (addressField amountField : String) (share : Int → Int)
    (address : String) : Int :=
  (rows.map fun row =>
    if lowerField py.toPyText row addressField = .ok address then
      share ((intField py.toPyText row amountField).toOption.getD 0)
    else 0).sum

def inventoryAmount (inputs : Inputs) : String → Int :=
  amountAt py (allRows inputs.inventories) "address_hex" "not_issued_atto" id

/-- Only the positive part of a cap is taken. -/
def positiveCap (inputs : Inputs) : String → Int :=
  amountAt py inputs.balances.rows "address" "rpc_retained_cap_atto" (max 0)

def leakAmount (inputs : Inputs) : String → Int :=
  amountAt py (leakRows inputs) "address_hex" "retained_cap_atto" id

theorem amountAt_eq {py : AuditText} {addressField amountField : String} {rows : List Row}
    {entries : List (String × Int)}
    (h : List.Forall₂ (Reads py addressField amountField) rows entries) (share : Int → Int)
    (address : String) : amountAt py rows addressField amountField share address =
      (entries.map fun e => if address = e.1 then share e.2 else 0).sum := by
  rw [amountAt]
  congr 1
  rw [← List.forall₂_eq_eq_eq, List.forall₂_map_left_iff, List.forall₂_map_right_iff]
  refine h.imp fun row e he => ?_
  rw [he.1, he.2]
  by_cases haddress : address = e.1
  · rw [if_pos (by rw [haddress]), if_pos haddress]
    rfl
  · rw [if_neg fun heq => haddress (Except.ok.inj heq).symm, if_neg haddress]

theorem inventoryAmount_eq {py : AuditText} {inputs : Inputs} {t : FinalTotals}
    {listed : List InventoryEntry} {held caps : List RetainedEntry}
    {withheld : List WithheldEntry} (h : Deductions py inputs t listed held caps withheld)
    (address : String) :
    inventoryAmount py inputs address = sumAt (inventoryShares listed) address :=
  amountAt_eq (inventory_reads h.loaded.existing) id address

theorem positiveCap_eq {py : AuditText} {inputs : Inputs} {t : FinalTotals}
    {listed : List InventoryEntry} {held caps : List RetainedEntry}
    {withheld : List WithheldEntry} (h : Deductions py inputs t listed held caps withheld)
    (address : String) : positiveCap py inputs address = sumAt (capShares caps) address := by
  have hreads : List.Forall₂ (Reads py "address" "rpc_retained_cap_atto") inputs.balances.rows
      (held.map RetainedEntry.share) := by
    rw [List.forall₂_map_right_iff]
    exact h.loaded.retained.listed.imp fun row e he => ⟨he.address, he.cap⟩
  rw [positiveCap, amountAt_eq hreads, capShares, h.loaded.retained.positive, sumAt, List.map_map,
    List.map_map, ← sum_map_filter (p := fun e : RetainedEntry => 0 < e.retained)]
  · congr 1
    apply List.map_congr_left
    intro e he
    have hpos := of_decide_eq_true (List.mem_filter.mp he).2
    have hmax : max 0 e.retained = e.retained := max_eq_right (le_of_lt hpos)
    by_cases haddress : address = e.address
    · simp [RetainedEntry.share, haddress, hmax]
    · simp [RetainedEntry.share, haddress]
  · intro e _ he
    have hnot := of_decide_eq_false he
    have hzero : max 0 e.retained = 0 := max_eq_left (by omega)
    simp [RetainedEntry.share, hzero]

def withheldShares (withheld : List WithheldEntry) : List (String × Int) :=
  withheld.map WithheldEntry.share

theorem leakAmount_eq {py : AuditText} {inputs : Inputs} {t : FinalTotals}
    {listed : List InventoryEntry} {held caps : List RetainedEntry}
    {withheld : List WithheldEntry} (h : Deductions py inputs t listed held caps withheld)
    (address : String) :
    leakAmount py inputs address = sumAt (withheldShares withheld) address := by
  refine amountAt_eq ?_ id address
  rw [withheldShares, List.forall₂_map_right_iff]
  exact h.capped.imp fun row e he => he.reads

/-! ## The bound -/

/-- A claim for every address that agrees with what the rows quote. -/
structure Claims (inputs : Inputs) (claim : String → Int) : Prop where
  nonneg : ∀ address, 0 ≤ claim address
  inventory : ∀ row ∈ allRows inputs.inventories, ∀ address quoted,
    lowerField py.toPyText row "address_hex" = .ok address →
    intField py.toPyText row "cutoff_claim_atto" = .ok quoted → claim address = quoted
  retained : ∀ row ∈ inputs.balances.rows, ∀ address balance,
    lowerField py.toPyText row "address" = .ok address →
    intField py.toPyText row "cutoff_balance_atto" = .ok balance → balance ≤ claim address
  leak : ∀ row ∈ leakRows inputs, ∀ address quoted,
    lowerField py.toPyText row "address_hex" = .ok address →
    intField py.toPyText row "cutoff_native_claim_atto" = .ok quoted → claim address = quoted

/-- The amounts of a key in a list of distinct keys, by whether it occurs. -/
theorem sumAt_cases {entries : List (String × Int)} (h : (entries.map Prod.fst).Nodup)
    (key : String) : (∃ e ∈ entries, e.1 = key ∧ sumAt entries key = e.2) ∨
      (key ∉ entries.map Prod.fst ∧ sumAt entries key = 0) := by
  by_cases hmem : key ∈ entries.map Prod.fst
  · obtain ⟨e, he, rfl⟩ := List.mem_map.mp hmem
    exact .inl ⟨e, he, rfl, sumAt_of_mem h he⟩
  · exact .inr ⟨hmem, sumAt_of_not_mem hmem⟩

/-- The first two lists exclude each other and stay within the claim. -/
theorem prior_le_claim {py : AuditText} {inputs : Inputs} {t : FinalTotals}
    {listed : List InventoryEntry} {held caps : List RetainedEntry}
    {withheld : List WithheldEntry} (h : Deductions py inputs t listed held caps withheld)
    {claim : String → Int} (hclaim : Claims py inputs claim) (address : String) :
    0 ≤ sumAt (inventoryShares listed) address ∧ 0 ≤ sumAt (capShares caps) address ∧
      sumAt (inventoryShares listed) address + sumAt (capShares caps) address ≤ claim address := by
  have hnonneg := hclaim.nonneg address
  have hinventory := sumAt_cases (inventoryShares_nodup h.loaded.existing) address
  have hcaps := sumAt_cases (capShares_nodup h.loaded.retained) address
  rcases hinventory with ⟨share, hshare, rfl, hsum⟩ | ⟨-, hsum⟩
  · obtain ⟨e, he, rfl⟩ := List.mem_map.mp hshare
    obtain ⟨row, hrow, hin⟩ := forall₂_exists_right h.loaded.existing.listed he
    have hquoted := hclaim.inventory row hrow _ _ hin.reads.1 hin.claim
    obtain ⟨hpos, hle⟩ := hin.bounds
    have hzero : sumAt (capShares caps) e.share.1 = 0 := by
      rcases hcaps with ⟨cap, hcap, heq, -⟩ | ⟨-, hzero⟩
      · obtain ⟨c, hc, rfl⟩ := List.mem_map.mp hcap
        exact absurd heq.symm (h.loaded.disjoint e he c hc)
      · exact hzero
    have hamount : sumAt (inventoryShares listed) e.share.1 = e.amount := hsum
    have hclaimed : claim e.share.1 = e.claim := hquoted
    omega
  · rcases hcaps with ⟨cap, hcap, rfl, hcapSum⟩ | ⟨-, hzero⟩
    · obtain ⟨c, hc, rfl⟩ := List.mem_map.mp hcap
      obtain ⟨hpos, row, hrow, horigin⟩ := h.loaded.retained.origin hc
      have hbalance := hclaim.retained row hrow _ _ horigin.address horigin.balance
      have hamount : sumAt (capShares caps) c.share.1 = c.retained := hcapSum
      have hbound := horigin.bounded
      have hclaimed : c.balance ≤ claim c.share.1 := hbalance
      omega
    · omega

theorem deductions_le_claim {py : AuditText} {inputs : Inputs} {t : FinalTotals}
    {listed : List InventoryEntry} {held caps : List RetainedEntry}
    {withheld : List WithheldEntry} (h : Deductions py inputs t listed held caps withheld)
    {claim : String → Int} (hclaim : Claims py inputs claim) (address : String) :
    0 ≤ sumAt (withheldShares withheld) address ∧
      sumAt (inventoryShares listed) address + sumAt (capShares caps) address +
        sumAt (withheldShares withheld) address ≤ claim address := by
  obtain ⟨-, -, hprior⟩ := prior_le_claim h hclaim address
  have hnodup : ((withheldShares withheld).map Prod.fst).Nodup := by
    rw [withheldShares, List.map_map]
    exact h.distinct
  rcases sumAt_cases hnodup address with ⟨share, hshare, rfl, hsum⟩ | ⟨-, hzero⟩
  · obtain ⟨e, he, rfl⟩ := List.mem_map.mp hshare
    obtain ⟨row, hrow, hwithheld⟩ := forall₂_exists_right h.capped he
    have hquoted := hclaim.leak row hrow _ _ hwithheld.reads.1 hwithheld.claim
    have hpos := hwithheld.positive
    have hcapped : e.withheld ≤ e.claim - (sumAt (capShares caps) e.share.1 +
        sumAt (inventoryShares listed) e.share.1) := hwithheld.capped
    have hamount : sumAt (withheldShares withheld) e.share.1 = e.withheld := hsum
    have hclaimed : claim e.share.1 = e.claim := hquoted
    omega
  · omega

/-- The final totals are shared out over the addresses that have claims. -/
theorem combined_eq {py : AuditText} {inputs : Inputs} {t : FinalTotals}
    {listed : List InventoryEntry} {held caps : List RetainedEntry}
    {withheld : List WithheldEntry} (h : Deductions py inputs t listed held caps withheld)
    {claim : String → Int} (hclaim : Claims py inputs claim) {addresses : Finset String}
    (haddresses : ∀ address ∉ addresses, claim address = 0) :
    t.combined = ∑ address ∈ addresses, (sumAt (inventoryShares listed) address +
      sumAt (capShares caps) address + sumAt (withheldShares withheld) address) := by
  have hzero : ∀ address ∉ addresses, sumAt (inventoryShares listed) address = 0 ∧
      sumAt (capShares caps) address = 0 ∧ sumAt (withheldShares withheld) address = 0 := by
    intro address hnot
    obtain ⟨hinventory, hcaps, -⟩ := prior_le_claim h hclaim address
    obtain ⟨hwithheld, hbound⟩ := deductions_le_claim h hclaim address
    rw [haddresses address hnot] at hbound
    omega
  have hinventory := inventoryShares_nodup h.loaded.existing
  have hcaps := capShares_nodup h.loaded.retained
  have hwithheld : ((withheldShares withheld).map Prod.fst).Nodup := by
    rw [withheldShares, List.map_map]
    exact h.distinct
  rw [Finset.sum_add_distrib, Finset.sum_add_distrib,
    sum_sumAt addresses fun e he hnot => (sumAt_of_mem hinventory he).symm.trans (hzero e.1 hnot).1,
    sum_sumAt addresses fun e he hnot => (sumAt_of_mem hcaps he).symm.trans (hzero e.1 hnot).2.1,
    sum_sumAt addresses fun e he hnot => (sumAt_of_mem hwithheld he).symm.trans (hzero e.1 hnot).2.2,
    FinalTotals.combined, FinalTotals.existingTotal, FinalTotals.retainedTotal,
    h.loaded.existing.total, h.loaded.retained.total, h.leak_total, inventoryShares, capShares,
    withheldShares, List.map_map, List.map_map, List.map_map]
  rfl

/-- The error of the last check. -/
def exceedsGross : AuditError :=
  .valueError "combined non-issuance exceeds the gross cutoff claim"

theorem writeAtomic_ne (target : RevertLeakRetention.Target) (replace : Bool) (text : String) :
    RevertLeakRetention.writeAtomic target replace ≠ .error (.valueError text) := by
  rw [RevertLeakRetention.writeAtomic, require, require]
  split <;> split <;> exact fun h => by cases h

theorem intField_ne {py : AuditText} {row : Row} {field text : String} :
    intField py.toPyText row field ≠ .error (.valueError text) := by
  rw [intField]
  cases row.get field with
  | error err => exact fun h => by cases h
  | ok cell =>
    rw [raisePython, bind_ok]
    cases py.toPyText.parsed cell with
    | error err => exact fun h => by cases h
    | ok amount => exact fun h => by cases h

theorem main_ne {py : AuditText} {sha256 : List Row → String} {inputs : Inputs} {t : FinalTotals}
    (h : finalTotals py sha256 inputs = .ok t) (hle : t.combined ≤ t.gross)
    (outputCsv summaryOutput : RevertLeakRetention.Target) (replace : Bool) :
    NonIssuanceTotals.main py sha256 inputs outputCsv summaryOutput replace ≠
      .error exceedsGross := by
  rw [NonIssuanceTotals.main, h, bind_ok, require_of hle, bind_ok]
  refine bind_ne_error (writeAtomic_ne outputCsv replace _) fun _ => ?_
  split
  · nofun
  · refine bind_ne_error intField_ne fun _ => ?_
    exact bind_ne_error (writeAtomic_ne summaryOutput replace _) fun _ => nofun

/-- The account of every address and, over all claims, of the totals. -/
structure WithinClaims (inputs : Inputs) (t : FinalTotals) (claim : String → Int) : Prop where
  bound : ∀ address, inventoryAmount py inputs address + positiveCap py inputs address +
    leakAmount py inputs address ≤ claim address
  closure : ∀ addresses : Finset String, (∀ address ∉ addresses, claim address = 0) →
    t.gross = ∑ address ∈ addresses, claim address →
      t.combined ≤ t.gross ∧ ∃ remaining, 0 ≤ remaining ∧
        t.gross = remaining + t.existingTotal + t.retainedTotal + t.leakTotal
  accepted : ∀ addresses : Finset String, (∀ address ∉ addresses, claim address = 0) →
    t.gross = ∑ address ∈ addresses, claim address →
      ∀ sha256 outputCsv summaryOutput replace, finalTotals py sha256 inputs = .ok t →
        NonIssuanceTotals.main py sha256 inputs outputCsv summaryOutput replace ≠
          .error exceedsGross

/-- No address loses more than its claim. -/
theorem deductions_within_claims {sha256 : List Row → String} {inputs : Inputs} {t : FinalTotals}
    (h : finalTotals py sha256 inputs = .ok t) {claim : String → Int}
    (hclaim : Claims py inputs claim) : WithinClaims py inputs t claim := by
  obtain ⟨listed, held, caps, withheld, hrows⟩ := finalTotals_ok h
  have hbound : ∀ address, inventoryAmount py inputs address + positiveCap py inputs address +
      leakAmount py inputs address ≤ claim address := by
    intro address
    rw [inventoryAmount_eq hrows, positiveCap_eq hrows, leakAmount_eq hrows]
    exact (deductions_le_claim hrows hclaim address).2
  have hle : ∀ addresses : Finset String, (∀ address ∉ addresses, claim address = 0) →
      t.gross = ∑ address ∈ addresses, claim address → t.combined ≤ t.gross := by
    intro addresses haddresses hgross
    rw [combined_eq hrows hclaim haddresses, hgross]
    exact Finset.sum_le_sum fun address _ => (deductions_le_claim hrows hclaim address).2
  constructor
  case bound => exact hbound
  case closure =>
    intro addresses haddresses hgross
    have hcombined := hle addresses haddresses hgross
    refine ⟨hcombined, t.gross - t.combined, by omega, ?_⟩
    rw [FinalTotals.combined]
    omega
  case accepted =>
    intro addresses haddresses hgross sha256' outputCsv summaryOutput replace hfinal
    exact main_ne hfinal (hle addresses haddresses hgross) outputCsv summaryOutput replace

/-- The sample lists with one withheld row for the address of the balance. -/
def sampleInputs : Inputs where
  inventories := [sampleInventory]
  balances := sampleBalances
  retainedSummary := ⟨100, 0, [("may-2025", ⟨1, "4", 0⟩)], "0xb1", "2026-09-10", "2026-09-16"⟩
  totalClaimAtto := "16"
  revertLeak := some
    { file := ⟨"leaks.csv", [[("address_hex", some (sampleAddress 'b')),
        ("incident", some "may-2025"), ("unbacked_credit_atto", some "5"),
        ("cutoff_native_claim_atto", some "6"), ("prior_non_issuance_atto", some "4"),
        ("retained_cap_atto", some "2"), ("migration_treatment", some "not_issued")]]⟩
      summary := some
        { status := "passed", rule := "", leakClassifications := [], leakReceipts := 1
          creditedRecipients := 1, unbackedCreditAtto := "5", unbackedCreditOne := ""
          positiveRows := 1, notIssuedAtto := "2", notIssuedOne := ""
          addressesWithEarlierNonIssuance := [], byIncident := [], cutoffBlock := 100
          csvSha256 := "digest", rows := 1 }
      summaryPath := "leaks.json" }

def sampleClaim (address : String) : Int :=
  if address = sampleAddress 'a' then 10 else if address = sampleAddress 'b' then 6 else 0

theorem sampleClaim_claims : Claims AuditText.ascii sampleInputs sampleClaim := by
  constructor
  case nonneg =>
    intro address
    rw [sampleClaim]
    split
    · decide
    · split <;> decide
  case inventory =>
    intro row hrow address quoted haddress hquoted
    rw [List.mem_singleton.mp hrow] at haddress hquoted
    have hread : lowerField PyText.ascii (sampleInventory.rows.head (by decide)) "address_hex" =
        .ok (sampleAddress 'a') := by decide +kernel
    have hclaim : intField PyText.ascii (sampleInventory.rows.head (by decide))
        "cutoff_claim_atto" = .ok 10 := by decide +kernel
    cases hread.symm.trans haddress
    cases hclaim.symm.trans hquoted
    decide +kernel
  case retained =>
    intro row hrow address balance haddress hbalance
    rw [List.mem_singleton.mp hrow] at haddress hbalance
    have hread : lowerField PyText.ascii (sampleBalances.rows.head (by decide)) "address" =
        .ok (sampleAddress 'b') := by decide +kernel
    have hvalue : intField PyText.ascii (sampleBalances.rows.head (by decide))
        "cutoff_balance_atto" = .ok 4 := by decide +kernel
    cases hread.symm.trans haddress
    cases hvalue.symm.trans hbalance
    decide +kernel
  case leak =>
    intro row hrow address quoted haddress hquoted
    rw [List.mem_singleton.mp hrow] at haddress hquoted
    have hread : lowerField PyText.ascii ((leakRows sampleInputs).head (by decide)) "address_hex" =
        .ok (sampleAddress 'b') := by decide +kernel
    have hclaim : intField PyText.ascii ((leakRows sampleInputs).head (by decide))
        "cutoff_native_claim_atto" = .ok 6 := by decide +kernel
    cases hread.symm.trans haddress
    cases hclaim.symm.trans hquoted
    decide +kernel

/-- The address in two of the lists loses its whole claim and no more. -/
theorem deductions_within_claims_sample : ∃ t,
    WithinClaims AuditText.ascii sampleInputs t sampleClaim := by
  obtain ⟨t, ht⟩ := exists_of_isOk
    (show (finalTotals AuditText.ascii (fun _ => "digest") sampleInputs).isOk = true by
      decide +kernel)
  exact ⟨t, deductions_within_claims AuditText.ascii ht sampleClaim_claims⟩

end ClaimBounds
