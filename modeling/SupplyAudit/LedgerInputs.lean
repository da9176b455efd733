import SupplyAudit.LedgerTotals
import SupplyAudit.SnapshotRows
import SupplyAudit.StakingTotals

/-!
# The scanners' files as the ledger reads them

The ledger reads the CSV files of the account snapshots and of the staking
claims by field names. Each amount it finds there is the number the scanner
printed.
-/

namespace LedgerInputs

open ByteWords NumeralText ReceiptKeys FallibleScan ScriptValues StateTrie WrapperTotals
  SnapshotRows StakingTotals ActualSupplyLedger LedgerReaders LedgerTotals

variable {codec : StateCodec} {py : PyText}

/-- A balance row under its header. -/
def snapshotRow (row : BalanceRow) : Row := dictRow AccountSnapshot.header row.cells

/-- A staking claim under its header. -/
def stakingRow (codec : StateCodec) (entry : Hash × StakingClaims.Claim) : Row :=
  dictRow StakingClaims.header (StakingClaims.claimRecord codec entry)

section Fields
variable (row : BalanceRow) (entry : Hash × StakingClaims.Claim)

@[simp] theorem snapshotRow_key :
    (snapshotRow row).get "secure_key" = .ok (some (prefixedHex row.key.data)) := by
  rfl

@[simp] theorem snapshotRow_address :
    (snapshotRow row).get "address" = .ok (some row.address) := by
  rfl

@[simp] theorem snapshotRow_balance :
    (snapshotRow row).get "balance_atto" = .ok (some (toString row.balance)) := by
  rfl

@[simp] theorem stakingRow_key :
    (stakingRow codec entry).get "secure_key" = .ok (some (prefixedHex entry.1.data)) := by
  rfl

@[simp] theorem stakingRow_address :
    (stakingRow codec entry).get "address" = .ok (some (addressHex codec entry.2.address)) := by
  rfl

@[simp] theorem stakingRow_active :
    (stakingRow codec entry).get "active_delegation_atto" =
      .ok (some (toString entry.2.active)) := by
  rfl

@[simp] theorem stakingRow_pending :
    (stakingRow codec entry).get "pending_undelegation_atto" =
      .ok (some (toString entry.2.pendingUndelegation)) := by
  rfl

@[simp] theorem stakingRow_reward :
    (stakingRow codec entry).get "unclaimed_reward_atto" =
      .ok (some (toString entry.2.reward)) := by
  rfl

end Fields

/-- A printed amount is read back. -/
theorem intField_of_get {r : KeyedRow} {field : String} {value : Int}
    (hget : r.fields.get field = .ok (some (toString value))) (hnonneg : 0 ≤ value) :
    intField py (some r) field = .ok value := by
  simp only [intField, hget, bind_ok, PyText.parsed, py.int_toString,
    if_neg (Int.not_lt.mpr hnonneg)]

/-- A column of printed amounts adds up to the amounts. -/
theorem columnSum_printed {α : Type} {entries : List α} {toRow : α → Row} {value : α → Int}
    {field : String} {l : List KeyedRow} (hfields : l.map KeyedRow.fields = entries.map toRow)
    (hget : ∀ e ∈ entries, (toRow e).get field = .ok (some (toString (value e))))
    (hnonneg : ∀ e ∈ entries, 0 ≤ value e) :
    columnSum py field l = .ok (entries.map value).sum := by
  have hread : l.mapM (fun r => intField py (some r) field) = .ok (entries.map value) := by
    rw [mapM_ok_iff]
    induction l generalizing entries with
    | nil =>
      rw [List.map_nil, eq_comm, List.map_eq_nil_iff] at hfields
      subst hfields
      exact .nil
    | cons r l ih =>
      obtain ⟨e, rest, rfl, hr, hrest⟩ := List.map_eq_cons_iff.mp hfields.symm
      refine .cons (intField_of_get ?_ (hnonneg e List.mem_cons_self)) ?_
      · rw [← hr]
        exact hget e List.mem_cons_self
      · exact ih hrest.symm (fun e' he => hget e' (List.mem_cons_of_mem e he))
          (fun e' he => hnonneg e' (List.mem_cons_of_mem e he))
  rw [columnSum, hread, bind_ok]

end LedgerInputs
