import SupplyAudit.ExploitPhases

/-!
# Every audited receipt is counted once

The export adds up the receipts of the source audits by shard and transaction
hash. What the node answers, which transactions are added and traced, and in
which order, changes none of these sums.
-/

namespace ExploitReceipts

open ScriptValues AuditFiles FallibleScan KeyedTable KeyedSums ExploitFlow ExploitRecords
open ExploitPhases TablePublication

variable {py : ExportText} {archive : Archive}

/-- What the rows of one transaction say, in their order. -/
def ownSources (entries : List (Key × SourceRow)) (key : Key) : List SourceRow :=
  (entries.filter fun entry => entry.1 = key).map Prod.snd

def auditAt (records : FullRecords) (key : Key) : SourceAuditFields :=
  viewAt FullRecord.audit {} records key

theorem keptAudit (py : ExportText) : Kept py FullRecord.audit {} :=
  ⟨fun _ _ _ => rfl, fun _ _ => rfl⟩

theorem ownSources_concat (entries : List (Key × SourceRow)) (entry : Key × SourceRow) (key : Key) :
    ownSources (entries ++ [entry]) key =
      ownSources entries key ++ if entry.1 = key then [entry.2] else [] := by
  rw [ownSources, List.filter_append, List.map_append, ownSources, List.filter_singleton]
  by_cases h : entry.1 = key
  · simp [h]
  · simp [h]

/-- The rows of a file are added to the records of their transactions. -/
theorem loadSourceAudit_ok {shardId : Int} {records records' : FullRecords} {rows : List Row}
    (hnodup : (records.map Prod.fst).Nodup)
    (h : loadSourceAudit py records rows shardId = .ok records') :
    ∃ entries, rows.mapM (sourceEntry py shardId) = .ok entries ∧
      (records'.map Prod.fst).Nodup ∧
      ∀ k, auditAt records' k = (ownSources entries k).foldl SourceAuditFields.add
        (auditAt records k) := by
  have hrun := foldlM_invariant (fun (rows : List Row) (st : FullRecords) => ∃ entries,
    List.Forall₂ (fun row entry => sourceEntry py shardId row = .ok entry) rows entries ∧
      (st.map Prod.fst).Nodup ∧
      ∀ k, auditAt st k = (ownSources entries k).foldl SourceAuditFields.add (auditAt records k))
    (fun rows st row st' hst hstep => by
      obtain ⟨entries, hentries, hst, haudit⟩ := hst
      obtain ⟨key, blockNumber, loaded, hentry, hkey, rfl⟩ := loadRow_ok hstep
      refine ⟨entries ++ [(key, loaded.source)], List.rel_append hentries (.cons hentry .nil),
        nodup_set hst _ _, fun k => ?_⟩
      rw [auditAt, viewAt_set, ownSources_concat, List.foldl_append, ← haudit]
      by_cases hk : k = key
      · have hold := view_getRecord (keptAudit py) st key.shardId key.transactionHash blockNumber
        rw [if_pos hk, if_pos hk.symm, FullRecord.load, hold, hkey, hk]
        rfl
      · rw [if_neg hk, if_neg (Ne.symm hk)]
        rfl) [] ⟨[], .nil, hnodup, fun _ => rfl⟩ h
  obtain ⟨entries, hentries, hrest⟩ := hrun
  exact ⟨entries, mapM_ok_iff.mpr hentries, hrest⟩

/-! ## Columns -/

/-- A sum over the rows of a transaction. -/
structure Column {M : Type} [AddMonoid M] (value : SourceAuditFields → M) (weight : SourceRow → M) :
    Prop where
  empty : value {} = 0
  added : ∀ fields row, value (fields.add row) = value fields + weight row

/-- What the source audits have in common with the exported records. -/
structure ReceiptsCounted (entries : List (Key × SourceRow)) (records : FullRecords) : Prop where
  distinct : (records.map Prod.fst).Nodup
  own : ∀ k, auditAt records k = (ownSources entries k).foldl SourceAuditFields.add {}
  count : ((listedRecords records).map fun record => record.audit.receiptCount).sum =
    entries.length
  amount : ((listedRecords records).map fun record => record.audit.receiptAmountAtto).sum =
    (entries.map fun entry => entry.2.amountAtto).sum
  precompileCalls :
    ((listedRecords records).map fun record => record.audit.precompileCalls).sum =
      (entries.map fun entry => entry.2.precompileCalls).sum
  failedPrecompilePaths :
    ((listedRecords records).map fun record => record.audit.failedPrecompilePaths).sum =
      (entries.map fun entry => entry.2.failedPrecompilePaths).sum

/-- The records of the transactions add up to the rows. -/
theorem sum_listedRecords {entries : List (Key × SourceRow)} {records : FullRecords}
    (hnodup : (records.map Prod.fst).Nodup)
    (hown : ∀ k, auditAt records k = (ownSources entries k).foldl SourceAuditFields.add {})
    {M : Type} [AddCommMonoid M] {value : SourceAuditFields → M} {weight : SourceRow → M}
    (hcolumn : Column value weight) :
    ((listedRecords records).map fun record => value record.audit).sum =
      (entries.map fun entry => weight entry.2).sum := by
  have hat : ∀ k, shareAt (fun record : FullRecord => value record.audit) records k =
      sumAt (entries.map fun entry => (entry.1, weight entry.2)) k := by
    intro k
    have hview : shareAt (fun record : FullRecord => value record.audit) records k =
        value (auditAt records k) := by
      rw [shareAt, auditAt, viewAt]
      cases records.lookup k with
      | none => exact hcolumn.empty.symm
      | some record => rfl
    have hsum : (((entries.filter fun entry => entry.1 = k).map Prod.snd).map weight).sum =
        sumAt (entries.map fun entry => (entry.1, weight entry.2)) k := by
      rw [sumAt, List.map_map, List.map_map]
      have hkept : ((entries.filter fun entry => entry.1 = k).map (weight ∘ Prod.snd)) =
          (entries.filter fun entry => entry.1 = k).map fun entry =>
            if k = entry.1 then weight entry.2 else 0 := by
        apply List.map_congr_left
        intro entry hentry
        have hk : entry.1 = k := of_decide_eq_true (List.mem_filter.mp hentry).2
        rw [if_pos hk.symm, Function.comp_apply]
      rw [hkept]
      apply sum_map_filter
      intro entry _ hother
      exact if_neg fun h => of_decide_eq_false hother h.symm
    rw [hview, hown, foldl_total value hcolumn.added, hcolumn.empty, zero_add, ownSources, hsum]
  have hlisted : ((listedRecords records).map fun record => value record.audit).sum =
      total (fun record : FullRecord => value record.audit) records := by
    rw [listedRecords, ((List.perm_insertionSort RowPrecedes _).map _).sum_eq, List.map_map]
    rfl
  rw [hlisted, total_eq_of_sumAt hnodup hat, List.map_map]
  rfl

/-! ## All phases -/

theorem auditAt_withTraced (records : FullRecords) (traced : Records) (k : Key) :
    auditAt (withTraced records traced) k = auditAt records k := by
  rw [auditAt, viewAt, lookup_withTraced, auditAt, viewAt]
  cases records.lookup k <;> rfl

/-- Whatever the node answers, a run that succeeds has read every row of both source audits, has
one record for each key, and the audit's columns of each record are those of the key's rows. -/
theorem receipts_counted_once (py : ExportText) (archive : Archive)
    (order : List Key → List Key) (shard0 shard1 : List Row) (records : FullRecords)
    (edges : List Edge)
    (h : collectRecords py archive order shard0 shard1 = .ok (records, edges)) :
    ∃ entries0 entries1, shard0.mapM (sourceEntry py 0) = .ok entries0 ∧
      shard1.mapM (sourceEntry py 1) = .ok entries1 ∧
      ReceiptsCounted (entries0 ++ entries1) records := by
  simp only [collectRecords, bind_eq_ok, mapError_eq_ok] at h
  obtain ⟨records0, hload0, records1, hload1, records2, henrich, st, hhistories, st', hpath,
    ⟨records3, edges3⟩, htrace, records4, hstatuses, h⟩ := h
  cases h
  have hempty : (([] : FullRecords).map Prod.fst).Nodup := List.nodup_nil
  obtain ⟨entries0, hentries0, hnodup0, haudit0⟩ := loadSourceAudit_ok hempty hload0
  obtain ⟨entries1, hentries1, hnodup1, haudit1⟩ := loadSourceAudit_ok hnodup0 hload1
  obtain ⟨hnodup2, hview2⟩ := enrichRecords_ok (keptAudit py) hnodup1 henrich
  obtain ⟨histories, path, -, hsteps⟩ := scopes_ok hhistories hpath
  obtain ⟨hnodup3, hview3⟩ := steps_keep (keptAudit py) (fun _ _ _ => rfl) hnodup2 hsteps
  simp only [traceRecords, bind_eq_ok, mapError_eq_ok] at htrace
  obtain ⟨⟨traced, tracedEdges⟩, -, htrace⟩ := htrace
  cases htrace
  have hnodup4 : ((withTraced st'.records traced).map Prod.fst).Nodup := by
    rwa [keys_withTraced]
  obtain ⟨hnodup5, hview5⟩ :=
    statuses_keep FullRecord.audit {} (fun _ _ => rfl) hnodup4 hstatuses
  have hown : ∀ k, auditAt records k =
      (ownSources (entries0 ++ entries1) k).foldl SourceAuditFields.add {} := by
    intro k
    have hphases : auditAt records k = auditAt records1 k := by
      rw [auditAt, hview5]
      change auditAt (withTraced st'.records traced) k = _
      rw [auditAt_withTraced, auditAt, hview3, hview2]
      rfl
    rw [hphases, haudit1, haudit0, ownSources, ownSources, ownSources, List.filter_append,
      List.map_append, List.foldl_append]
    rfl
  refine ⟨entries0, entries1, hentries0, hentries1, hnodup5, hown, ?_, ?_, ?_, ?_⟩
  · have hcount : Column SourceAuditFields.receiptCount fun _ => 1 := ⟨rfl, fun _ _ => rfl⟩
    rw [sum_listedRecords hnodup5 hown hcount, List.map_const', List.sum_replicate]
    exact Nat.mul_one _
  · exact sum_listedRecords hnodup5 hown ⟨rfl, fun _ _ => rfl⟩
  · exact sum_listedRecords hnodup5 hown ⟨rfl, fun _ _ => rfl⟩
  · exact sum_listedRecords hnodup5 hown ⟨rfl, fun _ _ => rfl⟩

/-! ## A run -/

def sampleTransaction (hash : String) : Transaction where
  blockNumber := 73386900
  hash := hash
  sender := some "0xAA"
  recipient := some "0xBB"
  value := some 3

/-- A call of the first contract that hands on two amounts, one of them in vain. -/
def sampleTrace : FlowTrace :=
  .node { type := some (.str "CALL"), sender := some (.str "0xAA"), recipient := some (.str "0xBB"),
          value := some (.str "0x3") }
    [.node { type := some (.str "CALL"), sender := some (.str "0xBB"),
             recipient := some (.str "0xCC"), value := some (.str "0x2") } [],
      .node { type := some (.str "CALL"), sender := some (.str "0xBB"),
              recipient := some (.str "0xDD"), value := some (.str "0x1"),
              error := some (.str "out of gas") } []]

/-- An archive that knows every transaction. -/
def sampleArchive : Archive where
  transactionByHash _ hashes _ :=
    .ok (hashes.zipIdx.map fun asked => ⟨asked.2, .ok (some (sampleTransaction asked.1))⟩)
  transactionsHistory address _ page _ :=
    .ok (if page = 0 ∧ address = "0x70a217631472a276976ab572d48959dc74f6065a" then
      [sampleTransaction "0xF1"] else [])
  transactionReceipt hashes _ :=
    .ok (hashes.zipIdx.map fun asked => ⟨asked.2, .ok (some (some (.str "1")))⟩)
  flow :=
    { trace := fun _ => .ok sampleTrace
      blockNumber := .ok "0x10"
      balance := fun _ _ => .ok "0x5"
      transactionCount := fun _ _ => .ok "0x0" }

def sampleSourceRow (hash : String) : Row :=
  [("from", some "0xAA"), ("classification", some "rollback_leak"),
    ("source_transaction_hash", some hash), ("audit_source_block", some "10"),
    ("amount_atto", some "100"), ("source_transaction_from", some "0xAA"),
    ("source_transaction_to", some "0xBB"), ("source_input_selector", some "0x12345678")]

theorem receipts_counted_once_sample : ∃ records edges entries0 entries1,
    collectRecords ExportText.ascii sampleArchive id
        [sampleSourceRow "0xF1", sampleSourceRow "0xF2"] [sampleSourceRow "0xf1"] =
        .ok (records, edges) ∧
      ([sampleSourceRow "0xF1", sampleSourceRow "0xF2"].mapM (sourceEntry ExportText.ascii 0)) =
        .ok entries0 ∧
      ([sampleSourceRow "0xf1"].mapM (sourceEntry ExportText.ascii 1)) = .ok entries1 ∧
      ReceiptsCounted (entries0 ++ entries1) records := by
  obtain ⟨⟨records, edges⟩, hrun⟩ := exists_of_isOk
    (show (collectRecords ExportText.ascii sampleArchive id
      [sampleSourceRow "0xF1", sampleSourceRow "0xF2"] [sampleSourceRow "0xf1"]).isOk = true
      by decide +kernel)
  obtain ⟨entries0, entries1, h0, h1, hcounted⟩ := receipts_counted_once ExportText.ascii
    sampleArchive id [sampleSourceRow "0xF1", sampleSourceRow "0xF2"] [sampleSourceRow "0xf1"]
    records edges hrun
  exact ⟨records, edges, entries0, entries1, hrun, h0, h1, hcounted⟩

end ExploitReceipts
