import SupplyAudit.ExploitRecords
import SupplyAudit.FallibleScan

/-!
# The phases of the exploit flow export

The records are completed and extended several times after the source audits have
been read. A phase writes records at single keys, so what a run keeps of a record
is followed key by key.
-/

namespace ExploitPhases

open ScriptValues AuditFiles FallibleScan KeyedTable ExploitFlow ExploitRecords BatchReplies
open PagedListing TablePublication

variable {py : ExportText} {archive : Archive}

/-! ## What is kept at a key -/

section View
variable {V : Type} (view : FullRecord → V) (empty : V)

/-- A part of the record at a key; without a record it is that of a blank one. -/
def viewAt (records : FullRecords) (key : Key) : V := (records.lookup key).elim empty view

theorem viewAt_set (records : FullRecords) (key : Key) (record : FullRecord) (k : Key) :
    viewAt view empty (set records key record) k =
      if k = key then view record else viewAt view empty records k := by
  rw [viewAt, viewAt, lookup_set]
  split <;> rfl

theorem viewAt_of_mem {records : FullRecords} (hnodup : (records.map Prod.fst).Nodup)
    {entry : Key × FullRecord} (h : entry ∈ records) :
    viewAt view empty records entry.1 = view entry.2 := by
  rw [viewAt, lookup_of_mem hnodup h]
  rfl

/-- A record is replaced by one that has the part in common with it. -/
theorem viewAt_replaced {records st : FullRecords} (hnodup : (records.map Prod.fst).Nodup)
    {entry : Key × FullRecord} (hentry : entry ∈ records) {record : FullRecord}
    (hview : view record = view entry.2) (hst : viewAt view empty st = viewAt view empty records) :
    viewAt view empty (set st entry.1 record) = viewAt view empty records := by
  funext k
  rw [viewAt_set, hview]
  split
  · rename_i hk
    rw [hk, viewAt_of_mem view empty hnodup hentry]
  · exact congrFun hst k

end View

/-- A part of the records that merging a transaction does not change. -/
structure Kept {V : Type} (py : ExportText) (view : FullRecord → V) (empty : V) : Prop where
  blank : ∀ shardId transactionHash blockNumber,
    view (blankRecord py shardId transactionHash blockNumber) = empty
  merged : ∀ record transaction, view (mergeTransaction record transaction) = view record

theorem view_getRecord {V : Type} {view : FullRecord → V} {empty : V} (h : Kept py view empty)
    (records : FullRecords) (shardId : Int) (transactionHash : String) (blockNumber : Int) :
    view (getRecord py records shardId transactionHash blockNumber) =
      viewAt view empty records (keyOf py shardId transactionHash) := by
  rw [getRecord, viewAt]
  cases records.lookup (keyOf py shardId transactionHash) with
  | none => exact h.blank _ _ _
  | some record => rfl

/-- A record that is written back under its key, with the part it was read with. -/
theorem viewAt_written {V : Type} {view : FullRecord → V} {empty : V} (hkept : Kept py view empty)
    (records : FullRecords) {shardId : Int} {transactionHash : String} {key : Key}
    (hkey : keyOf py shardId transactionHash = key) {record : FullRecord} (blockNumber : Int)
    (hview : view record = view (getRecord py records shardId transactionHash blockNumber)) :
    viewAt view empty (set records key record) = viewAt view empty records := by
  funext k
  rw [viewAt_set, hview, view_getRecord hkept, hkey]
  split
  · rename_i hk
    rw [hk]
  · rfl

/-! ## Reading a source audit -/

/-- The key of a row's transaction and what the row says about its receipt. -/
def sourceEntry (py : ExportText) (shardId : Int) (row : Row) :
    Except AuditError (Key × SourceRow) := do
  let transactionHash ← lowerField py.toPyText row "source_transaction_hash"
  let source ← readSourceRow py shardId row
  .ok (⟨shardId, transactionHash⟩, source)

theorem keyOf_lower {shardId : Int} {row : Row} {field text : String}
    (h : lowerField py.toPyText row field = .ok text) :
    keyOf py shardId text = ⟨shardId, text⟩ := by
  obtain ⟨value, -, rfl⟩ := lowerField_ok.mp h
  rw [keyOf, py.lower_lower]

/-- A row changes the record of its transaction. -/
theorem loadRow_ok {shardId : Int} {records records' : FullRecords} {row : Row}
    (h : loadRow py shardId records row = .ok records') :
    ∃ key blockNumber loaded, sourceEntry py shardId row = .ok (key, loaded.source) ∧
      keyOf py key.shardId key.transactionHash = key ∧
      records' = set records key
        ((getRecord py records key.shardId key.transactionHash blockNumber).load loaded) := by
  simp only [loadRow, bind_eq_ok] at h
  obtain ⟨transactionHash, hhash, blockNumber, -, loaded, hloaded, h⟩ := h
  cases h
  have hkey : keyOf py shardId transactionHash = ⟨shardId, transactionHash⟩ := keyOf_lower hhash
  have hsource : readSourceRow py shardId row = .ok loaded.source := by
    simp only [readLoadedRow, bind_eq_ok] at hloaded
    obtain ⟨incident, -, source, hsource, sender, -, recipient, -, valueAtto, -, selector, -, h⟩ :=
      hloaded
    cases h
    exact hsource
  refine ⟨⟨shardId, transactionHash⟩, blockNumber, loaded, ?_, hkey, ?_⟩
  · rw [sourceEntry, hhash, bind_ok, hsource]
    rfl
  · rw [hkey]

/-- Reading an audit keeps a part that its rows do not change. -/
theorem load_keep {V : Type} {view : FullRecord → V} {empty : V} (hkept : Kept py view empty)
    (hload : ∀ record row, view (FullRecord.load record row) = view record) {shardId : Int}
    {records records' : FullRecords} {rows : List Row} (hnodup : (records.map Prod.fst).Nodup)
    (h : loadSourceAudit py records rows shardId = .ok records') :
    (records'.map Prod.fst).Nodup ∧ viewAt view empty records' = viewAt view empty records :=
  foldlM_keep (fun st : FullRecords =>
    (st.map Prod.fst).Nodup ∧ viewAt view empty st = viewAt view empty records)
    (fun st row _ st' hst hstep => by
      obtain ⟨key, blockNumber, loaded, -, hkey, rfl⟩ := loadRow_ok hstep
      have hwritten := viewAt_written hkept st hkey blockNumber (hload _ loaded)
      exact ⟨nodup_set hst.1 _ _, hwritten.trans hst.2⟩) ⟨hnodup, rfl⟩ h

/-! ## Completing the records -/

theorem mem_zip_left {α β : Type} {l : List α} {l' : List β} {p : α × β} (h : p ∈ l.zip l') :
    p.1 ∈ l := (List.of_mem_zip h).1

/-- A record that is completed has been answered with its transaction. -/
theorem enrichRecord_ok {shardId : Int} {records records' : FullRecords}
    {asked : (Key × FullRecord) × Option Transaction}
    (h : enrichRecord py shardId records asked = .ok records') :
    ∃ normalized, (∃ transaction, asked.2 = some transaction ∧
        normalizeTransaction py transaction shardId = .ok normalized) ∧
      records' = set records asked.1.1 (mergeTransaction asked.1.2 normalized) := by
  rw [enrichRecord] at h
  split at h
  · cases h
  · rename_i transaction htransaction
    simp only [bind_eq_ok, mapError_eq_ok] at h
    obtain ⟨normalized, hnormalized, h⟩ := h
    cases h
    exact ⟨normalized, ⟨transaction, htransaction, hnormalized⟩, rfl⟩

section Views
variable {V : Type} {view : FullRecord → V} {empty : V}

/-- Completing a shard's records keeps a part that merging does not change. -/
theorem enrichShard_ok (hkept : Kept py view empty) {records records' : FullRecords}
    {shardId : Int} (hnodup : (records.map Prod.fst).Nodup)
    (h : enrichShard py archive records shardId = .ok records') :
    (records'.map Prod.fst).Nodup ∧ viewAt view empty records' = viewAt view empty records := by
  rw [enrichShard] at h
  split at h
  · cases h
    exact ⟨hnodup, rfl⟩
  · rw [bind_eq_ok] at h
    obtain ⟨results, -, h⟩ := h
    exact foldlM_keep (fun st : FullRecords =>
      (st.map Prod.fst).Nodup ∧ viewAt view empty st = viewAt view empty records)
      (fun st asked hmem st' hst hstep => by
        have hentry : asked.1 ∈ records := List.mem_of_mem_filter (mem_zip_left hmem)
        obtain ⟨normalized, -, rfl⟩ := enrichRecord_ok hstep
        exact ⟨nodup_set hst.1 _ _,
          viewAt_replaced view empty hnodup hentry (hkept.merged _ _) hst.2⟩) ⟨hnodup, rfl⟩ h

theorem enrichRecords_ok (hkept : Kept py view empty) {records records' : FullRecords}
    (hnodup : (records.map Prod.fst).Nodup)
    (h : enrichRecords py archive records = .ok records') :
    (records'.map Prod.fst).Nodup ∧ viewAt view empty records' = viewAt view empty records :=
  foldlM_keep (fun st : FullRecords =>
    (st.map Prod.fst).Nodup ∧ viewAt view empty st = viewAt view empty records)
    (fun st shardId _ st' hst hstep => by
      obtain ⟨hnodup', hview⟩ := enrichShard_ok hkept hst.1 hstep
      exact ⟨hnodup', hview.trans hst.2⟩) ⟨hnodup, rfl⟩ h

end Views

/-! ## The scopes -/

/-- A transaction that a scope adds. -/
structure ScopedStep where
  role : String
  incident : String
  transaction : Transaction

def runStep (py : ExportText) (st : Scoped) (step : ScopedStep) : Except ExportError Scoped :=
  addScoped py step.role step.incident st step.transaction

/-- What the histories of an incident add. -/
def historySteps (scope : IncidentScope) (sent received : List Transaction) : List ScopedStep :=
  (sent.filter fun t => ¬ t.blockNumber ≤ scope.rootCutoff).map
      (ScopedStep.mk "root-post-mint" scope.name) ++
    (received.filter fun t =>
        scope.drainStart ≤ t.blockNumber ∧ t.blockNumber ≤ scope.drainEnd).map
      (ScopedStep.mk "initial-distribution-call" scope.name)

/-- The node's histories of an incident, and what they add. -/
def HistoryOf (archive : Archive) (scope : IncidentScope) (steps : List ScopedStep) : Prop :=
  ∃ sent received, transactionHistory archive scope.root "SENT" = .ok sent ∧
    transactionHistory archive scope.contract "RECEIVED" = .ok received ∧
    steps = historySteps scope sent received

theorem foldlM_steps (role incident : String) (transactions : List Transaction) (st : Scoped) :
    (transactions.map (ScopedStep.mk role incident)).foldlM (runStep py) st =
      transactions.foldlM (addScoped py role incident) st :=
  List.foldlM_map

theorem addIncident_ok {st st' : Scoped} {scope : IncidentScope}
    (h : addIncident py archive st scope = .ok st') :
    ∃ steps, HistoryOf archive scope steps ∧ steps.foldlM (runStep py) st = .ok st' := by
  simp only [addIncident, bind_eq_ok] at h
  obtain ⟨sent, hsent, st1, hst1, received, hreceived, h⟩ := h
  refine ⟨historySteps scope sent received, ⟨sent, received, hsent, hreceived, rfl⟩, ?_⟩
  rw [historySteps, List.foldlM_append, foldlM_steps]
  simp only [foldlM_steps]
  exact bind_eq_ok.mpr ⟨st1, hst1, h⟩

/-- The steps of all scopes, in their order. -/
structure StepsOf (archive : Archive) (histories : List (List ScopedStep))
    (path : List Transaction) : Prop where
  histories : List.Forall₂ (HistoryOf archive) incidentScopes histories
  path : rpcBatch "hmyv2_getTransactionByHash" 50 (archive.transactionByHash 0) kucoinPathHashes =
    .ok (path.map some)

def allSteps (histories : List (List ScopedStep)) (path : List Transaction) : List ScopedStep :=
  histories.flatten ++ path.map (ScopedStep.mk "confirmed-kucoin-path" "may-2025")

theorem addHistoryScopes_ok {records : FullRecords} {st : Scoped}
    (h : addHistoryScopes py archive records = .ok st) :
    ∃ histories, List.Forall₂ (HistoryOf archive) incidentScopes histories ∧
      histories.flatten.foldlM (runStep py) { records := records } = .ok st := by
  rw [addHistoryScopes] at h
  have hrun := foldlM_invariant (fun scopes st => ∃ histories,
    List.Forall₂ (HistoryOf archive) scopes histories ∧
      histories.flatten.foldlM (runStep py) { records := records } = .ok st)
    (fun scopes st scope st' hst hstep => by
      obtain ⟨histories, hhistories, hfold⟩ := hst
      obtain ⟨steps, hsteps, hmore⟩ := addIncident_ok hstep
      refine ⟨histories ++ [steps], List.rel_append hhistories (.cons hsteps .nil), ?_⟩
      rw [List.flatten_append, List.flatten_singleton, List.foldlM_append, hfold]
      exact hmore) [] ⟨[], .nil, rfl⟩ h
  exact hrun

theorem addPath_ok {results : List (Option Transaction)} {st st' : Scoped}
    (h : results.foldlM (addPathTransaction py) st = .ok st') :
    ∃ path : List Transaction, results = path.map some ∧
      (path.map (ScopedStep.mk "confirmed-kucoin-path" "may-2025")).foldlM (runStep py) st =
        .ok st' := by
  induction results generalizing st with
  | nil => exact ⟨[], rfl, h⟩
  | cons result results ih =>
    rw [List.foldlM_cons, bind_eq_ok] at h
    obtain ⟨next, hstep, h⟩ := h
    cases result with
    | none => cases hstep
    | some transaction =>
      obtain ⟨path, rfl, hfold⟩ := ih h
      refine ⟨transaction :: path, rfl, ?_⟩
      rw [List.map_cons, List.foldlM_cons]
      exact bind_eq_ok.mpr ⟨next, hstep, hfold⟩

/-- The scopes are one scan of the transactions that the node's answers hold. -/
theorem scopes_ok {records : FullRecords} {st st' : Scoped}
    (hhistories : addHistoryScopes py archive records = .ok st)
    (hpath : addKucoinPath py archive st = .ok st') :
    ∃ histories path, StepsOf archive histories path ∧
      (allSteps histories path).foldlM (runStep py) { records := records } = .ok st' := by
  obtain ⟨histories, hof, hfold⟩ := addHistoryScopes_ok hhistories
  rw [addKucoinPath, bind_eq_ok] at hpath
  obtain ⟨results, hresults, hpath⟩ := hpath
  obtain ⟨path, rfl, hmore⟩ := addPath_ok hpath
  refine ⟨histories, path, ⟨hof, hresults⟩, ?_⟩
  rw [allSteps, List.foldlM_append, hfold]
  exact hmore

/-- A step merges its transaction into the record under its hash. -/
theorem runStep_ok {st st' : Scoped} {step : ScopedStep} (h : runStep py st step = .ok st') :
    ∃ normalized blockNumber, normalizeTransaction py step.transaction 0 = .ok normalized ∧
      normalized.transactionHash = py.lower step.transaction.hash ∧
      keyOf py 0 normalized.transactionHash = ⟨0, normalized.transactionHash⟩ ∧
      st'.traceKeys = st.traceKeys.insert ⟨0, normalized.transactionHash⟩ ∧
      st'.records = set st.records ⟨0, normalized.transactionHash⟩
        ((mergeTransaction (getRecord py st.records 0 normalized.transactionHash blockNumber)
          normalized).scope step.role step.incident) := by
  simp only [runStep, addScoped, bind_eq_ok, mapError_eq_ok] at h
  obtain ⟨normalized, hnormalized, h⟩ := h
  cases h
  have hhash : normalized.transactionHash = py.lower step.transaction.hash := by
    have hnorm := hnormalized
    simp only [normalizeTransaction, bind_eq_ok] at hnorm
    obtain ⟨sender, -, recipient, -, hnorm⟩ := hnorm
    cases hnorm
    rfl
  have hkey : keyOf py 0 normalized.transactionHash = ⟨0, normalized.transactionHash⟩ := by
    rw [keyOf, hhash, py.lower_lower]
  exact ⟨normalized, normalized.blockNumber, hnormalized, hhash, hkey, rfl, by rw [hkey]⟩

section Views
variable {V : Type} {view : FullRecord → V} {empty : V}

/-- The scopes keep a part that neither merging nor the roles and incidents change. -/
theorem steps_keep (hkept : Kept py view empty)
    (hscope : ∀ record role incident, view (FullRecord.scope record role incident) = view record)
    {steps : List ScopedStep} {st st' : Scoped} (hnodup : (st.records.map Prod.fst).Nodup)
    (h : steps.foldlM (runStep py) st = .ok st') :
    (st'.records.map Prod.fst).Nodup ∧
      viewAt view empty st'.records = viewAt view empty st.records :=
  foldlM_keep (fun next : Scoped =>
    (next.records.map Prod.fst).Nodup ∧
      viewAt view empty next.records = viewAt view empty st.records)
    (fun next step _ next' hnext hstep => by
      obtain ⟨normalized, blockNumber, -, -, hkey, -, hrecords⟩ := runStep_ok hstep
      rw [hrecords]
      have hwritten := viewAt_written hkept next.records hkey blockNumber
        ((hscope _ step.role step.incident).trans (hkept.merged _ normalized))
      exact ⟨nodup_set hnext.1 _ _, hwritten.trans hnext.2⟩) ⟨hnodup, rfl⟩ h

end Views

/-! ## Tracing and statuses -/

theorem keys_withTraced (records : FullRecords) (traced : Records) :
    (withTraced records traced).map Prod.fst = records.map Prod.fst := by
  rw [withTraced, List.map_map]
  rfl

theorem lookup_withTraced (records : FullRecords) (traced : Records) (k : Key) :
    (withTraced records traced).lookup k = (records.lookup k).map fun record =>
      { record with toRecord := (traced.lookup k).getD record.toRecord } := by
  induction records with
  | nil => rfl
  | cons entry records ih =>
    rw [withTraced, List.map_cons]
    by_cases hk : k = entry.1
    · rw [hk, lookup_cons_self, lookup_cons_self, Option.map_some]
    · rw [lookup_cons_of_ne hk, lookup_cons_of_ne hk]
      exact ih

/-- The statuses leave every other part. -/
theorem statuses_keep {V : Type} (view : FullRecord → V) (empty : V)
    (hstatus : ∀ record status, view { record with status := status } = view record)
    {records records' : FullRecords} (hnodup : (records.map Prod.fst).Nodup)
    (h : addReceiptStatuses archive records = .ok records') :
    (records'.map Prod.fst).Nodup ∧ viewAt view empty records' = viewAt view empty records := by
  simp only [addReceiptStatuses, bind_eq_ok] at h
  obtain ⟨results, -, h⟩ := h
  cases h
  refine List.foldlRecOn (motive := fun st : FullRecords =>
    (st.map Prod.fst).Nodup ∧ viewAt view empty st = viewAt view empty records) _ _
    ⟨hnodup, rfl⟩ ?_
  intro st hst asked hmem
  have hentry : asked.1 ∈ records := List.mem_of_mem_filter (mem_zip_left hmem)
  cases hresult : asked.2 with
  | none =>
    rw [addReceiptStatus, hresult]
    exact hst
  | some status =>
    rw [addReceiptStatus, hresult]
    exact ⟨nodup_set hst.1 _ _,
      viewAt_replaced view empty hnodup hentry (hstatus _ _) hst.2⟩

end ExploitPhases
