import Mathlib.Algebra.Group.Prod
import SupplyAudit.ExploitReceipts
import SupplyAudit.ValueMovements

/-!
# The two tables of the exploit flow export

Every traced transaction has a row with counters, and each of its calls with a
value has a row in the edge table. The counters of a row are those of its edges,
and every edge has the row that it was taken from.
-/

namespace ExploitTraces

open ScriptValues FallibleScan KeyedTable LabelledTrees ExploitFlow ExploitRecords ExploitPhases
  ValueMovements TablePublication
open TraceInspection (JsonValue)

/-! ## Counters -/

/-- Edges, effective edges with their value, and selfdestructs with theirs. -/
abbrev EdgeCounters := Nat × Nat × Int × Nat × Int

def edgeCounters (record : Record) : EdgeCounters :=
  (record.tracePositiveValueEdgeCount, record.traceEffectiveValueEdgeCount,
    record.traceEffectiveValueAtto, record.traceSelfdestructEdgeCount,
    record.traceSelfdestructValueAtto)

def selfdestructs (e : Edge) : Bool := e.effective && e.callType == .str "SELFDESTRUCT"

/-- What an edge adds to the counters. -/
def counted (e : Edge) : EdgeCounters :=
  (1, if e.effective then 1 else 0, if e.effective then e.valueAtto else 0,
    if selfdestructs e then 1 else 0, if selfdestructs e then e.valueAtto else 0)

/-- A record without what a walk counts. -/
def bare (record : Record) : Record :=
  { record with
    traceCallCount := 0
    traceFailedCallCount := 0
    tracePositiveValueEdgeCount := 0
    traceEffectiveValueEdgeCount := 0
    traceEffectiveValueAtto := 0
    traceSelfdestructEdgeCount := 0
    traceSelfdestructValueAtto := 0 }

/-- The rest of a record. -/
structure SameRest (record record' : Record) : Prop where
  shardId : record'.shardId = record.shardId
  blockNumber : record'.blockNumber = record.blockNumber
  transactionHash : record'.transactionHash = record.transactionHash
  roles : record'.roles = record.roles
  incidents : record'.incidents = record.incidents

theorem sameRest_of_bare {record record' : Record} (h : bare record' = bare record) :
    SameRest record record' := by
  simp only [bare, Record.mk.injEq] at h
  obtain ⟨hshard, hblock, -, hhash, hroles, hincidents, -⟩ := h
  exact ⟨hshard, hblock, hhash, hroles, hincidents⟩

/-- The columns that an edge has from the record of its transaction. -/
structure TakenFrom (record : Record) (e : Edge) : Prop where
  incident : e.incident = joinSorted record.incidents
  shardId : e.shardId = record.shardId
  blockNumber : e.blockNumber = record.blockNumber
  transactionHash : e.transactionHash = record.transactionHash

theorem TakenFrom.of_same {record record' : Record} {e : Edge} (h : TakenFrom record e)
    (hsame : SameRest record record') : TakenFrom record' e where
  incident := by rw [hsame.incidents, h.incident]
  shardId := by rw [hsame.shardId, h.shardId]
  blockNumber := by rw [hsame.blockNumber, h.blockNumber]
  transactionHash := by rw [hsame.transactionHash, h.transactionHash]

/-! ## One trace -/

/-- What a walk over some frames does: the edges it lists, which it numbers and counts. -/
structure Lists (start walk : Walk) (edges : List Edge) : Prop where
  listed : walk.edges = start.edges ++ edges
  calls : walk.record.traceCallCount + start.edgeIndex =
    start.record.traceCallCount + walk.edgeIndex
  later : start.edgeIndex ≤ walk.edgeIndex
  counters : edgeCounters walk.record = edgeCounters start.record + (edges.map counted).sum
  bare : bare walk.record = bare start.record
  taken : ∀ e ∈ edges, TakenFrom start.record e
  numbers : ∀ e ∈ edges, start.edgeIndex < e.edgeIndex ∧ e.edgeIndex ≤ walk.edgeIndex
  increasing : edges.Pairwise fun e e' => e.edgeIndex < e'.edgeIndex

theorem Lists.refl (walk : Walk) : Lists walk walk [] where
  listed := (List.append_nil _).symm
  calls := rfl
  later := Nat.le_refl _
  counters := (add_zero _).symm
  bare := rfl
  taken _ h := absurd h List.not_mem_nil
  numbers _ h := absurd h List.not_mem_nil
  increasing := .nil

theorem Lists.trans {start walk walk' : Walk} {edges edges' : List Edge}
    (h : Lists start walk edges) (h' : Lists walk walk' edges') :
    Lists start walk' (edges ++ edges') where
  listed := by rw [h'.listed, h.listed, List.append_assoc]
  calls := by
    have := h.calls
    have := h'.calls
    omega
  later := Nat.le_trans h.later h'.later
  counters := by
    rw [h'.counters, h.counters, List.map_append, List.sum_append, add_assoc]
  bare := h'.bare.trans h.bare
  taken e he := by
    rcases List.mem_append.mp he with he | he
    · exact h.taken e he
    · exact (h'.taken e he).of_same (sameRest_of_bare h.bare.symm)
  numbers e he := by
    rcases List.mem_append.mp he with he | he
    · exact ⟨(h.numbers e he).1, Nat.le_trans (h.numbers e he).2 h'.later⟩
    · exact ⟨Nat.lt_of_le_of_lt h.later (h'.numbers e he).1, (h'.numbers e he).2⟩
  increasing := by
    refine List.pairwise_append.mpr ⟨h.increasing, h'.increasing, ?_⟩
    intro e he e' he'
    exact Nat.lt_of_le_of_lt (h.numbers e he).2 (h'.numbers e' he').1

/-- One call of `walk` lists at most one edge, with the next number. -/
theorem enter_lists {py : FlowText} {context : WalkContext} {node : FlowFrame} {walk walk' : Walk}
    (h : enter py context node walk = .ok walk') : ∃ edges, Lists walk walk' edges := by
  simp only [enter, bind_eq_ok] at h
  obtain ⟨value, -, h⟩ := h
  split at h
  · rename_i hpositive
    simp only [bind_eq_ok] at h
    obtain ⟨sender, -, recipient, -, h⟩ := h
    cases h
    refine ⟨[_], ⟨rfl, ?_, Nat.le_succ _, ?_, rfl, ?_, ?_, List.pairwise_singleton _ _⟩⟩
    · simp only [Record.countValue, Record.countCall]
      omega
    · simp only [edgeCounters, Record.countValue, Record.countCall, List.map_singleton,
        List.sum_singleton, counted, selfdestructs]
      rfl
    · intro e he
      rw [List.mem_singleton.mp he]
      exact ⟨rfl, rfl, rfl, rfl⟩
    · intro e he
      rw [List.mem_singleton.mp he]
      exact ⟨Nat.lt_succ_self _, Nat.le_refl _⟩
  · cases h
    refine ⟨[], ⟨(List.append_nil _).symm, ?_, Nat.le_succ _, (add_zero _).symm, rfl, ?_, ?_,
      .nil⟩⟩
    · simp only [Record.countCall]
      omega
    · exact fun _ h => absurd h List.not_mem_nil
    · exact fun _ h => absurd h List.not_mem_nil

/-- What tracing a transaction does to its record. -/
structure Traced (before after : Record) (edges : List Edge) : Prop where
  counters : edgeCounters after = edgeCounters before + (edges.map counted).sum
  same : SameRest before after
  methods : after.traceMethods = before.traceMethods.insert "callTracer"
  taken : ∀ e ∈ edges, TakenFrom after e
  numbers : ∀ e ∈ edges, 0 < e.edgeIndex ∧ e.edgeIndex ≤ after.traceCallCount
  increasing : edges.Pairwise fun e e' => e.edgeIndex < e'.edgeIndex

theorem traceTransaction_traced {py : FlowText} {record record' : Record} {edges edges' : List Edge}
    {trace : FlowTrace} (h : traceTransaction py record edges trace = .ok (record', edges')) :
    ∃ own, edges' = edges ++ own ∧ Traced record record' own := by
  simp only [traceTransaction, bind_eq_ok] at h
  obtain ⟨walk, hvisit, h⟩ := h
  cases h
  have hroot : (⟨false, 0⟩ : WalkContext) = contextAt [] trace.label := rfl
  rw [hroot, visit_eq_foldl contextAt childContext_contextAt [] trace] at hvisit
  replace hvisit := (foldl_bind (fun o : List FlowFrame × FlowFrame =>
    enter py (contextAt o.1 o.2) o.2) _ _).symm.trans hvisit
  obtain ⟨own, hlists⟩ := foldlM_invariant (fun _ walk => ∃ own, Lists _ walk own)
    (fun _ walk o walk' hdone hstep => by
      obtain ⟨own, hlists⟩ := hdone
      obtain ⟨more, hmore⟩ := enter_lists hstep
      exact ⟨own ++ more, hlists.trans hmore⟩) [] ⟨[], Lists.refl _⟩ hvisit
  have hsame := sameRest_of_bare hlists.bare
  have hmethods := congrArg Record.traceMethods hlists.bare
  refine ⟨own, hlists.listed, hlists.counters,
    ⟨hsame.shardId, hsame.blockNumber, hsame.transactionHash, hsame.roles, hsame.incidents⟩,
    hmethods, ?_, ?_, hlists.increasing⟩
  · exact fun e he => (hlists.taken e he).of_same hsame
  · intro e he
    have hcalls := hlists.calls
    have hnumber := hlists.numbers e he
    refine ⟨hnumber.1, ?_⟩
    dsimp only at hcalls hnumber
    omega

/-! ## All traces -/

/-- The edges of a transaction of shard 0. -/
def ownEdges (edges : List Edge) (transactionHash : String) : List Edge :=
  edges.filter fun e => e.transactionHash = transactionHash

theorem key_eq {key key' : Key} (hshard : key.shardId = key'.shardId)
    (hhash : key.transactionHash = key'.transactionHash) : key = key' := by
  cases key
  cases key'
  rw [Key.mk.injEq]
  exact ⟨hshard, hhash⟩

/-- The records of the keys that are traced, each under its own hash. -/
def Keyed (records : Records) (keys : List Key) : Prop :=
  ∀ key ∈ keys, key.shardId = 0 ∧
    ∃ record, records.lookup key = some record ∧ record.transactionHash = key.transactionHash

/-- What the loop over the keys has done after some of them. -/
structure TracedSoFar (records : Records) (done : List Key) (state : Records × List Edge) :
    Prop where
  untouched : ∀ key, key ∉ done → state.1.lookup key = records.lookup key
  traced : ∀ key ∈ done, ∃ before after, records.lookup key = some before ∧
    state.1.lookup key = some after ∧ Traced before after (ownEdges state.2 key.transactionHash)
  owned : ∀ e ∈ state.2, ∃ key ∈ done, e.transactionHash = key.transactionHash

theorem traceKey_traced {py : FlowText} {node : ArchiveNode} {records : Records} {done : List Key}
    {state state' : Records × List Edge} {key : Key} (hkeyed : Keyed records (done ++ [key]))
    (hkey : key ∉ done) (hdone : TracedSoFar records done state)
    (h : traceKey py node state key = .ok state') :
    TracedSoFar records (done ++ [key]) state' := by
  simp only [traceKey, bind_eq_ok, mapError_eq_ok, find_eq_ok] at h
  obtain ⟨record, hrecord, trace, -, ⟨after, edges'⟩, htraced, h⟩ := h
  cases h
  obtain ⟨own, hedges, hown⟩ := traceTransaction_traced htraced
  rw [hdone.untouched key hkey] at hrecord
  obtain ⟨hshard, found, hfound, hhash⟩ := hkeyed key (List.mem_append_right _ List.mem_cons_self)
  rw [hrecord, Option.some.injEq] at hfound
  subst hfound
  -- keys of one shard with one hash are the same
  have hother : ∀ k ∈ done, k.transactionHash ≠ key.transactionHash := by
    intro k hk heq
    have hzero := (hkeyed k (List.mem_append_left _ hk)).1
    have hsame : k = key := key_eq (hzero.trans hshard.symm) heq
    exact hkey (hsame ▸ hk)
  have hownHash : ∀ e ∈ own, e.transactionHash = key.transactionHash := by
    intro e he
    rw [(hown.taken e he).transactionHash, hown.same.transactionHash, hhash]
  refine ⟨?_, ?_, ?_⟩
  · intro k hk
    rw [List.mem_append, not_or, List.mem_singleton] at hk
    dsimp only
    rw [lookup_set, if_neg hk.2]
    exact hdone.untouched k hk.1
  · intro k hk
    dsimp only
    rw [hedges, ownEdges, List.filter_append]
    rcases List.mem_append.mp hk with hk | hk
    · obtain ⟨before, after', hbefore, hafter, hcounted⟩ := hdone.traced k hk
      have hnone : own.filter (fun e => e.transactionHash = k.transactionHash) = [] := by
        apply List.filter_eq_nil_iff.mpr
        intro e he
        rw [hownHash e he, decide_eq_true_eq]
        exact Ne.symm (hother k hk)
      have hne : k ≠ key := fun heq => hkey (heq ▸ hk)
      refine ⟨before, after', hbefore, ?_, ?_⟩
      · rw [lookup_set, if_neg hne]
        exact hafter
      · rw [hnone, List.append_nil]
        exact hcounted
    · rw [List.mem_singleton.mp hk]
      have hfirst : state.2.filter (fun e => e.transactionHash = key.transactionHash) = [] := by
        apply List.filter_eq_nil_iff.mpr
        intro e he
        obtain ⟨k', hk', hehash⟩ := hdone.owned e he
        rw [hehash, decide_eq_true_eq]
        exact hother k' hk'
      have hall : own.filter (fun e => e.transactionHash = key.transactionHash) = own :=
        List.filter_eq_self.mpr fun e he => decide_eq_true (hownHash e he)
      refine ⟨record, after, hrecord, ?_, ?_⟩
      · rw [lookup_set, if_pos rfl]
      · rw [hfirst, hall, List.nil_append]
        exact hown
  · intro e he
    dsimp only at he
    rw [hedges] at he
    rcases List.mem_append.mp he with he | he
    · obtain ⟨k, hk, hehash⟩ := hdone.owned e he
      exact ⟨k, List.mem_append_left _ hk, hehash⟩
    · exact ⟨key, List.mem_append_right _ List.mem_cons_self, hownHash e he⟩

/-- Every key is traced once, and its edges are its own. -/
theorem traceTransactions_traced {py : FlowText} {node : ArchiveNode} {records records' : Records}
    {edges : List Edge} {keys : List Key} (hkeys : keys.Nodup) (hkeyed : Keyed records keys)
    (h : traceTransactions py records [] keys node = .ok (records', edges)) :
    ∃ ordered : List Key, ordered.Perm keys ∧ TracedSoFar records ordered (records', edges) := by
  simp only [traceTransactions, bind_eq_ok, mapError_eq_ok] at h
  obtain ⟨ordered, hordered, h⟩ := h
  have hperm := orderKeys_perm hordered
  refine ⟨ordered, hperm, ?_⟩
  have hrun := foldlM_invariant
    (fun done state => done.Nodup → Keyed records done → TracedSoFar records done state)
    (fun done state key state' hdone hstep hnext hnextKeyed => by
      rw [List.nodup_append'] at hnext
      have hfresh : key ∉ done := fun hmem => hnext.2.2 hmem (List.mem_singleton_self key)
      have hprior : Keyed records done := fun k hk => hnextKeyed k (List.mem_append_left _ hk)
      exact traceKey_traced hnextKeyed hfresh (hdone hnext.1 hprior) hstep) []
    (fun _ _ => ⟨fun _ _ => rfl, fun _ hk => absurd hk List.not_mem_nil,
      fun _ he => absurd he List.not_mem_nil⟩) h
  exact hrun (hperm.nodup_iff.mpr hkeys) fun k hk => hkeyed k (hperm.mem_iff.mp hk)

/-! ## The keys -/

/-- What the scopes have collected: distinct keys of shard 0, each with a record of its hash. -/
structure KeysHeld (st : Scoped) : Prop where
  nodup : st.traceKeys.Nodup
  keyed : ∀ key ∈ st.traceKeys, key.shardId = 0 ∧
    ∃ record, st.records.lookup key = some record ∧ record.transactionHash = key.transactionHash

theorem runStep_keysHeld {py : ExportText} {st st' : Scoped} {step : ScopedStep}
    (hst : KeysHeld st) (h : runStep py st step = .ok st') : KeysHeld st' := by
  obtain ⟨normalized, blockNumber, -, -, -, hkeys, hrecords⟩ := runStep_ok h
  refine ⟨?_, ?_⟩
  · rw [hkeys]
    exact hst.nodup.insert
  · intro key hkey
    rw [hkeys, List.mem_insert_iff] at hkey
    rw [hrecords, lookup_set]
    split
    · rename_i heq
      subst heq
      exact ⟨rfl, _, rfl, rfl⟩
    · rename_i hne
      exact hst.keyed key (hkey.resolve_left hne)

/-- Counters before tracing. -/
theorem keptCounters (py : ExportText) :
    Kept py (fun record => edgeCounters record.toRecord) (0 : EdgeCounters) :=
  ⟨fun _ _ _ => rfl, fun _ _ => rfl⟩

theorem lookup_flowRecords (records : FullRecords) (key : Key) :
    (flowRecords records).lookup key = (records.lookup key).map FullRecord.toRecord :=
  map_lookup FullRecord.toRecord records key

/-- The statuses leave what has been traced. -/
theorem statuses_flow {archive : Archive} {records records' : FullRecords}
    (hnodup : (records.map Prod.fst).Nodup)
    (h : addReceiptStatuses archive records = .ok records') (key : Key) :
    (records'.lookup key).map FullRecord.toRecord = (records.lookup key).map FullRecord.toRecord := by
  have hview : ∀ records : FullRecords,
      viewAt (fun record => some record.toRecord) none records key =
        (records.lookup key).map FullRecord.toRecord := by
    intro records
    rw [viewAt]
    cases records.lookup key <;> rfl
  have hkeep := statuses_keep (fun record => some record.toRecord) none (fun _ _ => rfl) hnodup h
  rw [← hview, ← hview, hkeep.2]

/-- After tracing, the records are what the loop has made of them. -/
theorem withTraced_flow {records : FullRecords} {ordered : List Key} {traced : Records}
    {edges : List Edge} (hkeyed : Keyed (flowRecords records) ordered)
    (h : TracedSoFar (flowRecords records) ordered (traced, edges)) (key : Key) :
    ((withTraced records traced).lookup key).map FullRecord.toRecord = traced.lookup key := by
  have huntouched := h.untouched key
  rw [lookup_withTraced, Option.map_map]
  cases hrecord : records.lookup key with
  | none =>
    have hkey : key ∉ ordered := by
      intro hmem
      obtain ⟨-, record, hfound, -⟩ := hkeyed key hmem
      rw [lookup_flowRecords, hrecord] at hfound
      cases hfound
    rw [huntouched hkey, lookup_flowRecords, hrecord]
    rfl
  | some record =>
    have hsome : ∃ after, traced.lookup key = some after := by
      by_cases hkey : key ∈ ordered
      · obtain ⟨before, after, -, hafter, -⟩ := h.traced key hkey
        exact ⟨after, hafter⟩
      · exact ⟨record.toRecord, by rw [huntouched hkey, lookup_flowRecords, hrecord]; rfl⟩
    obtain ⟨after, hafter⟩ := hsome
    rw [hafter, Option.map_some, Function.comp_apply]
    rfl

/-! ## Agreement -/

/-- The edges of a key; the keys of shard 1 are not traced. -/
def edgesOf (edges : List Edge) (key : Key) : List Edge :=
  edges.filter fun e => key.shardId = 0 ∧ e.transactionHash = key.transactionHash

/-- The counters of every record are those of its edges, every edge is taken from the record under
its hash, and the payments to be summed up are found. -/
structure TablesAgree (records : FullRecords) (edges : List Edge) : Prop where
  counters : ∀ key record, records.lookup key = some record →
    edgeCounters record.toRecord = ((edgesOf edges key).map counted).sum
  rows : ∀ e ∈ edges, ∃ record, records.lookup ⟨0, e.transactionHash⟩ = some record ∧
    "callTracer" ∈ record.traceMethods ∧ TakenFrom record.toRecord e ∧
    0 < e.edgeIndex ∧ e.edgeIndex ≤ record.traceCallCount
  numbered : ∀ key, (edgesOf edges key).Pairwise fun e e' => e.edgeIndex < e'.edgeIndex
  payments : ∀ incident, ∃ received,
    edges.foldlM (addEdge (flowRecords records) incident) [] = .ok received

theorem exists_received {records : Records} {edges : List Edge}
    (hrows : ∀ e ∈ edges, ∃ record, records.lookup ⟨0, e.transactionHash⟩ = some record)
    (incident : Incident) (received : List (String × Int)) :
    ∃ received', edges.foldlM (addEdge records incident) received = .ok received' := by
  induction edges generalizing received with
  | nil => exact ⟨received, rfl⟩
  | cons e edges ih =>
    obtain ⟨⟨record, hrecord⟩, hrest⟩ := List.forall_mem_cons.mp hrows
    have hstep : ∃ next, addEdge records incident received e = .ok next := by
      rw [addEdge, find_eq_ok.mpr hrecord]
      split
      · rw [bind_ok]
        split
        · exact ⟨_, rfl⟩
        · exact ⟨_, rfl⟩
      · exact ⟨_, rfl⟩
    obtain ⟨next, hstep⟩ := hstep
    rw [List.foldlM_cons, hstep, bind_ok]
    exact ih hrest next

/-- Where the keys have been traced once, the tables agree. -/
theorem tablesAgree_of_traced {before : Records} {ordered : List Key} {traced : Records}
    {edges : List Edge} {records : FullRecords} (hkeyed : Keyed before ordered)
    (hzero : ∀ key record, before.lookup key = some record → edgeCounters record = 0)
    (htraced : TracedSoFar before ordered (traced, edges))
    (hrecords : ∀ key, (records.lookup key).map FullRecord.toRecord = traced.lookup key) :
    TablesAgree records edges := by
  have hfound : ∀ key after, traced.lookup key = some after →
      ∃ record, records.lookup key = some record ∧ record.toRecord = after := by
    intro key after hafter
    rw [← hrecords key, Option.map_eq_some_iff] at hafter
    exact hafter
  have hown : ∀ key, key.shardId = 0 → edgesOf edges key = ownEdges edges key.transactionHash := by
    intro key hshard
    simp only [edgesOf, ownEdges, hshard, true_and]
  have hnone : ∀ key, key ∉ ordered → edgesOf edges key = [] := by
    intro key hkey
    apply List.filter_eq_nil_iff.mpr
    intro e he
    rw [decide_eq_true_eq]
    rintro ⟨hshard, hhash⟩
    obtain ⟨k, hk, hehash⟩ := htraced.owned e he
    have hsame : k = key := key_eq ((hkeyed k hk).1.trans hshard.symm) (hehash.symm.trans hhash)
    exact hkey (hsame ▸ hk)
  have hrow : ∀ e ∈ edges, ∃ record, records.lookup ⟨0, e.transactionHash⟩ = some record ∧
      "callTracer" ∈ record.traceMethods ∧ TakenFrom record.toRecord e ∧
      0 < e.edgeIndex ∧ e.edgeIndex ≤ record.traceCallCount := by
    intro e he
    obtain ⟨k, hk, hehash⟩ := htraced.owned e he
    have hkey : k = ⟨0, e.transactionHash⟩ := key_eq (hkeyed k hk).1 hehash.symm
    obtain ⟨old, after, -, hafter, hcounted⟩ := htraced.traced k hk
    obtain ⟨record, hrecord, rfl⟩ := hfound k after hafter
    have hmem : e ∈ ownEdges edges k.transactionHash :=
      List.mem_filter.mpr ⟨he, decide_eq_true hehash⟩
    refine ⟨record, hkey ▸ hrecord, ?_, hcounted.taken e hmem, hcounted.numbers e hmem⟩
    rw [hcounted.methods]
    exact List.mem_insert_self
  constructor
  case counters =>
    intro key record hrecord
    have hafter : traced.lookup key = some record.toRecord := by
      rw [← hrecords, hrecord]
      rfl
    by_cases hkey : key ∈ ordered
    · obtain ⟨old, after, hold, hlookup, hcounted⟩ := htraced.traced key hkey
      have hsame : after = record.toRecord := Option.some.inj (hlookup.symm.trans hafter)
      rw [← hsame, hcounted.counters, hzero key old hold, zero_add, hown key (hkeyed key hkey).1]
    · rw [htraced.untouched key hkey] at hafter
      rw [hzero key _ hafter, hnone key hkey]
      rfl
  case rows => exact hrow
  case numbered =>
    intro key
    by_cases hkey : key ∈ ordered
    · obtain ⟨old, after, -, -, hcounted⟩ := htraced.traced key hkey
      rw [hown key (hkeyed key hkey).1]
      exact hcounted.increasing
    · rw [hnone key hkey]
      exact .nil
  case payments =>
    intro incident
    refine exists_received ?_ incident []
    intro e he
    obtain ⟨record, hrecord, -⟩ := hrow e he
    exact ⟨record.toRecord, by rw [lookup_flowRecords, hrecord]; rfl⟩

/-- The phases of a run that succeeds. -/
theorem collectRecords_ok {py : ExportText} {archive : Archive} {order : List Key → List Key}
    (horder : ∀ keys, (order keys).Perm keys) {shard0 shard1 : List Row} {records : FullRecords}
    {edges : List Edge}
    (h : collectRecords py archive order shard0 shard1 = .ok (records, edges)) :
    ∃ loaded0 loaded1 enriched st histories path ordered traced,
      loadSourceAudit py [] shard0 0 = .ok loaded0 ∧
      loadSourceAudit py loaded0 shard1 1 = .ok loaded1 ∧
      enrichRecords py archive loaded1 = .ok enriched ∧
      StepsOf archive histories path ∧
      (allSteps histories path).foldlM (runStep py) { records := enriched } = .ok st ∧
      (st.records.map Prod.fst).Nodup ∧
      Keyed (flowRecords st.records) ordered ∧ ordered.Perm st.traceKeys ∧
      TracedSoFar (flowRecords st.records) ordered (traced, edges) ∧
      (records.map Prod.fst).Nodup ∧
      ∀ key, (records.lookup key).map FullRecord.toRecord = traced.lookup key := by
  simp only [collectRecords, bind_eq_ok, mapError_eq_ok] at h
  obtain ⟨loaded0, hload0, loaded1, hload1, enriched, henrich, st0, hhistories, st, hpath,
    ⟨records3, edges3⟩, htrace, records4, hstatuses, h⟩ := h
  cases h
  have hempty : (([] : FullRecords).map Prod.fst).Nodup := List.nodup_nil
  obtain ⟨hnodup0, -⟩ := load_keep (keptCounters py) (fun _ _ => rfl) hempty hload0
  obtain ⟨hnodup1, -⟩ := load_keep (keptCounters py) (fun _ _ => rfl) hnodup0 hload1
  obtain ⟨hnodup2, -⟩ := enrichRecords_ok (keptCounters py) hnodup1 henrich
  obtain ⟨histories, path, hof, hsteps⟩ := scopes_ok hhistories hpath
  obtain ⟨hnodup3, -⟩ := steps_keep (keptCounters py) (fun _ _ _ => rfl) hnodup2 hsteps
  have hheld : KeysHeld st := foldlM_invariant (fun _ st => KeysHeld st)
    (fun _ _ _ _ hst hstep => runStep_keysHeld hst hstep) []
    ⟨List.nodup_nil, fun _ hk => absurd hk List.not_mem_nil⟩ hsteps
  simp only [traceRecords, bind_eq_ok, mapError_eq_ok] at htrace
  obtain ⟨⟨traced, tracedEdges⟩, htraces, htrace⟩ := htrace
  cases htrace
  have hkeyed : Keyed (flowRecords st.records) st.traceKeys := by
    intro key hkey
    obtain ⟨hshard, record, hrecord, hhash⟩ := hheld.keyed key hkey
    refine ⟨hshard, record.toRecord, ?_, hhash⟩
    rw [lookup_flowRecords, hrecord]
    rfl
  obtain ⟨ordered, hperm, htraced⟩ := traceTransactions_traced
    ((horder st.traceKeys).nodup_iff.mpr hheld.nodup)
    (fun key hkey => hkeyed key ((horder st.traceKeys).mem_iff.mp hkey)) htraces
  have hall := hperm.trans (horder st.traceKeys)
  have hkeyedOrdered : Keyed (flowRecords st.records) ordered := fun key hkey =>
    hkeyed key (hall.mem_iff.mp hkey)
  have hnodup4 : ((withTraced st.records traced).map Prod.fst).Nodup := by
    rwa [keys_withTraced]
  obtain ⟨hnodup5, -⟩ := statuses_keep (fun _ => ()) () (fun _ _ => rfl) hnodup4 hstatuses
  refine ⟨loaded0, loaded1, enriched, st, histories, path, ordered, traced, hload0, hload1, henrich,
    hof, hsteps, hnodup3, hkeyedOrdered, hall, htraced, hnodup5, fun key => ?_⟩
  rw [statuses_flow hnodup4 hstatuses, withTraced_flow hkeyedOrdered htraced]

/-- In a run that succeeds, whatever the node answers, the transaction table and the edge table
agree, and no edge is without its transaction. -/
theorem tables_agree (py : ExportText) (archive : Archive) (order : List Key → List Key)
    (horder : ∀ keys, (order keys).Perm keys) (shard0 shard1 : List Row) (records : FullRecords)
    (edges : List Edge)
    (h : collectRecords py archive order shard0 shard1 = .ok (records, edges)) :
    TablesAgree records edges := by
  obtain ⟨loaded0, loaded1, enriched, st, histories, path, ordered, traced, hload0, hload1, henrich,
    -, hsteps, -, hkeyed, -, htraced, -, hrecords⟩ := collectRecords_ok horder h
  have hempty : (([] : FullRecords).map Prod.fst).Nodup := List.nodup_nil
  obtain ⟨hnodup0, hview0⟩ := load_keep (keptCounters py) (fun _ _ => rfl) hempty hload0
  obtain ⟨hnodup1, hview1⟩ := load_keep (keptCounters py) (fun _ _ => rfl) hnodup0 hload1
  obtain ⟨hnodup2, hview2⟩ := enrichRecords_ok (keptCounters py) hnodup1 henrich
  obtain ⟨-, hview3⟩ := steps_keep (keptCounters py) (fun _ _ _ => rfl) hnodup2 hsteps
  refine tablesAgree_of_traced hkeyed ?_ htraced hrecords
  intro key record hrecord
  rw [lookup_flowRecords, Option.map_eq_some_iff] at hrecord
  obtain ⟨full, hfull, rfl⟩ := hrecord
  have hat := congrFun (hview3.trans (hview2.trans (hview1.trans hview0))) key
  rw [viewAt, hfull] at hat
  exact hat

theorem tables_agree_sample : ∃ records edges,
    collectRecords ExportText.ascii ExploitReceipts.sampleArchive List.reverse
        [ExploitReceipts.sampleSourceRow "0xF1"] [] = .ok (records, edges) ∧
      TablesAgree records edges := by
  obtain ⟨⟨records, edges⟩, hrun⟩ := exists_of_isOk
    (show (collectRecords ExportText.ascii ExploitReceipts.sampleArchive List.reverse
      [ExploitReceipts.sampleSourceRow "0xF1"] []).isOk = true by decide +kernel)
  exact ⟨records, edges, hrun, tables_agree ExportText.ascii ExploitReceipts.sampleArchive
    List.reverse List.reverse_perm [ExploitReceipts.sampleSourceRow "0xF1"] [] records edges hrun⟩

end ExploitTraces
