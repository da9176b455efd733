import SupplyAudit.ExploitFlow
import SupplyAudit.FallibleScan

/-!
# Effective edges and value movements

An edge is effective when no frame on its path has failed. A call hands over its
value only if its type does so as well. The edges are the movements of the traces
exactly when every other successful frame is without a value.
-/

namespace ValueMovements

open ScriptValues LabelledTrees FallibleScan KeyedTable ExploitFlow
open TraceInspection (CallFrame JsonValue)

/-! ## Frames -/

/-- A frame of a traced transaction, with the frames above it and its number. -/
structure TracedFrame where
  above : List FlowFrame
  node : FlowFrame
  edgeIndex : Nat

/-- Frames with their paths, numbered from 1. -/
def numbered (nodes : List (List FlowFrame × FlowFrame)) : List TracedFrame :=
  (nodes.zipIdx 1).map fun o => ⟨o.1.1, o.1.2, o.2⟩

/-- The frames of a trace in preorder. -/
def framesOf (trace : FlowTrace) : List TracedFrame := numbered (occurrences [] trace)

/-- No frame from here to the root has an error. -/
def TracedFrame.succeeded (f : TracedFrame) : Bool := !(f.node :: f.above).any (·.failed)

/-- The calls that hand over their value. A `CALLCODE` or `DELEGATECALL` runs foreign
code in place, and a `STATICCALL` has no value. -/
def valueCalls : List String := ["CALL", "CREATE", "CREATE2", "SELFDESTRUCT"]

def TracedFrame.handsOver (f : TracedFrame) : Prop :=
  ∃ kind ∈ valueCalls, f.node.type = some (.str kind)

instance (f : TracedFrame) : Decidable f.handsOver :=
  inferInstanceAs (Decidable (∃ kind ∈ valueCalls, _))

/-- A value, from whom and to whom. -/
structure Movement where
  edgeIndex : Nat
  depth : Nat
  sender : String
  recipient : String
  value : Int
  deriving DecidableEq

variable (py : FlowText)

/-- A positive value that a frame records. -/
def TracedFrame.recorded (f : TracedFrame) : Option Movement :=
  match py.frameValue f.node, py.lowerField f.node.sender, py.lowerField f.node.recipient with
  | .ok value, .ok sender, .ok recipient =>
    if 0 < value then some ⟨f.edgeIndex, f.above.length, sender, recipient, value⟩ else none
  | _, _, _ => none

/-- The value that a frame moves. -/
def TracedFrame.movement (f : TracedFrame) : Option Movement :=
  if f.handsOver ∧ f.succeeded then f.recorded py else none

/-- Every successful frame with a positive value hands it over. -/
def HandsOverAll (frames : List TracedFrame) : Prop :=
  ∀ f ∈ frames, f.succeeded → (f.recorded py).isSome → f.handsOver

instance (frames : List TracedFrame) : Decidable (HandsOverAll py frames) :=
  inferInstanceAs (Decidable (∀ f ∈ frames, _))

variable {py}

/-- Restricting the frames loses nothing when only the others record nothing. -/
theorem filterMap_restrict_eq_iff {α β : Type*} (f : α → Option β) (p : α → Prop)
    [DecidablePred p] (l : List α) :
    l.filterMap f = l.filterMap (fun a => if p a then f a else none) ↔
      ∀ a ∈ l, (f a).isSome → p a := by
  have hsub (l : List α) : (l.filterMap fun a => if p a then f a else none).Sublist
      (l.filterMap f) := by
    induction l with
    | nil => exact List.Sublist.slnil
    | cons a l ih =>
      rw [List.filterMap_cons, List.filterMap_cons]
      split <;> split <;> simp_all
  induction l with
  | nil => simp
  | cons a l ih =>
    rw [List.forall_mem_cons, List.filterMap_cons, List.filterMap_cons]
    cases hfa : f a with
    | none => simpa using ih
    | some b =>
      by_cases hp : p a
      · simpa [hp] using ih
      · have hne : b :: l.filterMap f ≠ l.filterMap fun a => if p a then f a else none := by
          intro heq
          have hlength := (hsub l).length_le
          rw [← heq, List.length_cons] at hlength
          omega
        simp [hp, hne]

/-! ## One trace -/

/-- The edge of a frame in the list of its transaction. -/
def edgeOf (py : FlowText) (record : Record) (f : TracedFrame) : Option Edge :=
  match py.frameValue f.node, py.lowerField f.node.sender, py.lowerField f.node.recipient with
  | .ok value, .ok sender, .ok recipient =>
    if positive : 0 < value then
      some
        { incident := joinSorted record.incidents
          shardId := record.shardId
          blockNumber := record.blockNumber
          transactionHash := record.transactionHash
          edgeIndex := f.edgeIndex
          depth := f.above.length
          callType := f.node.type.getD (.str "")
          sender := sender
          recipient := recipient
          valueAtto := value
          effective := f.succeeded
          error := f.node.error.getD (.str "")
          positive := positive }
    else none
  | _, _, _ => none

def edgeMovement (e : Edge) : Movement :=
  ⟨e.edgeIndex, e.depth, e.sender, e.recipient, e.valueAtto⟩

theorem map_edgeOf (record : Record) (f : TracedFrame) :
    (edgeOf py record f).map edgeMovement = f.recorded py := by
  rw [edgeOf, TracedFrame.recorded]
  split
  · split <;> rfl
  · rfl

theorem edgeOf_eq_some {record : Record} {f : TracedFrame} {e : Edge}
    (h : edgeOf py record f = some e) :
    e.effective = f.succeeded ∧ e.transactionHash = record.transactionHash := by
  rw [edgeOf] at h
  split at h
  · split at h
    · cases h
      exact ⟨rfl, rfl⟩
    · cases h
  · cases h

/-- The context in which `walk` is called on a frame below `above`. -/
def contextAt (above : List FlowFrame) (_node : FlowFrame) : WalkContext where
  failedAncestor := above.any (·.failed)
  depth := above.length

theorem childContext_contextAt (above : List FlowFrame) (node child : FlowFrame) :
    childContext (contextAt above node) node child = contextAt (node :: above) child := by
  rw [childContext, contextAt, contextAt, List.any_cons, Bool.or_comm]
  rfl

def effectiveEdges (edges : List Edge) : List Edge := edges.filter Edge.effective

theorem effectiveEdges_append (edges edges' : List Edge) :
    effectiveEdges (edges ++ edges') = effectiveEdges edges ++ effectiveEdges edges' :=
  List.filter_append ..

def sumValues (edges : List Edge) : Int := (edges.map Edge.valueAtto).sum

/-- What a walk over some frames has changed. -/
structure Walked (py : FlowText) (start : Walk) (frames : List TracedFrame) (walk : Walk) :
    Prop where
  index : walk.edgeIndex = start.edgeIndex + frames.length
  edges : walk.edges = start.edges ++ frames.filterMap (edgeOf py start.record)
  same : edgeOf py walk.record = edgeOf py start.record
  count : walk.record.traceEffectiveValueEdgeCount = start.record.traceEffectiveValueEdgeCount +
    (effectiveEdges (frames.filterMap (edgeOf py start.record))).length
  atto : walk.record.traceEffectiveValueAtto = start.record.traceEffectiveValueAtto +
    sumValues (effectiveEdges (frames.filterMap (edgeOf py start.record)))

theorem Walked.refl (walk : Walk) : Walked py walk [] walk :=
  ⟨rfl, (List.append_nil _).symm, rfl, rfl, (Int.add_zero _).symm⟩

theorem Walked.append {start walk walk' : Walk} {frames frames' : List TracedFrame}
    (h : Walked py start frames walk) (h' : Walked py walk frames' walk') :
    Walked py start (frames ++ frames') walk' where
  index := by rw [h'.index, h.index, List.length_append, Nat.add_assoc]
  edges := by rw [h'.edges, h.edges, h.same, List.filterMap_append, List.append_assoc]
  same := h'.same.trans h.same
  count := by
    rw [h'.count, h.count, h.same, List.filterMap_append, effectiveEdges_append,
      List.length_append, Nat.add_assoc]
  atto := by
    rw [h'.atto, h.atto, h.same, List.filterMap_append, effectiveEdges_append, sumValues,
      sumValues, sumValues, List.map_append, List.sum_append, Int.add_assoc]

/-- One call of `walk` lists the edge of its frame and counts it. -/
theorem enter_ok {above : List FlowFrame} {node : FlowFrame} {walk walk' : Walk}
    (h : enter py (contextAt above node) node walk = .ok walk') :
    Walked py walk [⟨above, node, walk.edgeIndex + 1⟩] walk' := by
  simp only [enter, bind_eq_ok] at h
  obtain ⟨value, hvalue, h⟩ := h
  have hsucceeded : (!((contextAt above node).failedAncestor || node.failed)) =
      TracedFrame.succeeded ⟨above, node, walk.edgeIndex + 1⟩ := by
    rw [TracedFrame.succeeded, List.any_cons, Bool.or_comm]
    rfl
  split at h
  · rename_i hpositive
    simp only [bind_eq_ok] at h
    obtain ⟨sender, hsender, recipient, hrecipient, h⟩ := h
    cases h
    rw [hsucceeded]
    have hedge : ∀ record, edgeOf py record ⟨above, node, walk.edgeIndex + 1⟩ = some
        { incident := joinSorted record.incidents
          shardId := record.shardId
          blockNumber := record.blockNumber
          transactionHash := record.transactionHash
          edgeIndex := walk.edgeIndex + 1
          depth := above.length
          callType := node.type.getD (.str "")
          sender := sender
          recipient := recipient
          valueAtto := value
          effective := TracedFrame.succeeded ⟨above, node, walk.edgeIndex + 1⟩
          error := node.error.getD (.str "")
          positive := hpositive } := by
      intro record
      simp only [edgeOf, hvalue, hsender, hrecipient, dif_pos hpositive]
    refine ⟨rfl, ?_, rfl, ?_, ?_⟩
    · rw [List.filterMap_cons, hedge]
      rfl
    · rw [List.filterMap_cons, hedge]
      cases TracedFrame.succeeded ⟨above, node, walk.edgeIndex + 1⟩ <;> rfl
    · rw [List.filterMap_cons, hedge]
      cases TracedFrame.succeeded ⟨above, node, walk.edgeIndex + 1⟩
      · rfl
      · simp [effectiveEdges, sumValues, Record.countValue, Record.countCall]
  · rename_i hnot
    cases h
    have hedge : edgeOf py walk.record ⟨above, node, walk.edgeIndex + 1⟩ = none := by
      rw [edgeOf]
      split
      · rename_i found _ _ hfound _ _
        rw [hvalue] at hfound
        cases hfound
        exact dif_neg hnot
      · rfl
    refine ⟨rfl, ?_, rfl, ?_, ?_⟩ <;> rw [List.filterMap_cons, hedge]
    · exact (List.append_nil _).symm
    · rfl
    · exact (Int.add_zero _).symm

theorem numbered_concat (done : List (List FlowFrame × FlowFrame)) (o : List FlowFrame × FlowFrame) :
    numbered (done ++ [o]) = numbered done ++ [⟨o.1, o.2, done.length + 1⟩] := by
  rw [numbered, numbered, List.zipIdx_append, List.map_append, Nat.add_comm done.length]
  rfl

theorem length_numbered (nodes : List (List FlowFrame × FlowFrame)) :
    (numbered nodes).length = nodes.length := by
  rw [numbered, List.length_map, List.length_zipIdx]

/-- The loop body lists the edges of the trace's frames and counts the effective ones. -/
theorem traceTransaction_ok {record record' : Record} {edges edges' : List Edge}
    {trace : FlowTrace} (h : traceTransaction py record edges trace = .ok (record', edges')) :
    edges' = edges ++ (framesOf trace).filterMap (edgeOf py record) ∧
      record'.traceEffectiveValueEdgeCount = record.traceEffectiveValueEdgeCount +
        (effectiveEdges ((framesOf trace).filterMap (edgeOf py record))).length ∧
      record'.traceEffectiveValueAtto = record.traceEffectiveValueAtto +
        sumValues (effectiveEdges ((framesOf trace).filterMap (edgeOf py record))) := by
  simp only [traceTransaction, bind_eq_ok] at h
  obtain ⟨walk, hvisit, h⟩ := h
  cases h
  have hroot : (⟨false, 0⟩ : WalkContext) = contextAt [] trace.label := rfl
  rw [hroot, visit_eq_foldl contextAt childContext_contextAt [] trace] at hvisit
  replace hvisit := (foldl_bind (fun o : List FlowFrame × FlowFrame =>
    enter py (contextAt o.1 o.2) o.2) _ _).symm.trans hvisit
  have hwalked := foldlM_invariant (fun done walk => Walked py _ (numbered done) walk)
    (fun done walk o walk' hdone hstep => by
      have hindex := hdone.index
      rw [length_numbered] at hindex
      have hnext := enter_ok hstep
      rw [hindex] at hnext
      rw [numbered_concat]
      exact hdone.append (by simpa using hnext)) [] (Walked.refl _) hvisit
  exact ⟨hwalked.edges, hwalked.count, hwalked.atto⟩

/-! ## A run -/

/-- The record and the trace of a key. -/
def tracedAt (records : Records) (node : ArchiveNode) (key : Key) : Option (Record × FlowTrace) :=
  (records.lookup key).bind fun record =>
    (node.trace record.transactionHash).toOption.map fun trace => (record, trace)

theorem tracedAt_eq_some {records : Records} {node : ArchiveNode} {key : Key} {record : Record}
    {trace : FlowTrace} (hrecord : records.lookup key = some record)
    (htrace : node.trace record.transactionHash = .ok trace) :
    tracedAt records node key = some (record, trace) := by
  rw [tracedAt, hrecord, Option.bind_some, htrace]
  rfl

/-- The frames of all traced transactions, each with the record of its transaction. -/
def framesAt (records : Records) (node : ArchiveNode) (keys : List Key) :
    List (Record × TracedFrame) :=
  (keys.filterMap (tracedAt records node)).flatMap fun t => (framesOf t.2).map fun f => (t.1, f)

theorem mem_framesAt {records : Records} {node : ArchiveNode} {keys : List Key}
    {f : Record × TracedFrame} : f ∈ framesAt records node keys ↔
      ∃ key ∈ keys, ∃ trace, tracedAt records node key = some (f.1, trace) ∧
        f.2 ∈ framesOf trace := by
  simp only [framesAt, List.mem_flatMap, List.mem_filterMap, List.mem_map]
  constructor
  · rintro ⟨⟨record, trace⟩, ⟨key, hkey, htraced⟩, frame, hframe, rfl⟩
    exact ⟨key, hkey, trace, htraced, hframe⟩
  · rintro ⟨key, hkey, trace, htraced, hframe⟩
    exact ⟨(f.1, trace), ⟨key, hkey, htraced⟩, f.2, hframe, rfl⟩

/-- The edges of the frames of a run. -/
def edgesAt (py : FlowText) (records : Records) (node : ArchiveNode) (keys : List Key) :
    List Edge :=
  (framesAt records node keys).filterMap fun f => edgeOf py f.1 f.2

theorem edgesAt_concat {records : Records} {node : ArchiveNode} {keys : List Key} {key : Key}
    {record : Record} {trace : FlowTrace} (h : tracedAt records node key = some (record, trace)) :
    edgesAt py records node (keys ++ [key]) =
      edgesAt py records node keys ++ (framesOf trace).filterMap (edgeOf py record) := by
  have hframes : framesAt records node (keys ++ [key]) =
      framesAt records node keys ++ (framesOf trace).map fun f => (record, f) := by
    rw [framesAt, framesAt, filterMap_concat, h, List.flatMap_append]
    simp
  rw [edgesAt, edgesAt, hframes, List.filterMap_append, List.filterMap_map]
  rfl

/-- The counters of a traced record are those of its edges. -/
def Counted (py : FlowText) (before after : Record) (trace : FlowTrace) : Prop :=
  after.traceEffectiveValueEdgeCount = before.traceEffectiveValueEdgeCount +
      (effectiveEdges ((framesOf trace).filterMap (edgeOf py before))).length ∧
    after.traceEffectiveValueAtto = before.traceEffectiveValueAtto +
      sumValues (effectiveEdges ((framesOf trace).filterMap (edgeOf py before)))

/-- What the loop of `trace_transactions` has done after some keys. -/
structure TracedKeys (py : FlowText) (node : ArchiveNode) (records : Records) (edges : List Edge)
    (done : List Key) (state : Records × List Edge) : Prop where
  edges : state.2 = edges ++ edgesAt py records node done
  untouched : ∀ key, key ∉ done → state.1.lookup key = records.lookup key
  traced : ∀ key ∈ done, ∃ before after trace, records.lookup key = some before ∧
    node.trace before.transactionHash = .ok trace ∧ state.1.lookup key = some after ∧
    Counted py before after trace

theorem traceKey_ok {node : ArchiveNode} {records : Records} {edges : List Edge} {done : List Key}
    {state state' : Records × List Edge} {key : Key} (hkey : key ∉ done)
    (hdone : TracedKeys py node records edges done state)
    (h : traceKey py node state key = .ok state') :
    TracedKeys py node records edges (done ++ [key]) state' := by
  simp only [traceKey, bind_eq_ok, mapError_eq_ok, find_eq_ok] at h
  obtain ⟨record, hrecord, trace, htrace, ⟨after, edges'⟩, htraced, h⟩ := h
  cases h
  obtain ⟨hedges, hcounted⟩ := traceTransaction_ok htraced
  rw [hdone.untouched key hkey] at hrecord
  refine ⟨?_, ?_, ?_⟩
  · rw [edgesAt_concat (tracedAt_eq_some hrecord htrace), ← List.append_assoc, ← hdone.edges]
    exact hedges
  · intro k hk
    rw [List.mem_append, not_or, List.mem_singleton] at hk
    dsimp only
    rw [lookup_set, if_neg hk.2]
    exact hdone.untouched k hk.1
  · intro k hk
    by_cases hsame : k = key
    · subst hsame
      refine ⟨record, after, trace, hrecord, htrace, ?_, hcounted⟩
      dsimp only
      rw [lookup_set, if_pos rfl]
    · have hmem : k ∈ done := (List.mem_append.mp hk).resolve_right fun hlast =>
        hsame (List.mem_singleton.mp hlast)
      obtain ⟨before, after', trace', hbefore, htrace', hafter, hcount⟩ := hdone.traced k hmem
      refine ⟨before, after', trace', hbefore, htrace', ?_, hcount⟩
      dsimp only
      rw [lookup_set, if_neg hsame]
      exact hafter

theorem orderKeys_perm {records : Records} {traceKeys ordered : List Key}
    (h : orderKeys records traceKeys = .ok ordered) : ordered.Perm traceKeys := by
  simp only [orderKeys, bind_eq_ok] at h
  obtain ⟨keyed, hkeyed, h⟩ := h
  cases h
  have hkeys : traceKeys.map id = keyed.map Prod.snd := by
    refine map_eq_of_mapM_ok hkeyed fun key entry hentry => ?_
    rw [bind_eq_ok] at hentry
    obtain ⟨record, -, hentry⟩ := hentry
    cases hentry
    rfl
  rw [List.map_id] at hkeys
  rw [hkeys]
  exact (List.perm_insertionSort Precedes keyed).map Prod.snd

theorem traceTransactions_ok {node : ArchiveNode} {records records' : Records}
    {edges edges' : List Edge} {traceKeys ordered : List Key} (hkeys : traceKeys.Nodup)
    (hordered : orderKeys records traceKeys = .ok ordered)
    (h : traceTransactions py records edges traceKeys node = .ok (records', edges')) :
    TracedKeys py node records edges ordered (records', edges') := by
  simp only [traceTransactions, bind_eq_ok, mapError_eq_ok, hordered, Except.ok.injEq,
    exists_eq_left'] at h
  have hnodup : ordered.Nodup := (orderKeys_perm hordered).nodup_iff.mpr hkeys
  have hrun := foldlM_invariant
    (fun done state => done.Nodup → TracedKeys py node records edges done state)
    (fun done state key state' hdone hstep hnext => by
      rw [List.nodup_append'] at hnext
      have hfresh : key ∉ done := fun hmem => hnext.2.2 hmem (List.mem_singleton_self key)
      exact traceKey_ok hfresh (hdone hnext.1) hstep) []
    (fun _ => ⟨(List.append_nil _).symm, fun _ _ => rfl, nofun⟩) h
  exact hrun hnodup

/-! ## Edges and movements -/

def edgeTransfer (e : Edge) : String × Movement := (e.transactionHash, edgeMovement e)

/-- What a trace moves. -/
def movements (py : FlowText) (trace : FlowTrace) : List Movement :=
  (framesOf trace).filterMap (TracedFrame.movement py)

/-- What the traced transactions move. -/
def movementsAt (py : FlowText) (records : Records) (node : ArchiveNode) (keys : List Key) :
    List (String × Movement) :=
  (framesAt records node keys).filterMap fun f =>
    (f.2.movement py).map fun m => (f.1.transactionHash, m)

/-- The amount that a contract has sent to a recipient. -/
def sentTo (contract recipient : String) (transfers : List (String × Movement)) : Int :=
  ((transfers.filter fun t => t.2.sender = contract ∧ t.2.recipient = recipient).map
    fun t => t.2.value).sum

/-- The new effective edges are the movements of the traces, the counters of a record
are their number and sum, and the edges out of a contract add up to what it sent. -/
structure EdgesAreMovements (py : FlowText) (node : ArchiveNode) (records records' : Records)
    (keys : List Key) (added : List Edge) : Prop where
  marked : (effectiveEdges added).map edgeTransfer = movementsAt py records node keys
  counted : ∀ key ∈ keys, ∀ before after trace, records.lookup key = some before →
    records'.lookup key = some after → node.trace before.transactionHash = .ok trace →
    after.traceEffectiveValueEdgeCount =
        before.traceEffectiveValueEdgeCount + (movements py trace).length ∧
      after.traceEffectiveValueAtto =
        before.traceEffectiveValueAtto + ((movements py trace).map Movement.value).sum
  sent : ∀ contract recipient, sumValues ((effectiveEdges added).filter fun e =>
      e.sender = contract ∧ e.recipient = recipient) =
    sentTo contract recipient (movementsAt py records node keys)

/-- The value of a frame that has succeeded. -/
def TracedFrame.marked (py : FlowText) (f : TracedFrame) : Option Movement :=
  if f.succeeded then f.recorded py else none

variable (py) in
theorem movement_eq (f : TracedFrame) :
    f.movement py = if f.handsOver then f.marked py else none := by
  rw [TracedFrame.movement, TracedFrame.marked]
  by_cases h : f.handsOver <;> simp [h]

theorem effective_edge (record : Record) (f : TracedFrame) :
    ((edgeOf py record f).filter Edge.effective).map edgeMovement = f.marked py := by
  rw [TracedFrame.marked, ← map_edgeOf record]
  cases hedge : edgeOf py record f with
  | none => simp
  | some e =>
    rw [← (edgeOf_eq_some hedge).1]
    cases he : e.effective <;> simp [he]

theorem effectiveEdges_filterMap {α : Type} (edge : α → Option Edge) (l : List α) :
    effectiveEdges (l.filterMap edge) = l.filterMap fun a => (edge a).filter Edge.effective := by
  rw [effectiveEdges, List.filter_filterMap]

variable (py) in
/-- The effective edges of a trace are its values on successful paths. -/
theorem effective_movements (record : Record) (frames : List TracedFrame) :
    (effectiveEdges (frames.filterMap (edgeOf py record))).map edgeMovement =
      frames.filterMap (TracedFrame.marked py) := by
  rw [effectiveEdges_filterMap, List.map_filterMap]
  exact congrArg (List.filterMap · frames) (funext (effective_edge record))

variable (py) in
theorem effective_transfers (frames : List (Record × TracedFrame)) :
    (effectiveEdges (frames.filterMap fun f => edgeOf py f.1 f.2)).map edgeTransfer =
      frames.filterMap fun f =>
        (f.2.marked py).map fun m => (f.1.transactionHash, m) := by
  rw [effectiveEdges_filterMap, List.map_filterMap]
  congr 1
  funext f
  rw [← effective_edge f.1]
  cases hedge : edgeOf py f.1 f.2 with
  | none => rfl
  | some e =>
    cases he : e.effective with
    | false => simp [Option.filter, he]
    | true => simp [Option.filter, he, edgeTransfer, (edgeOf_eq_some hedge).2]

theorem marked_isSome {f : TracedFrame} :
    (f.marked py).isSome ↔ f.succeeded ∧ (f.recorded py).isSome := by
  rw [TracedFrame.marked]
  cases f.succeeded <;> simp

/-- A trace moves what its effective edges carry when all its frames hand over. -/
theorem movements_eq_marked {trace : FlowTrace} (h : HandsOverAll py (framesOf trace)) :
    movements py trace = (framesOf trace).filterMap (TracedFrame.marked py) := by
  rw [movements, funext (movement_eq py)]
  refine ((filterMap_restrict_eq_iff _ _ _).mpr fun f hf hmarked => ?_).symm
  rw [marked_isSome] at hmarked
  exact h f hf hmarked.1 hmarked.2

/-- The values on successful paths are what the transactions move when all their
frames hand over, and only then. -/
theorem marked_eq_movementsAt_iff {node : ArchiveNode} {records : Records}
    {traceKeys ordered : List Key} (hperm : ordered.Perm traceKeys) :
    (framesAt records node ordered).filterMap (fun f =>
        (f.2.marked py).map fun m => (f.1.transactionHash, m)) =
        movementsAt py records node ordered ↔
      ∀ key ∈ traceKeys, ∀ record trace, records.lookup key = some record →
        node.trace record.transactionHash = .ok trace → HandsOverAll py (framesOf trace) := by
  have hmovements : movementsAt py records node ordered =
      (framesAt records node ordered).filterMap fun f =>
        if f.2.handsOver then (f.2.marked py).map fun m => (f.1.transactionHash, m) else none := by
    rw [movementsAt]
    congr 1
    funext f
    rw [movement_eq]
    split <;> rfl
  rw [hmovements, filterMap_restrict_eq_iff]
  simp only [Option.isSome_map, marked_isSome, mem_framesAt]
  constructor
  · intro h key hkey record trace hrecord htrace f hf hsucceeded hrecorded
    exact h (record, f) ⟨key, hperm.mem_iff.mpr hkey, trace, tracedAt_eq_some hrecord htrace, hf⟩
      ⟨hsucceeded, hrecorded⟩
  · rintro h f ⟨key, hkey, trace, htraced, hf⟩ ⟨hsucceeded, hrecorded⟩
    simp only [tracedAt, Option.bind_eq_some_iff, Option.map_eq_some_iff, Prod.mk.injEq] at htraced
    obtain ⟨record, hrecord, trace', htrace, hsame, rfl⟩ := htraced
    have htrace' : node.trace record.transactionHash = .ok trace' := by
      cases hfound : node.trace record.transactionHash with
      | error err => rw [hfound] at htrace; cases htrace
      | ok found => rw [hfound] at htrace; exact congrArg Except.ok (Option.some.inj htrace)
    exact h key (hperm.mem_iff.mp hkey) record trace' hrecord htrace' f.2 hf hsucceeded hrecorded

/-- In a completed run, the effective edges are the movements of the traced
transactions exactly when every successful frame with a value is a call that hands
it over. -/
theorem effective_edges_iff (py : FlowText) (node : ArchiveNode) (records records' : Records)
    (edges edges' : List Edge) (traceKeys ordered : List Key) (hkeys : traceKeys.Nodup)
    (hordered : orderKeys records traceKeys = .ok ordered)
    (hrun : traceTransactions py records edges traceKeys node = .ok (records', edges')) :
    (∃ added, edges' = edges ++ added ∧
        EdgesAreMovements py node records records' ordered added) ↔
      ∀ key ∈ traceKeys, ∀ record trace, records.lookup key = some record →
        node.trace record.transactionHash = .ok trace → HandsOverAll py (framesOf trace) := by
  have hedges := (traceTransactions_ok hkeys hordered hrun).edges
  have hmarked := effective_transfers py (framesAt records node ordered)
  constructor
  · rintro ⟨added, hadded, hexact⟩
    have hsame : added = edgesAt py records node ordered :=
      List.append_cancel_left (hadded.symm.trans hedges)
    rw [← marked_eq_movementsAt_iff (orderKeys_perm hordered), ← hmarked, ← hexact.marked, hsame]
    rfl
  · intro hall
    have heq := hmarked.trans ((marked_eq_movementsAt_iff (orderKeys_perm hordered)).mpr hall)
    refine ⟨edgesAt py records node ordered, hedges, heq, ?_, ?_⟩
    · intro key hkey before after trace hbefore hafter htrace
      obtain ⟨before', after', trace', hbefore', htrace', hafter', hcount, hatto⟩ :=
        (traceTransactions_ok hkeys hordered hrun).traced key hkey
      cases hbefore.symm.trans hbefore'
      cases hafter.symm.trans hafter'
      cases htrace.symm.trans htrace'
      have hmoved := effective_movements py before (framesOf trace)
      rw [← movements_eq_marked (hall key ((orderKeys_perm hordered).mem_iff.mp hkey) before trace
        hbefore htrace)] at hmoved
      rw [hcount, hatto, ← hmoved, List.length_map, List.map_map]
      exact ⟨rfl, rfl⟩
    · intro contract recipient
      rw [← heq, sentTo, List.filter_map, List.map_map]
      rfl

/-! ## Two traces -/

def sampleKey : Key := ⟨0, "0x01"⟩

def sampleRecord : Record where
  shardId := 0
  blockNumber := 73386870
  transactionIndex := 0
  transactionHash := "0x01"
  roles := ["initial-distribution-call"]
  incidents := ["may-2025"]

def sampleRecords : Records := [(sampleKey, sampleRecord)]

def sampleContract : String := "0x70a217631472a276976ab572d48959dc74f6065a"

def sampleCall (kind : String) : FlowFrame where
  type := some (.str kind)
  sender := some (.str sampleContract)
  recipient := some (.str "0xaa")
  value := some (.str "0x5")

/-- A call of an incident contract that makes one call of the given type with value 5. -/
def sampleTrace (kind : String) : FlowTrace :=
  .node { type := some (.str "CALL"), recipient := some (.str sampleContract) }
    [.node (sampleCall kind) []]

def sampleNode (kind : String) : ArchiveNode where
  trace _ := .ok (sampleTrace kind)
  blockNumber := .ok "0x1"
  balance _ _ := .ok "0x0"
  transactionCount _ _ := .ok "0x0"

theorem effective_edges_iff_call : ∃ records' edges',
    traceTransactions FlowText.ascii sampleRecords [] [sampleKey] (sampleNode "CALL") =
        .ok (records', edges') ∧
      ∃ added, edges' = [] ++ added ∧ EdgesAreMovements FlowText.ascii (sampleNode "CALL")
        sampleRecords records' [sampleKey] added := by
  obtain ⟨⟨records', edges'⟩, hrun⟩ := exists_of_isOk
    (show (traceTransactions FlowText.ascii sampleRecords [] [sampleKey]
      (sampleNode "CALL")).isOk = true by decide +kernel)
  refine ⟨records', edges', hrun, (effective_edges_iff _ _ _ _ _ _ [sampleKey] _
    (List.nodup_singleton _) rfl hrun).mpr ?_⟩
  intro key hkey record trace hrecord htrace
  cases htrace
  decide +kernel

/-- The export marks a `CALLCODE` with value, which moves nothing. -/
theorem callcode_marked_effective : ∃ records' edges',
    traceTransactions FlowText.ascii sampleRecords [] [sampleKey] (sampleNode "CALLCODE") =
        .ok (records', edges') ∧
      (effectiveEdges edges').map edgeTransfer = [("0x01", ⟨2, 1, sampleContract, "0xaa", 5⟩)] ∧
      movementsAt FlowText.ascii sampleRecords (sampleNode "CALLCODE") [sampleKey] = [] ∧
      ¬ ∃ added, edges' = [] ++ added ∧ EdgesAreMovements FlowText.ascii (sampleNode "CALLCODE")
        sampleRecords records' [sampleKey] added := by
  have hmarked : (traceTransactions FlowText.ascii sampleRecords [] [sampleKey]
      (sampleNode "CALLCODE")).map (fun run => (effectiveEdges run.2).map edgeTransfer) =
        .ok [("0x01", ⟨2, 1, sampleContract, "0xaa", 5⟩)] := by decide +kernel
  have hmoved : movementsAt FlowText.ascii sampleRecords (sampleNode "CALLCODE") [sampleKey] =
      [] := by decide +kernel
  cases hrun : traceTransactions FlowText.ascii sampleRecords [] [sampleKey]
      (sampleNode "CALLCODE") with
  | error err => rw [hrun] at hmarked; cases hmarked
  | ok run =>
    rw [hrun] at hmarked
    have hedges : (effectiveEdges run.2).map edgeTransfer =
        [("0x01", ⟨2, 1, sampleContract, "0xaa", 5⟩)] := Except.ok.inj hmarked
    refine ⟨run.1, run.2, rfl, hedges, hmoved, ?_⟩
    rintro ⟨added, hadded, hexact⟩
    rw [List.nil_append] at hadded
    have hnone := hexact.marked
    rw [hmoved, ← hadded, hedges] at hnone
    cases hnone

end ValueMovements
