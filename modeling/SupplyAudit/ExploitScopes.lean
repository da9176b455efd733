import SupplyAudit.ExploitTraces

/-!
# What the exploit flow export covers

The export traces the transactions of two histories for each incident and of one
known path. A history comes in pages of a thousand, of which at most a thousand
are asked for: the run stops before anything is left out.
-/

namespace ExploitScopes

open ScriptValues AuditFiles FallibleScan KeyedTable ExploitFlow ExploitRecords ExploitPhases
  BatchReplies PagedListing TablePublication

variable {py : ExportText} {archive : Archive}

/-- An archive that answers with the transactions it is asked for, all of the shard asked. -/
structure Honest (py : ExportText) (archive : Archive)
    (history : String → String → List Transaction) : Prop where
  byHash : ∀ shardId hashes attempt replies,
    archive.transactionByHash shardId hashes attempt = .ok replies → ∀ reply ∈ replies,
      ∀ (i : Nat) t hash, reply.id = i → reply.outcome = .ok (some t) → hashes[i]? = some hash →
        py.lower t.hash = hash ∧ t.shardId.getD shardId = shardId
  pages : ∀ address txType page attempt batch,
    archive.transactionsHistory address txType page attempt = .ok batch →
      batch = pageOf (history address txType) pageSize page
  shards : ∀ address txType, ∀ t ∈ history address txType, t.shardId.getD 0 = 0

/-! ## Histories -/

theorem rpc_page {history : String → String → List Transaction} (h : Honest py archive history)
    {method address txType : String} {page : Nat} {batch : List Transaction}
    (hrpc : rpc method (archive.transactionsHistory address txType page) = .ok batch) :
    batch = pageOf (history address txType) pageSize page := by
  rw [rpc] at hrpc
  split at hrpc
  · rename_i result hresult
    cases hrpc
    exact retryIf_sound (h.pages address txType page) hresult
  · cases hrpc
  · cases hrpc

/-- A history that is read is read as a whole. -/
theorem transactionHistory_ok {history : String → String → List Transaction}
    (h : Honest py archive history) {address txType : String} {items : List Transaction}
    (hitems : transactionHistory archive address txType = .ok items) :
    items = history address txType ∧
      (history address txType).length < pageBound * pageSize := by
  rw [transactionHistory] at hitems
  cases hscan : scanPages (fun page => rpc "hmyv2_getTransactionsHistory"
      (archive.transactionsHistory address txType page))
    (short pageSize) (fun transactions batch => .ok (transactions ++ batch)) pageBound 0 [] with
  | none =>
    rw [hscan] at hitems
    cases hitems
  | some outcome =>
    rw [hscan, Option.getD_some] at hitems
    subst hitems
    exact scanPages_collect _ pageSize (by decide) (fun page batch => rpc_page h) hscan

/-! ## Transactions by hash -/

/-- The transactions that are returned are those that were asked for. -/
theorem rpcBatch_byHash {history : String → String → List Transaction}
    (h : Honest py archive history) {method : String} {size : Nat} (hsize : 0 < size)
    {shardId : Int} {hashes : List String} {results : List (Option Transaction)}
    (hresults : rpcBatch method size (archive.transactionByHash shardId) hashes = .ok results) :
    List.Forall₂ (fun hash result => ∀ t, result = some t →
      py.lower t.hash = hash ∧ t.shardId.getD shardId = shardId) hashes results := by
  refine answerBatches_sound hsize ?_ (Nat.le_refl _) hresults
  intro chunk values hvalues
  simp only [bind_eq_ok, mapError_eq_ok] at hvalues
  obtain ⟨replies, hreplies, hvalues⟩ := hvalues
  have hhonest : ∀ reply ∈ replies, ∀ (i : Nat) t hash, reply.id = i →
      reply.outcome = .ok (some t) → chunk[i]? = some hash →
        py.lower t.hash = hash ∧ t.shardId.getD shardId = shardId :=
    retryIf_sound (h.byHash shardId chunk) hreplies
  have hplaces := answersAt_replies hvalues
  rw [List.forall₂_map_left_iff] at hplaces
  refine (forall₂_places hplaces).imp ?_
  rintro hash value ⟨i, hi, reply, hreply, hid, houtcome⟩ t rfl
  obtain ⟨sent, hsent, rfl⟩ := List.mem_map.mp hreply
  exact hhonest sent hsent i t hash hid (mapError_eq_ok.mp houtcome) hi

/-! ## Records under their keys -/

/-- Every record has the shard and the hash of its key. -/
def UnderKeys (records : FullRecords) : Prop :=
  ∀ key record, records.lookup key = some record →
    record.shardId = key.shardId ∧ record.transactionHash = key.transactionHash

theorem UnderKeys.set {records : FullRecords} (h : UnderKeys records) {key : Key}
    {record : FullRecord} (hshard : record.shardId = key.shardId)
    (hhash : record.transactionHash = key.transactionHash) :
    UnderKeys (KeyedTable.set records key record) := by
  intro k found hfound
  rw [lookup_set] at hfound
  split at hfound
  · rename_i hk
    cases hfound
    rw [hk]
    exact ⟨hshard, hhash⟩
  · exact h k found hfound

theorem UnderKeys.getRecord {records : FullRecords} (h : UnderKeys records) {key : Key}
    (hkey : keyOf py key.shardId key.transactionHash = key) (blockNumber : Int) :
    (getRecord py records key.shardId key.transactionHash blockNumber).shardId = key.shardId ∧
      (getRecord py records key.shardId key.transactionHash blockNumber).transactionHash =
        key.transactionHash := by
  rw [ExploitRecords.getRecord, hkey]
  cases hrecord : records.lookup key with
  | none =>
    refine ⟨rfl, ?_⟩
    exact congrArg Key.transactionHash hkey
  | some record => exact h key record hrecord

theorem load_underKeys {shardId : Int} {records records' : FullRecords} {rows : List Row}
    (h : UnderKeys records) (hload : loadSourceAudit py records rows shardId = .ok records') :
    UnderKeys records' :=
  foldlM_keep UnderKeys
    (fun st row _ st' hst hstep => by
      obtain ⟨key, blockNumber, loaded, -, hkey, rfl⟩ := loadRow_ok hstep
      obtain ⟨hshard, hhash⟩ := hst.getRecord hkey blockNumber
      exact hst.set hshard hhash) h hload

theorem normalize_ok {transaction : Transaction} {shardId : Int} {normalized : Normalized}
    (h : normalizeTransaction py transaction shardId = .ok normalized) :
    normalized.shardId = transaction.shardId.getD shardId ∧
      normalized.transactionHash = py.lower transaction.hash := by
  simp only [normalizeTransaction, bind_eq_ok] at h
  obtain ⟨sender, -, recipient, -, h⟩ := h
  cases h
  exact ⟨rfl, rfl⟩

theorem enrichShard_underKeys {history : String → String → List Transaction}
    (hhonest : Honest py archive history) {records records' : FullRecords} {shardId : Int}
    (hnodup : (records.map Prod.fst).Nodup) (h : UnderKeys records)
    (henrich : enrichShard py archive records shardId = .ok records') : UnderKeys records' := by
  rw [enrichShard] at henrich
  split at henrich
  · cases henrich
    exact h
  · rw [bind_eq_ok] at henrich
    obtain ⟨results, hresults, henrich⟩ := henrich
    have hanswers := rpcBatch_byHash hhonest (by decide) hresults
    rw [List.forall₂_map_left_iff] at hanswers
    exact foldlM_keep UnderKeys (fun st asked hmem st' hst hstep => by
      have hentry := List.mem_filter.mp (mem_zip_left hmem)
      have hshard : asked.1.1.shardId = shardId := (of_decide_eq_true hentry.2).1
      have hkeyed := h asked.1.1 asked.1.2 (lookup_of_mem hnodup hentry.1)
      obtain ⟨normalized, ⟨t, ht, hnormalized⟩, rfl⟩ := enrichRecord_ok hstep
      obtain ⟨hhash, hself⟩ := (List.forall₂_iff_zip.mp hanswers).2 hmem t ht
      have hown := normalize_ok hnormalized
      have hmerged : (mergeTransaction asked.1.2 normalized).shardId = asked.1.1.shardId ∧
          (mergeTransaction asked.1.2 normalized).transactionHash = asked.1.1.transactionHash :=
        ⟨hown.1.trans (hself.trans hshard.symm), hown.2.trans (hhash.trans hkeyed.2)⟩
      exact hst.set hmerged.1 hmerged.2) h henrich

end ExploitScopes
