import SupplyAudit.KeyedSums
import SupplyAudit.NonIssuanceTotals

/-!
# Rows behind the non-issuance lists

What the loaders of the non-issuance audit establish: in each list no address
repeats, its amounts are within the quoted claims, and its total is their sum.
-/

namespace NonIssuanceRows

open ScriptValues FallibleScan KeyedTable KeyedSums TraceInspection AuditFiles NonIssuanceAudit
  NonIssuanceTotals

variable (py : AuditText)

/-- A row gives an address one amount. -/
def Reads (addressField amountField : String) (row : Row) (e : String × Int) : Prop :=
  lowerField py.toPyText row addressField = .ok e.1 ∧
    intField py.toPyText row amountField = .ok e.2

/-! ## Inventories -/

structure InventoryEntry where
  address : String
  amount : Int
  claim : Int

def InventoryEntry.share (e : InventoryEntry) : String × Int := (e.address, e.amount)

/-- What an inventory row says. -/
structure InInventory (row : Row) (e : InventoryEntry) : Prop where
  reads : Reads py "address_hex" "not_issued_atto" row e.share
  claim : intField py.toPyText row "cutoff_claim_atto" = .ok e.claim
  bounds : 0 ≤ e.amount ∧ e.amount ≤ e.claim

/-- What the inventory loop keeps about the rows it has read. -/
structure InventoryRows (done : List Row) (st : Existing) (entries : List InventoryEntry) :
    Prop where
  rows : st.rows = done
  listed : List.Forall₂ (InInventory py) done entries
  seen : ∀ address, address ∈ st.seen ↔ address ∈ entries.map InventoryEntry.address
  distinct : (entries.map InventoryEntry.address).Nodup
  keys : (st.categories.map Prod.fst).Nodup
  total : total Category.atto st.categories = (entries.map InventoryEntry.amount).sum

theorem inventoryRows_start : InventoryRows py [] {} [] :=
  ⟨rfl, .nil, fun _ => Iff.rfl, List.nodup_nil, List.nodup_nil, rfl⟩

theorem addCategory_total {categories : List (Option String × Category)}
    (h : (categories.map Prod.fst).Nodup) (entry : Option String × Category) :
    ((addCategory categories entry).map Prod.fst).Nodup ∧
      total Category.atto (addCategory categories entry) =
        total Category.atto categories + entry.2.atto :=
  ⟨nodup_update h _ _ _, total_update_add h entry.1 rfl fun _ => rfl⟩

theorem addCategory_foldl {categories : List (Option String × Category)}
    (h : (categories.map Prod.fst).Nodup) (entries : List (Option String × Category)) :
    ((entries.foldl addCategory categories).map Prod.fst).Nodup ∧
      total Category.atto (entries.foldl addCategory categories) =
        total Category.atto categories + total Category.atto entries := by
  induction entries generalizing categories with
  | nil => exact ⟨h, (Int.add_zero _).symm⟩
  | cons entry rest ih =>
    obtain ⟨hkeys, htotal⟩ := addCategory_total h entry
    obtain ⟨hlast, hsum⟩ := ih hkeys
    refine ⟨hlast, ?_⟩
    rw [List.foldl_cons, hsum, htotal, Int.add_assoc]
    rfl

theorem addExisting_ok {py : AuditText} {path : String} {st st' : Existing} {numbered : Row × Nat}
    (h : addExisting py path st numbered = .ok st') : ∃ e category,
      InInventory py numbered.1 e ∧ e.address ∉ st.seen ∧
        st' = ⟨st.rows ++ [numbered.1], e.address :: st.seen,
          addCategory st.categories (category, ⟨1, if 0 < e.amount then 1 else 0, e.amount⟩)⟩ := by
  simp only [addExisting, bind_eq_ok, require_ok] at h
  obtain ⟨address, haddress, -, hnew, amount, hamount, -, hpos, claim, hclaim, -, hle, category, -,
    hst⟩ := h
  cases hst
  exact ⟨⟨address, amount, claim⟩, category, ⟨⟨haddress, hamount⟩, hclaim, hpos, hle⟩, hnew, rfl⟩

theorem InventoryRows.add {py : AuditText} {done : List Row} {st st' : Existing}
    {entries : List InventoryEntry} (h : InventoryRows py done st entries) {path : String}
    {numbered : Row × Nat} (hadd : addExisting py path st numbered = .ok st') :
    ∃ e, InventoryRows py (done ++ [numbered.1]) st' (entries ++ [e]) := by
  obtain ⟨e, category, hrow, hnew, rfl⟩ := addExisting_ok hadd
  obtain ⟨hkeys, htotal⟩ := addCategory_total h.keys
    (category, ⟨1, if 0 < e.amount then 1 else 0, e.amount⟩)
  refine ⟨e, ?_⟩
  constructor
  case rows => rw [h.rows]
  case listed => exact List.rel_append h.listed (.cons hrow .nil)
  case seen =>
    intro address
    simp [h.seen address, or_comm]
  case distinct =>
    rw [List.map_append, List.map_singleton]
    refine List.Nodup.append h.distinct (List.nodup_singleton _) ?_
    intro address hold hother
    rw [List.mem_singleton] at hother
    exact hnew ((h.seen e.address).mpr (hother ▸ hold))
  case keys => exact hkeys
  case total =>
    rw [htotal, h.total]
    simp

theorem loadExisting_ok {py : AuditText} {file : CsvFile} {st : Existing}
    (h : loadExisting py file = .ok st) : ∃ entries, InventoryRows py file.rows st entries := by
  have hall := foldlM_invariant
    (fun done st => ∃ entries, InventoryRows py (done.map Prod.fst) st entries)
    (by
      intro done st numbered st' hinv hadd
      obtain ⟨entries, hentries⟩ := hinv
      obtain ⟨e, hnext⟩ := hentries.add hadd
      rw [List.map_append, List.map_singleton]
      exact ⟨entries ++ [e], hnext⟩)
    [] ⟨[], inventoryRows_start py⟩ h
  rwa [List.nil_append, List.zipIdx_map_fst] at hall

theorem InventoryRows.addFile {py : AuditText} {done : List Row} {st st' : Existing}
    {entries : List InventoryEntry} (h : InventoryRows py done st entries) {file : CsvFile}
    (hadd : addInventory py st file = .ok st') :
    ∃ more, InventoryRows py (done ++ file.rows) st' (entries ++ more) := by
  simp only [addInventory, bind_eq_ok, require_ok] at hadd
  obtain ⟨loaded, hloaded, -, hoverlap, hst⟩ := hadd
  obtain ⟨more, hmore⟩ := loadExisting_ok hloaded
  obtain ⟨hkeys, htotal⟩ := addCategory_foldl h.keys loaded.categories
  cases hst
  refine ⟨more, ?_⟩
  constructor
  case rows => rw [h.rows, hmore.rows]
  case listed => exact List.rel_append h.listed hmore.listed
  case seen =>
    intro address
    rw [List.mem_append, h.seen, hmore.seen, List.map_append, List.mem_append]
  case distinct =>
    rw [List.map_append]
    refine List.Nodup.append h.distinct hmore.distinct ?_
    intro address hold hother
    have hmem : address ∈ loaded.seen.filter (· ∈ st.seen) :=
      List.mem_filter.mpr ⟨(hmore.seen address).mpr hother,
        decide_eq_true ((h.seen address).mpr hold)⟩
    rw [hoverlap] at hmem
    exact List.not_mem_nil hmem
  case keys => exact hkeys
  case total => rw [htotal, h.total, hmore.total, List.map_append, List.sum_append]

theorem loadInventories_ok {py : AuditText} {files : List CsvFile} {st : Existing}
    (h : loadInventories py files = .ok st) :
    ∃ entries, InventoryRows py (allRows files) st entries := by
  refine foldlM_invariant (fun done st => ∃ entries, InventoryRows py (allRows done) st entries) ?_
    [] ⟨[], inventoryRows_start py⟩ h
  intro done st file st' hinv hadd
  obtain ⟨entries, hentries⟩ := hinv
  obtain ⟨more, hnext⟩ := hentries.addFile hadd
  have hrows : allRows (done ++ [file]) = allRows done ++ file.rows := by simp [allRows]
  rw [hrows]
  exact ⟨entries ++ more, hnext⟩

/-! ## Retained balances -/

structure RetainedEntry where
  address : String
  retained : Int
  balance : Int

def RetainedEntry.share (e : RetainedEntry) : String × Int := (e.address, e.retained)

/-- What a written row says. -/
structure Written (row : Row) (e : RetainedEntry) : Prop where
  address : row.lookup "address_hex" = some (some e.address)
  cap : row.lookup "retained_cap_atto" = some (some (toString e.retained))

/-- What a row of the balances says. -/
structure FromBalance (row : Row) (e : RetainedEntry) : Prop where
  address : lowerField py.toPyText row "address" = .ok e.address
  balance : intField py.toPyText row "cutoff_balance_atto" = .ok e.balance
  cap : intField py.toPyText row "rpc_retained_cap_atto" = .ok e.retained
  bounded : e.retained ≤ e.balance

/-- What the loop keeps about the balances it has read; only positive caps are
written. -/
structure RetainedRows (done : List Row) (st : Retained) (balances caps : List RetainedEntry) :
    Prop where
  listed : List.Forall₂ (FromBalance py) done balances
  positive : caps = balances.filter fun e => 0 < e.retained
  written : List.Forall₂ Written st.rows caps
  seen : ∀ e ∈ balances, e.address ∈ st.seen
  distinct : (balances.map RetainedEntry.address).Nodup
  keys : (st.byIncident.map Prod.fst).Nodup
  total : total Incident.retainedCapAtto st.byIncident = (caps.map RetainedEntry.retained).sum

theorem RetainedRows.caps_distinct {py : AuditText} {done : List Row} {st : Retained}
    {balances caps : List RetainedEntry} (h : RetainedRows py done st balances caps) :
    (caps.map RetainedEntry.address).Nodup := by
  rw [h.positive]
  exact h.distinct.sublist (List.filter_sublist.map _)

theorem RetainedRows.origin {py : AuditText} {done : List Row} {st : Retained}
    {balances caps : List RetainedEntry} (h : RetainedRows py done st balances caps)
    {e : RetainedEntry} (he : e ∈ caps) : 0 < e.retained ∧ ∃ row ∈ done, FromBalance py row e := by
  rw [h.positive, List.mem_filter] at he
  exact ⟨of_decide_eq_true he.2, forall₂_exists_right h.listed he.1⟩

theorem retainedRows_ok {row : Row} {e : RetainedEntry} {incident : Option String} {initial : Int}
    {evidence : String} {written : List Row}
    (h : retainedRows row e.address incident initial e.balance e.retained evidence = .ok written) :
    List.Forall₂ Written written ([e].filter fun e => 0 < e.retained) := by
  rw [retainedRows] at h
  split at h
  · rename_i hpos
    rw [List.filter_cons_of_pos (by simpa using hpos), List.filter_nil]
    simp only [bind_eq_ok, retainedRow] at h
    obtain ⟨bech32, -, line, ⟨cutoffBlock, -, verificationBlock, -, hline⟩, hwritten⟩ := h
    cases hwritten
    cases hline
    exact .cons ⟨rfl, rfl⟩ .nil
  · rename_i hpos
    rw [List.filter_cons_of_neg (by simpa using hpos), List.filter_nil]
    cases h
    exact .nil

theorem incident_total {byIncident : List (Option String × Incident)}
    (h : (byIncident.map Prod.fst).Nodup) (incident : Option String) (e : RetainedEntry) :
    total Incident.retainedCapAtto
        (update byIncident incident {} fun summary => summary.add e.retained) =
      total Incident.retainedCapAtto byIncident +
        (([e].filter fun e => 0 < e.retained).map RetainedEntry.retained).sum := by
  refine total_update_add h incident rfl ?_
  intro summary
  rw [Incident.add]
  split
  · rename_i hpos
    rw [List.filter_cons_of_pos (by simpa using hpos)]
    simp
  · rename_i hpos
    rw [List.filter_cons_of_neg (by simpa using hpos)]
    simp

theorem addRetained_ok {py : AuditText} {file : RetainedFile} {st st' : Retained}
    {numbered : Row × Nat} (h : addRetained py file st numbered = .ok st') :
    ∃ e incident block written, FromBalance py numbered.1 e ∧ e.address ∉ st.seen ∧
      List.Forall₂ Written written ([e].filter fun e => 0 < e.retained) ∧
      st' = ⟨st.rows ++ written, e.address :: st.seen,
        update st.byIncident incident {} fun summary => summary.add e.retained,
        update st.blocks block 0 fun count => count + 1⟩ := by
  simp only [addRetained, bind_eq_ok, require_ok] at h
  obtain ⟨address, haddress, -, hnew, incident, -, initial, -, balance, hbalance, rpcBalance, -,
    retained, hretained, -, hcap, -, hunchanged, -, -, -, -, -, -, -, -, evidence, -, block, -,
    written, hwritten, hst⟩ := h
  cases hst
  have hle : retained ≤ balance := by
    rw [hcap, hunchanged]
    exact min_le_right initial rpcBalance
  exact ⟨⟨address, retained, balance⟩, incident, block, written,
    ⟨haddress, hbalance, hretained, hle⟩, hnew, retainedRows_ok hwritten, rfl⟩

theorem RetainedRows.add {py : AuditText} {done : List Row} {st st' : Retained}
    {balances caps : List RetainedEntry} (h : RetainedRows py done st balances caps)
    {file : RetainedFile} {numbered : Row × Nat}
    (hadd : addRetained py file st numbered = .ok st') : ∃ e,
      RetainedRows py (done ++ [numbered.1]) st' (balances ++ [e])
        (caps ++ [e].filter fun e => 0 < e.retained) := by
  obtain ⟨e, incident, block, written, hrow, hnew, hwritten, rfl⟩ := addRetained_ok hadd
  refine ⟨e, ?_⟩
  constructor
  case listed => exact List.rel_append h.listed (.cons hrow .nil)
  case positive => rw [h.positive, List.filter_append]
  case written => exact List.rel_append h.written hwritten
  case seen =>
    intro old hold
    rcases List.mem_append.mp hold with hold | hold
    · exact List.mem_cons_of_mem _ (h.seen old hold)
    · rw [List.mem_singleton.mp hold]
      exact List.mem_cons_self
  case distinct =>
    rw [List.map_append, List.map_singleton]
    refine List.Nodup.append h.distinct (List.nodup_singleton _) ?_
    intro address hold hother
    rw [List.mem_singleton] at hother
    obtain ⟨old, hmem, rfl⟩ := List.mem_map.mp hold
    exact hnew (hother ▸ h.seen old hmem)
  case keys => exact nodup_update h.keys incident {} fun summary => summary.add e.retained
  case total => rw [incident_total h.keys incident e, h.total, List.map_append, List.sum_append]

theorem loadRetained_ok {py : AuditText} {file : RetainedFile} {st : Retained} {block : Int}
    (h : loadRetained py file = .ok (st, block)) :
    ∃ balances caps, RetainedRows py file.rows st balances caps := by
  obtain ⟨last, hlast, hblock⟩ := bind_eq_ok.mp h
  have hsame : last = st := by
    split at hblock
    · cases hblock
      rfl
    · cases hblock
  subst hsame
  have hstart : RetainedRows py [] {} [] [] :=
    ⟨.nil, rfl, .nil, fun _ he => absurd he List.not_mem_nil, List.nodup_nil, List.nodup_nil, rfl⟩
  have hall := foldlM_invariant
    (fun done st => ∃ balances caps, RetainedRows py (done.map Prod.fst) st balances caps)
    (by
      intro done st numbered st' hinv hadd
      obtain ⟨balances, caps, hcaps⟩ := hinv
      obtain ⟨e, hnext⟩ := hcaps.add hadd
      rw [List.map_append, List.map_singleton]
      exact ⟨_, _, hnext⟩)
    [] ⟨[], [], hstart⟩ hlast
  rwa [List.nil_append, List.zipIdx_map_fst] at hall

/-! ## Both lists -/

/-- What the loaded lists hold. -/
structure LoadedRows (inventories : List CsvFile) (balances : RetainedFile) (loaded : Loaded)
    (listed : List InventoryEntry) (held caps : List RetainedEntry) : Prop where
  existing : InventoryRows py (allRows inventories) loaded.existing listed
  retained : RetainedRows py balances.rows loaded.retained held caps
  disjoint : ∀ e ∈ listed, ∀ c ∈ caps, e.address ≠ c.address

theorem load_ok {py : AuditText} {inventories : List CsvFile} {balances : RetainedFile}
    {loaded : Loaded} (h : load py inventories balances = .ok loaded) :
    ∃ listed held caps, LoadedRows py inventories balances loaded listed held caps := by
  simp only [load, bind_eq_ok, require_ok] at h
  obtain ⟨existing, hexisting, ⟨retained, block⟩, hretained, -, hoverlap, hloaded⟩ := h
  cases hloaded
  obtain ⟨listed, hlisted⟩ := loadInventories_ok hexisting
  obtain ⟨held, caps, hcaps⟩ := loadRetained_ok hretained
  refine ⟨listed, held, caps, hlisted, hcaps, ?_⟩
  intro e he c hc heq
  obtain ⟨row, hrow, hwritten⟩ := forall₂_exists_right hcaps.written hc
  have hmem : e.address ∈ existing.seen.filter fun address =>
      some address ∈ addresses retained.rows := by
    refine List.mem_filter.mpr ⟨(hlisted.seen _).mpr (List.mem_map_of_mem he), ?_⟩
    refine decide_eq_true (List.mem_map.mpr ⟨row, hrow, ?_⟩)
    rw [hwritten.address, heq]
    rfl
  rw [hoverlap] at hmem
  exact List.not_mem_nil hmem

end NonIssuanceRows
