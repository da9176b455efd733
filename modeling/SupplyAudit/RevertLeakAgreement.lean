import SupplyAudit.NonIssuanceRows

/-!
# The withheld list and its second check

The non-issuance audit checks again what the retention script withheld. Both
compute the earlier non-issuance of an address, one by adding up files and one
from dictionaries; the loaders make sure that they find the same.
-/

namespace RevertLeakAgreement

open ScriptValues FallibleScan KeyedTable KeyedSums TraceInspection AuditFiles NonIssuanceAudit
  NonIssuanceTotals NonIssuanceRows RevertLeakRetention

variable (py : AuditText)

/-! ## Credit -/

/-- Credited addresses are lower-case and their credit is positive. -/
structure CreditTable (leaks : Leaks) : Prop where
  keys : (leaks.credit.map Prod.fst).Nodup
  entries : ∀ entry ∈ leaks.credit, 0 < entry.2 ∧ py.lower entry.1 = entry.1

theorem CreditTable.credited {py : AuditText} {leaks : Leaks} (h : CreditTable py leaks)
    (key : LeakKey) {address : String} {amount : Int} (incident : Option String)
    (haddress : py.lower address = address) (hamount : 0 < amount) :
    CreditTable py (leaks.credited key address amount incident) := by
  constructor
  case keys => exact nodup_update h.keys address 0 fun value => value + amount
  case entries =>
    refine forall_set h.entries ⟨?_, haddress⟩
    change 0 < (leaks.credit.lookup address).getD 0 + amount
    cases hold : leaks.credit.lookup address with
    | none => rwa [Option.getD_none, Int.zero_add]
    | some value =>
      have hpos := (h.entries _ (mem_of_lookup hold)).1
      rw [Option.getD_some]
      exact Int.add_pos hpos hamount

theorem loadLeaks_credit {py : AuditText} {incidentByTx : IncidentTable} {files : List CsvFile}
    {leaks : Leaks} (h : loadLeaks py.toPyText incidentByTx files = .ok leaks) :
    CreditTable py leaks := by
  rw [loadLeaks, foldlM_files fun file => addLeak py.toPyText incidentByTx file.path] at h
  have hstart : CreditTable py {} := ⟨List.nodup_nil, fun _ he => absurd he List.not_mem_nil⟩
  refine foldlM_invariant (fun _ leaks => CreditTable py leaks) ?_ [] hstart h
  intro _ st place st' hst hadd
  simp only [addLeak] at hadd
  split at hadd
  · obtain ⟨key, -, hadd⟩ := bind_eq_ok.mp hadd
    split at hadd
    · cases hadd
      exact hst
    · simp only [bind_eq_ok, require_ok] at hadd
      obtain ⟨address, haddress, amount, -, -, hpos, hst'⟩ := hadd
      obtain ⟨value, -, rfl⟩ := lowerField_ok.mp haddress
      cases hst'
      exact hst.credited key _ (py.lower_lower value) hpos
  · cases hadd
    exact hst

/-! ## Earlier non-issuance -/

theorem foldlM_addPrior {py : AuditText} {field : String} {rows : List Row}
    {entries : List (String × Int)}
    (hrows : List.Forall₂ (Reads py "address_hex" field) rows entries)
    {amounts amounts' : List (String × Int)}
    (h : rows.foldlM (addPrior py.toPyText field) amounts = .ok amounts')
    (hkeys : (amounts.map Prod.fst).Nodup) :
    (amounts'.map Prod.fst).Nodup ∧ ∀ address,
      (amounts'.lookup address).getD 0 = (amounts.lookup address).getD 0 + sumAt entries address := by
  induction hrows generalizing amounts with
  | nil =>
    cases h
    exact ⟨hkeys, fun _ => (Int.add_zero _).symm⟩
  | @cons row e rows entries hrow _ ih =>
    have hstep : addPrior py.toPyText field amounts row = .ok (addAmount amounts e.1 e.2) := by
      rw [addPrior, hrow.1, hrow.2]
      rfl
    rw [List.foldlM_cons, hstep, bind_ok] at h
    obtain ⟨hlast, hsum⟩ := ih h (nodup_update hkeys e.1 0 fun value => value + e.2)
    refine ⟨hlast, ?_⟩
    intro address
    rw [hsum, lookup_addAmount, sumAt_cons, Int.add_assoc]

theorem foldl_addAmount (entries : List (String × Int)) (amounts : List (String × Int))
    (address : String) :
    ((entries.foldl (fun prior entry => addAmount prior entry.1 entry.2) amounts).lookup
        address).getD 0 = (amounts.lookup address).getD 0 + sumAt entries address := by
  induction entries generalizing amounts with
  | nil => exact (Int.add_zero _).symm
  | cons e entries ih =>
    rw [List.foldl_cons, ih, lookup_addAmount, sumAt_cons, Int.add_assoc]

/-- The prior amounts add up what both kinds of files list. -/
theorem loadPriors_ok {py : AuditText} {args : Args} {prior : List (String × Int)}
    {retained inventories : List (String × Int)}
    (hretained : List.Forall₂ (Reads py "address_hex" "retained_cap_atto")
      (allRows args.priorRetention) retained)
    (hinventories : List.Forall₂ (Reads py "address_hex" "not_issued_atto")
      (allRows args.priorNonIssuance) inventories)
    (h : loadPriors py.toPyText args = .ok prior) (address : String) :
    (prior.lookup address).getD 0 = sumAt retained address + sumAt inventories address := by
  obtain ⟨first, hfirst, h⟩ := bind_eq_ok.mp h
  obtain ⟨second, hsecond, h⟩ := bind_eq_ok.mp h
  cases h
  obtain ⟨-, hsum⟩ := foldlM_addPrior hretained hfirst List.nodup_nil
  obtain ⟨hkeys, hsum'⟩ := foldlM_addPrior hinventories hsecond List.nodup_nil
  rw [foldl_addAmount, ← lookup_eq_sumAt hkeys, hsum, hsum']
  simp

/-! ## The dictionaries -/

/-- A loop that sets new keys only lists its entries. -/
theorem foldlM_set {R : Row → String × Int → Prop}
    {step : List (String × Int) → Row → Except AuditError (List (String × Int))}
    (hstep : ∀ table row e, R row e → step table row = .ok (set table e.1 e.2)) {rows : List Row}
    {entries : List (String × Int)} (hrows : List.Forall₂ R rows entries)
    {table : List (String × Int)} (h : ((table ++ entries).map Prod.fst).Nodup) :
    rows.foldlM step table = .ok (table ++ entries) := by
  induction hrows generalizing table with
  | nil => rw [List.append_nil]; rfl
  | @cons row e rows entries hrow _ ih =>
    have hsplit : table ++ e :: entries = (table ++ [e]) ++ entries := by simp
    have hnew : e.1 ∉ table.map Prod.fst := by
      rw [List.map_append, List.nodup_append] at h
      intro hmem
      exact h.2.2 e.1 hmem e.1 List.mem_cons_self rfl
    rw [List.foldlM_cons, hstep table row e hrow, bind_ok, set_of_not_mem hnew, hsplit]
    rw [hsplit] at h
    exact ih h

/-- The amounts of the inventories and of the caps. -/
def inventoryShares (listed : List InventoryEntry) : List (String × Int) :=
  listed.map InventoryEntry.share

def capShares (caps : List RetainedEntry) : List (String × Int) := caps.map RetainedEntry.share

theorem inventoryShares_keys (listed : List InventoryEntry) :
    (inventoryShares listed).map Prod.fst = listed.map InventoryEntry.address := List.map_map ..

theorem capShares_keys (caps : List RetainedEntry) :
    (capShares caps).map Prod.fst = caps.map RetainedEntry.address := List.map_map ..

theorem capShares_nodup {py : AuditText} {rows : List Row} {st : Retained}
    {held caps : List RetainedEntry} (h : RetainedRows py rows st held caps) :
    ((capShares caps).map Prod.fst).Nodup := capShares_keys caps ▸ h.caps_distinct

theorem inventoryShares_nodup {py : AuditText} {rows : List Row} {st : Existing}
    {listed : List InventoryEntry} (h : InventoryRows py rows st listed) :
    ((inventoryShares listed).map Prod.fst).Nodup := inventoryShares_keys listed ▸ h.distinct

theorem written_cap {row : Row} {e : RetainedEntry} (h : Written row e) (py : AuditText) :
    intField py.toPyText row "retained_cap_atto" = .ok e.retained :=
  intField_ok.mpr ⟨toString e.retained, h.cap, py.int_toString e.retained⟩

theorem retainedCaps_eq {py : AuditText} {rows : List Row} {st : Retained}
    {held caps : List RetainedEntry} (h : RetainedRows py rows st held caps) :
    retainedCaps py st.rows = .ok (capShares caps) := by
  have hstep : ∀ (table : List (String × Int)) (row : Row) (e : String × Int),
      (∃ c : RetainedEntry, c.share = e ∧ Written row c) →
        addCap py table row = .ok (set table e.1 e.2) := by
    rintro table row e ⟨c, rfl, hc⟩
    rw [addCap, Row.get, hc.address, written_cap hc py]
    rfl
  have hrows : List.Forall₂ (fun row e => ∃ c : RetainedEntry, c.share = e ∧ Written row c)
      st.rows (capShares caps) := by
    rw [capShares, List.forall₂_map_right_iff]
    exact h.written.imp fun row c hc => ⟨c, rfl, hc⟩
  exact foldlM_set hstep hrows (capShares_nodup h)

theorem inventory_reads {py : AuditText} {rows : List Row} {st : Existing}
    {listed : List InventoryEntry} (h : InventoryRows py rows st listed) :
    List.Forall₂ (Reads py "address_hex" "not_issued_atto") rows (inventoryShares listed) := by
  rw [inventoryShares, List.forall₂_map_right_iff]
  exact h.listed.imp fun row e he => he.reads

theorem existingAmounts_eq {py : AuditText} {rows : List Row} {st : Existing}
    {listed : List InventoryEntry} (h : InventoryRows py rows st listed) :
    existingAmounts py st.rows = .ok (inventoryShares listed) := by
  have hstep : ∀ (table : List (String × Int)) (row : Row) (e : String × Int),
      Reads py "address_hex" "not_issued_atto" row e →
        addAmountOf py table row = .ok (set table e.1 e.2) := by
    intro table row e he
    rw [addAmountOf, he.1, he.2]
    rfl
  rw [h.rows]
  exact foldlM_set hstep (inventory_reads h) (inventoryShares_nodup h)

/-- What the dictionaries know about an address is what the lists say. -/
theorem priorAt_eq {py : AuditText} {inventories : List CsvFile} {balances : RetainedFile}
    {loaded : Loaded} {listed : List InventoryEntry} {held caps : List RetainedEntry}
    (h : LoadedRows py inventories balances loaded listed held caps) (address : String) :
    priorAt (capShares caps) (inventoryShares listed) address =
      sumAt (capShares caps) address + sumAt (inventoryShares listed) address := by
  rw [priorAt, lookup_eq_sumAt (capShares_nodup h.retained),
    lookup_eq_sumAt (inventoryShares_nodup h.existing)]

/-- Rows that are read again give the caps that were written. -/
theorem retained_reads {py : AuditText} {rows : List Row} {st : Retained}
    {held caps : List RetainedEntry} (h : RetainedRows py rows st held caps) {again : List Row}
    (hagain : again.Perm (st.rows.map readBack)) : ∃ entries,
      List.Forall₂ (Reads py "address_hex" "retained_cap_atto") again entries ∧
        entries.Perm (capShares caps) := by
  have hlower : ∀ c ∈ caps, (py.lower c.address, c.retained) = c.share := by
    intro c hc
    obtain ⟨-, row, -, horigin⟩ := h.origin hc
    obtain ⟨value, -, hvalue⟩ := lowerField_ok.mp horigin.address
    rw [← hvalue, py.lower_lower value, hvalue]
    rfl
  have hwritten : List.Forall₂ (Reads py "address_hex" "retained_cap_atto")
      (st.rows.map readBack) (caps.map fun c => (py.lower c.address, c.retained)) := by
    rw [List.forall₂_map_left_iff, List.forall₂_map_right_iff]
    refine h.written.imp fun row c hc => ⟨?_, ?_⟩
    · exact lowerField_ok.mpr ⟨c.address, lookup_readBack hc.address, rfl⟩
    · exact intField_ok.mpr ⟨_, lookup_readBack hc.cap, py.int_toString c.retained⟩
  rw [List.map_congr_left hlower] at hwritten
  exact List.perm_comp_forall₂ hagain hwritten

/-! ## The withheld rows -/

/-- A credited address with its joined incident labels. -/
structure Judged where
  address : String
  incident : String

def withheldShares (t : Tables) (judged : List Judged) : List (String × Int) :=
  judged.map fun j => (j.incident, t.withheld j.address)

/-- A row of the written file is about an address. -/
def RowOf (t : Tables) (row : Row) (j : Judged) : Prop :=
  ∃ bech32, row = t.row j.address bech32 j.incident

/-- What the loop over credited addresses keeps. -/
structure RecipientRows (t : Tables) (done : List String) (st : Recipients)
    (judged : List Judged) : Prop where
  addresses : judged.map Judged.address = done
  rows : List.Forall₂ (RowOf t) st.rows (judged.filter fun j => t.withheld j.address ≠ 0)
  keys : (st.byIncident.map Prod.fst).Nodup
  notIssued : ∀ incident, shareAt IncidentCredit.notIssuedAtto st.byIncident incident =
    sumAt (withheldShares t judged) incident

theorem rows_ok {t : Tables} {address incident : String} {written : List Row}
    (h : t.rows address incident = .ok written) :
    List.Forall₂ (RowOf t) written
      ([Judged.mk address incident].filter fun j => t.withheld j.address ≠ 0) := by
  rw [Tables.rows] at h
  split at h
  · rename_i hzero
    cases h
    rw [List.filter_cons_of_neg (by simpa using hzero), List.filter_nil]
    exact .nil
  · rename_i hne
    obtain ⟨bech32, -, hwritten⟩ := bind_eq_ok.mp h
    cases hwritten
    rw [List.filter_cons_of_pos (by simpa using hne), List.filter_nil]
    exact .cons ⟨bech32, rfl⟩ .nil

theorem RecipientRows.add {t : Tables} {done : List String} {st st' : Recipients}
    {judged : List Judged} (h : RecipientRows t done st judged) {address : String}
    (hadd : t.addRecipient st address = .ok st') :
    ∃ j, RecipientRows t (done ++ [address]) st' (judged ++ [j]) := by
  simp only [Tables.addRecipient, bind_eq_ok] at hadd
  obtain ⟨incident, -, written, hwritten, hst⟩ := hadd
  cases hst
  refine ⟨⟨address, incident⟩, ?_⟩
  constructor
  case addresses => rw [List.map_append, h.addresses]; rfl
  case rows =>
    rw [List.filter_append]
    exact List.rel_append h.rows (rows_ok hwritten)
  case keys =>
    exact nodup_update h.keys incident {} fun stats =>
      stats.add (t.creditAt address) (t.withheld address)
  case notIssued =>
    intro name
    have hshare : shareAt IncidentCredit.notIssuedAtto (update st.byIncident incident {} fun stats =>
        stats.add (t.creditAt address) (t.withheld address)) name =
          shareAt IncidentCredit.notIssuedAtto st.byIncident name +
            if name = incident then t.withheld address else 0 :=
      shareAt_update st.byIncident incident rfl (fun _ => rfl) name
    rw [hshare, h.notIssued, withheldShares, withheldShares, List.map_append, sumAt_append,
      List.map_singleton, sumAt_cons, sumAt_nil, Int.add_zero]

theorem recipients_ok {t : Tables} {st : Recipients} (h : t.recipients = .ok st) :
    ∃ judged, RecipientRows t
      ((t.leaks.credit.map Prod.fst).insertionSort fun a b => a ≤ b) st judged := by
  have hstart : RecipientRows t [] {} [] := ⟨rfl, .nil, List.nodup_nil, fun _ => rfl⟩
  refine foldlM_invariant (fun done st => ∃ judged, RecipientRows t done st judged) ?_ []
    ⟨[], hstart⟩ h
  intro done st address st' hinv hadd
  obtain ⟨judged, hjudged⟩ := hinv
  obtain ⟨j, hnext⟩ := hjudged.add hadd
  exact ⟨judged ++ [j], hnext⟩

/-! ## The second check -/

/-- What the checking loop keeps about the rows it has accepted. -/
structure Accepted (t : Tables) (judged : List Judged) (leak : RevertLeak) : Prop where
  seen : leak.seen = (judged.map Judged.address).reverse
  keys : (leak.byIncident.map Prod.fst).Nodup
  total : leak.total = (judged.map fun j => t.withheld j.address).sum
  notIssued : ∀ incident : String,
    shareAt LeakIncident.notIssuedAtto leak.byIncident (some incident) =
      sumAt (withheldShares t judged) incident

/-- A written row passes every check of its second reading. -/
theorem Accepted.add {py : AuditText} {t : Tables} {judged : List Judged} {leak : RevertLeak}
    (h : Accepted t judged leak) {caps amounts : List (String × Int)} (path : String)
    {numbered : Row × Nat} {j : Judged} (hrow : RowOf t numbered.1 j)
    (hnew : j.address ∉ judged.map Judged.address) (hlower : py.lower j.address = j.address)
    (hpos : 0 < t.withheld j.address)
    (hprior : t.priorAt j.address = priorAt caps amounts j.address) :
    ∃ leak', addRevertLeak py caps amounts path leak numbered = .ok leak' ∧
      Accepted t (judged ++ [j]) leak' := by
  obtain ⟨bech32, hrow⟩ := hrow
  have hnumber : ∀ (field : String) (amount : Int),
      numbered.1.lookup field = some (some (toString amount)) →
        intField py.toPyText numbered.1 field = .ok amount :=
    fun field amount hlookup => intField_ok.mpr ⟨_, hlookup, py.int_toString amount⟩
  have haddress : lowerField py.toPyText numbered.1 "address_hex" = .ok j.address :=
    lowerField_ok.mpr ⟨j.address, by rw [hrow]; rfl, hlower⟩
  have hquoted := hnumber "prior_non_issuance_atto" (t.priorAt j.address) (by rw [hrow]; rfl)
  have hwithheld := hnumber "retained_cap_atto" (t.withheld j.address) (by rw [hrow]; rfl)
  have hcredit := hnumber "unbacked_credit_atto" (t.creditAt j.address) (by rw [hrow]; rfl)
  have hclaim := hnumber "cutoff_native_claim_atto" (t.claimAt j.address) (by rw [hrow]; rfl)
  have htreatment : numbered.1.get "migration_treatment" = .ok (some "not_issued") := by
    rw [hrow]; rfl
  have hincident : numbered.1.get "incident" = .ok (some j.incident) := by rw [hrow]; rfl
  have hunseen : j.address ∉ leak.seen := by
    rw [h.seen, List.mem_reverse]
    exact hnew
  have hrule : t.withheld j.address = min (t.creditAt j.address)
      (max (t.claimAt j.address - priorAt caps amounts j.address) 0) ∧
        0 < t.withheld j.address := by
    rw [← hprior]
    exact ⟨rfl, hpos⟩
  simp only [addRevertLeak, haddress, bind_ok, require_of hunseen, hquoted, require_of hprior,
    hwithheld, hcredit, hclaim, require_of hrule, htreatment, raisePython, require_of, hincident]
  refine ⟨_, rfl, ?_⟩
  constructor
  case seen => simp [h.seen]
  case keys =>
    exact nodup_update h.keys (some j.incident) {} fun values =>
      values.add (t.creditAt j.address) (t.withheld j.address)
  case total =>
    have htotal : KeyedTable.total LeakIncident.notIssuedAtto
        (update leak.byIncident (some j.incident) {} fun values =>
          values.add (t.creditAt j.address) (t.withheld j.address)) =
        leak.total + t.withheld j.address :=
      total_update_add h.keys (some j.incident) rfl fun _ => rfl
    rw [List.map_append, List.sum_append, ← h.total]
    exact htotal.trans (by simp)
  case notIssued =>
    intro name
    have hshare : shareAt LeakIncident.notIssuedAtto
        (update leak.byIncident (some j.incident) {} fun values =>
          values.add (t.creditAt j.address) (t.withheld j.address)) (some name) =
        shareAt LeakIncident.notIssuedAtto leak.byIncident (some name) +
          if some name = some j.incident then t.withheld j.address else 0 :=
      shareAt_update leak.byIncident (some j.incident) rfl (fun _ => rfl) (some name)
    refine hshare.trans ?_
    rw [h.notIssued, withheldShares, withheldShares, List.map_append, sumAt_append,
      List.map_singleton, sumAt_cons, sumAt_nil, Int.add_zero]
    simp only [Option.some.injEq]

/-- All written rows pass, in the order in which they were written. -/
theorem Accepted.rows {py : AuditText} {t : Tables} {caps amounts : List (String × Int)}
    (path : String) {numbered : List (Row × Nat)} {judged : List Judged}
    (hrows : List.Forall₂ (fun numbered j => RowOf t numbered.1 j) numbered judged)
    (hjudged : ∀ j ∈ judged, py.lower j.address = j.address ∧ 0 < t.withheld j.address ∧
      t.priorAt j.address = priorAt caps amounts j.address)
    {before : List Judged} {leak : RevertLeak} (h : Accepted t before leak)
    (hdistinct : ((before ++ judged).map Judged.address).Nodup) :
    ∃ leak', numbered.foldlM (addRevertLeak py caps amounts path) leak = .ok leak' ∧
      Accepted t (before ++ judged) leak' := by
  induction hrows generalizing before leak with
  | nil => exact ⟨leak, rfl, by rwa [List.append_nil]⟩
  | @cons numbered j rest judged hrow _ ih =>
    have hnew : j.address ∉ before.map Judged.address := by
      rw [List.map_append, List.nodup_append] at hdistinct
      intro hmem
      exact hdistinct.2.2 _ hmem _ List.mem_cons_self rfl
    obtain ⟨hlower, hpos, hprior⟩ := hjudged j List.mem_cons_self
    obtain ⟨next, hnext, haccepted⟩ := h.add path hrow hnew hlower hpos hprior
    have hsplit : before ++ j :: judged = (before ++ [j]) ++ judged := by simp
    rw [hsplit] at hdistinct ⊢
    obtain ⟨last, hlast, hfinal⟩ :=
      ih (fun j' hj' => hjudged j' (List.mem_cons_of_mem j hj')) haccepted hdistinct
    rw [List.foldlM_cons, hnext, bind_ok]
    exact ⟨last, hlast, hfinal⟩

/-! ## Agreement -/

theorem withheld_pos {py : AuditText} {t : Tables} (h : CreditTable py t.leaks) {address : String}
    (hmem : address ∈ t.leaks.credit.map Prod.fst) (hne : t.withheld address ≠ 0) :
    py.lower address = address ∧ 0 < t.withheld address := by
  obtain ⟨entry, hentry, rfl⟩ := List.mem_map.mp hmem
  obtain ⟨hpos, hlower⟩ := h.entries entry hentry
  have hcredit : t.creditAt entry.1 = entry.2 := by
    rw [Tables.creditAt, lookup_of_mem h.keys hentry, Option.getD_some]
  refine ⟨hlower, ?_⟩
  rw [Tables.withheld, hcredit] at hne ⊢
  omega

theorem sumAt_filter (t : Tables) (judged : List Judged) (incident : String) :
    sumAt (withheldShares t (judged.filter fun j => t.withheld j.address ≠ 0)) incident =
      sumAt (withheldShares t judged) incident := by
  rw [sumAt, sumAt, withheldShares, withheldShares, List.map_map, List.map_map]
  refine sum_map_filter ?_
  intro j _ hzero
  have hwithheld : t.withheld j.address = 0 := by simpa using hzero
  simp [hwithheld]

theorem withheld_sum {py : AuditText} {t : Tables} {rows : List Row} {judged : List Judged}
    (hrows : List.Forall₂ (RowOf t) rows judged) {withheld : List Int}
    (h : rows.mapM (fun row => intField py.toPyText row "retained_cap_atto") = .ok withheld) :
    withheld = judged.map fun j => t.withheld j.address := by
  have hread : rows.mapM (fun row => intField py.toPyText row "retained_cap_atto") =
      .ok (judged.map fun j => t.withheld j.address) := by
    rw [mapM_ok_iff, List.forall₂_map_right_iff]
    refine hrows.imp fun row j hrow => ?_
    obtain ⟨bech32, rfl⟩ := hrow
    exact intField_ok.mpr ⟨_, rfl, py.int_toString _⟩
  rw [h, Except.ok.injEq] at hread
  exact hread

/-- The audit accepts what the retention script writes from the audit's own
lists, with the same total, rows and sums by incident. -/
theorem revert_leak_accepted (sha256 : List Row → String) {args : Args} {balances : RetainedFile}
    {loaded : Loaded} {out : Output} (summaryPath : String)
    (hload : load py args.priorNonIssuance balances = .ok loaded)
    (hretained : (allRows args.priorRetention).Perm (loaded.retained.rows.map readBack))
    (hmain : RevertLeakRetention.main py.toPyText sha256 args = .ok out) :
    ∃ leak, loadLeakInput py sha256 loaded (some ⟨out.csv, some out.summary, summaryPath⟩) =
        .ok (some leak) ∧
      toString leak.total = out.summary.notIssuedAtto ∧
      leak.seen.length = out.summary.positiveRows ∧
      ∀ incident : String, shareAt LeakIncident.notIssuedAtto leak.byIncident (some incident) =
        shareAt IncidentCredit.notIssuedAtto out.summary.byIncident incident := by
  obtain ⟨listed, held, caps, hrows⟩ := load_ok hload
  simp only [RevertLeakRetention.main, bind_eq_ok] at hmain
  obtain ⟨t, htables, recipients, hrecipients, -, -, withheld, hwithheld, -, -, hout⟩ := hmain
  simp only [loadTables, bind_eq_ok] at htables
  obtain ⟨incidentByTx, -, leaks, hleaks, prior, hprior, claims, -, ht⟩ := htables
  have hcredit : CreditTable py t.leaks := by
    cases ht
    exact loadLeaks_credit hleaks
  obtain ⟨entries, hentries, hperm⟩ := retained_reads hrows.retained hretained
  have hpriorAt : ∀ address,
      t.priorAt address = priorAt (capShares caps) (inventoryShares listed) address := by
    intro address
    cases ht
    rw [priorAt_eq hrows, ← sumAt_perm hperm]
    exact loadPriors_ok hentries (inventory_reads hrows.existing) hprior address
  obtain ⟨judged, hjudged⟩ := recipients_ok hrecipients
  have hkeys : (judged.map Judged.address).Perm (t.leaks.credit.map Prod.fst) := by
    rw [hjudged.addresses]
    exact List.perm_insertionSort _ _
  let written := judged.filter fun j => t.withheld j.address ≠ 0
  have hpositive : ∀ j ∈ written, py.lower j.address = j.address ∧ 0 < t.withheld j.address ∧
        t.priorAt j.address = priorAt (capShares caps) (inventoryShares listed) j.address := by
    intro j hj
    obtain ⟨hmem, hne⟩ := List.mem_filter.mp hj
    have haddress := hkeys.mem_iff.mp (List.mem_map_of_mem hmem)
    obtain ⟨hlower, hpos⟩ := withheld_pos hcredit haddress (by simpa using hne)
    exact ⟨hlower, hpos, hpriorAt j.address⟩
  have hdistinct : (([] ++ written).map Judged.address).Nodup := by
    rw [List.nil_append]
    exact (hkeys.symm.nodup hcredit.keys).sublist (List.filter_sublist.map _)
  have hstart : Accepted t [] {} := ⟨rfl, List.nodup_nil, rfl, fun _ => rfl⟩
  have hrowOf : List.Forall₂ (RowOf t) recipients.rows written := hjudged.rows
  have hnumbered : List.Forall₂ (fun numbered j => RowOf t numbered.1 j)
      recipients.rows.zipIdx written := by
    rwa [← List.zipIdx_map_fst 0 recipients.rows, List.forall₂_map_left_iff] at hrowOf
  obtain ⟨leak, hleak, haccepted⟩ :=
    Accepted.rows args.outputCsv.path hnumbered hpositive hstart hdistinct
  rw [List.nil_append] at haccepted
  have htotal : leak.total = withheld.sum := by
    rw [haccepted.total, withheld_sum hrowOf hwithheld]
  have hlength : leak.seen.length = recipients.rows.length := by
    rw [haccepted.seen, List.length_reverse, List.length_map, hrowOf.length_eq]
  cases hout
  refine ⟨leak, ?_, congrArg toString htotal, hlength, ?_⟩
  · have haccept : toString leak.total = toString withheld.sum ∧
        leak.seen.length = recipients.rows.length := ⟨congrArg toString htotal, hlength⟩
    simp only [loadLeakInput, retainedCaps_eq hrows.retained, existingAmounts_eq hrows.existing,
      bind_ok, loadRevertLeak, hleak, require_of, haccept, and_self]
  · intro incident
    have hsorted := lookup_perm hjudged.keys
      (List.perm_insertionSort (fun a b => a.1 ≤ b.1) recipients.byIncident).symm incident
    rw [haccepted.notIssued, sumAt_filter, ← hjudged.notIssued, shareAt, shareAt, hsorted]

def sampleAddress (digit : Char) : String := "0x".pushn digit 40

/-- An inventory of one address that keeps 3 of its 10 atto. -/
def sampleInventory : CsvFile := ⟨"inventory.csv",
  [[("address_hex", some (sampleAddress 'a')), ("not_issued_atto", some "7"),
    ("cutoff_claim_atto", some "10"), ("category", some "burn")]]⟩

/-- A retained balance of 4 atto, all of it from an incident. -/
def sampleBalances : RetainedFile where
  path := "balances.csv"
  rows := [[("address", some (sampleAddress 'b')), ("incident", some "may-2025"),
    ("initial_amount_atto", some "6"), ("cutoff_balance_atto", some "4"),
    ("rpc_balance_atto", some "4"), ("rpc_retained_cap_atto", some "4"),
    ("balance_changed_from_sep10", some "False"), ("raw_file", some "b.json"),
    ("rpc_block", some "100"), ("cutoff_block", some "100")]]
  evidence _ := some "raw/b.json"

/-- The retained rows as the retention script reads them. -/
def sampleRetained : List Row :=
  match load AuditText.ascii [sampleInventory] sampleBalances with
  | .ok loaded => loaded.retained.rows.map readBack
  | .error _ => []

/-- One leak of 5 atto to the address of the retained balance. -/
def sampleArgs : Args where
  receiptAudit := [⟨"audit.csv", [[("tx_hash", some "0xa1"), ("receipt_index", some "0"),
    ("to", some (sampleAddress 'b')), ("amount_atto", some "5"),
    ("classification", some "rollback_leak")]]⟩]
  exploitTransactions := []
  claims := ⟨"claims.csv",
    [[("address", some (sampleAddress 'b')), ("native_total_claim_atto", some "6")]]⟩
  priorRetention := [⟨"retained.csv", sampleRetained⟩]
  priorNonIssuance := [sampleInventory]
  outputCsv := ⟨"leaks.csv", false, false⟩
  summaryOutput := ⟨"leaks.json", false, false⟩
  replace := false

/-- The checked list withholds what is left of the claim. -/
theorem revert_leak_accepted_sample : ∃ (loaded : Loaded) (out : Output) (leak : RevertLeak),
    loadLeakInput AuditText.ascii (fun _ => "digest") loaded
        (some ⟨out.csv, some out.summary, "leaks.json"⟩) = .ok (some leak) ∧
      toString leak.total = out.summary.notIssuedAtto := by
  obtain ⟨loaded, hload⟩ := exists_of_isOk
    (show (load AuditText.ascii [sampleInventory] sampleBalances).isOk = true by decide +kernel)
  obtain ⟨out, hout⟩ := exists_of_isOk
    (show (RevertLeakRetention.main PyText.ascii (fun _ => "digest") sampleArgs).isOk = true by
      decide +kernel)
  have hretained : (allRows sampleArgs.priorRetention).Perm
      (loaded.retained.rows.map readBack) := by
    simp [sampleArgs, sampleRetained, hload, allRows]
  obtain ⟨leak, haccepted, htotal, -⟩ := revert_leak_accepted AuditText.ascii (fun _ => "digest")
    "leaks.json" hload hretained hout
  exact ⟨loaded, out, leak, haccepted, htotal⟩

end RevertLeakAgreement
