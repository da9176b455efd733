import SupplyAudit.DistinctListings
import SupplyAudit.RevertLeakRetention
import SupplyAudit.SourceAuditSummary

/-!
# Leak credit and distinct receipts

`load_leaks` and the summary of source audits take different fields for the
identity of a receipt. The credit is that of the distinct receipts, however the
audits list them, exactly when the two identities agree on the leaks.
-/

namespace LeakCredit

open ScriptValues FallibleScan KeyedTable DistinctListings TraceInspection AuditFiles
  SourceAuditSummary RevertLeakRetention

variable (py : PyText)

/-! ## What rows list -/

structure ListedReceipt where
  key : CanonicalKey
  address : String
  amountAtto : Int
  classification : Classification
  deriving DecidableEq

/-- The receipt that a row of a source audit lists. -/
def listedReceipt (row : Row) : Except AuditError ListedReceipt := do
  let key ← canonicalKey py "" row
  let amount ← requiredInteger py row ["amount_atto"] ""
  let text ← required row ["classification"] ""
  let address ← lowerField py row "to"
  match finalClassification text with
  | none => .error (.valueError ("unsupported final classification '" ++ text ++ "'"))
  | some classification => .ok ⟨key, address, amount, classification⟩

theorem required_ok {row : Row} {names : List String} {path text : String} :
    required row names path = .ok text ↔
      (names.findSome? fun name => ((row.lookup name).join).filter fun text => text ≠ "") =
        some text := by
  rw [required]
  split
  · rename_i found hfound
    rw [hfound, Except.ok.injEq, Option.some.injEq]
  · rename_i hnone
    rw [hnone]
    constructor <;> nofun

theorem required_single {row : Row} {name path text : String} :
    required row [name] path = .ok text ↔ row.lookup name = some (some text) ∧ text ≠ "" := by
  rw [required_ok]
  cases hrow : row.lookup name with
  | none => simp [hrow]
  | some cell =>
    cases cell with
    | none => simp [hrow]
    | some value =>
      by_cases hvalue : value = ""
      · subst hvalue
        simp only [List.findSome?_cons, List.findSome?_nil, hrow, Option.join_some]
        constructor
        · nofun
        · rintro ⟨heq, hne⟩
          exact absurd (Option.some.inj (Option.some.inj heq)).symm hne
      · have hiff : value = text ↔ value = text ∧ text ≠ "" := by
          constructor
          · rintro rfl
            exact ⟨rfl, hvalue⟩
          · exact And.left
        simpa [hrow, Option.filter, hvalue] using hiff

/-- Where a row is read from matters to messages only. -/
theorem required_path {row : Row} {names : List String} {path text : String}
    (h : required row names path = .ok text) (other : String) :
    required row names other = .ok text := required_ok.mpr (required_ok.mp h)

theorem requiredInteger_path {py : PyText} {row : Row} {names : List String} {path : String}
    {n : Int} (h : requiredInteger py row names path = .ok n) (other : String) :
    requiredInteger py row names other = .ok n := by
  obtain ⟨text, htext, hn⟩ := bind_eq_ok.mp h
  exact bind_eq_ok.mpr ⟨text, required_path htext other, hn⟩

theorem canonicalKey_path {py : PyText} {row : Row} {path : String} {key : CanonicalKey}
    (h : canonicalKey py path row = .ok key) (other : String) :
    canonicalKey py other row = .ok key := by
  simp only [canonicalKey, bind_eq_ok] at h ⊢
  obtain ⟨a, ha, b, hb, c, hc, d, hd, e, he, f, hf, hkey⟩ := h
  exact ⟨a, requiredInteger_path ha other, b, requiredInteger_path hb other, c,
    requiredInteger_path hc other, d, required_path hd other, e, requiredInteger_path he other, f,
    required_path hf other, hkey⟩

theorem requiredInteger_single {py : PyText} {row : Row} {name path : String} {n : Int}
    (h : requiredInteger py row [name] path = .ok n) : intField py row name = .ok n := by
  obtain ⟨text, htext, hn⟩ := bind_eq_ok.mp h
  have hlookup := (required_single.mp htext).1
  rw [raisePython_ok, PyText.parsed] at hn
  rw [intField_ok]
  refine ⟨text, hlookup, ?_⟩
  cases hint : py.int text with
  | none => simp [hint] at hn
  | some value => simpa [hint] using hn

/-- What a listing says about the fields that both tools read. -/
structure Listed (row : Row) (x : ListedReceipt) : Prop where
  key : ∀ path, canonicalKey py path row = .ok x.key
  integer : ∀ path, requiredInteger py row ["amount_atto"] path = .ok x.amountAtto
  amount : intField py row "amount_atto" = .ok x.amountAtto
  address : lowerField py row "to" = .ok x.address
  text : ∃ text, (∀ path, required row ["classification"] path = .ok text) ∧
    finalClassification text = some x.classification
  leakKey : ∃ key, leakKey py row = .ok key

theorem listed_of_ok {py : PyText} {row : Row} {x : ListedReceipt}
    (h : listedReceipt py row = .ok x) : Listed py row x := by
  simp only [listedReceipt, bind_eq_ok] at h
  obtain ⟨key, hkey, amount, hamount, text, htext, address, haddress, h⟩ := h
  split at h
  · cases h
  rename_i classification hclassification
  cases h
  constructor
  case key => exact canonicalKey_path hkey
  case integer => exact requiredInteger_path hamount
  case amount => exact requiredInteger_single hamount
  case address => exact haddress
  case text => exact ⟨text, required_path htext, hclassification⟩
  case leakKey =>
    simp only [canonicalKey, bind_eq_ok] at hkey
    obtain ⟨-, -, -, -, -, -, -, -, -, -, hash, hhash, -⟩ := hkey
    have hlower : lowerField py row "tx_hash" = .ok (py.lower hash) :=
      lowerField_ok.mpr ⟨hash, (required_single.mp hhash).1, rfl⟩
    rw [RevertLeakRetention.leakKey, hlower]
    exact ⟨_, rfl⟩

theorem Classification.text_injective {a b : Classification} (h : a.text = b.text) : a = b := by
  revert h
  cases a <;> cases b <;> decide

theorem finalClassification_text {text : String} {c : Classification}
    (h : finalClassification text = some c) : c.text = text := by
  have hfound := List.find?_some h
  exact of_decide_eq_true hfound

theorem Listed.isLeak_iff {py : PyText} {row : Row} {x : ListedReceipt} (h : Listed py row x) :
    isLeak row = true ↔ x.classification ∈ leakClassifications := by
  obtain ⟨text, htext, hclass⟩ := h.text
  have hlookup := (required_single.mp (htext "")).1
  rw [isLeak, hlookup, decide_eq_true_eq, Option.join_some, ← finalClassification_text hclass,
    List.mem_map]
  constructor
  · rintro ⟨c, hc, heq⟩
    rwa [← Classification.text_injective (Option.some.inj heq)]
  · intro hmem
    exact ⟨x.classification, hmem, rfl⟩

/-! ## The loop -/

/-- What the loop does with a leak row that it has not seen. -/
def record (incidentByTx : IncidentTable) (st : Leaks) (row : Row) : Leaks :=
  match leakKey py row, lowerField py row "to", intField py row "amount_atto" with
  | .ok key, .ok address, .ok amount =>
    st.credited key address amount (incidentOf py incidentByTx row)
  | _, _, _ => st

theorem record_listed {py : PyText} {row : Row} {x : ListedReceipt} {key : LeakKey}
    (h : Listed py row x) (hkey : leakKey py row = .ok key) (incidentByTx : IncidentTable)
    (st : Leaks) : record py incidentByTx st row =
      st.credited key x.address x.amountAtto (incidentOf py incidentByTx row) := by
  rw [record, hkey, h.address, h.amount]

/-- Every leak row lists a receipt of a positive amount. -/
def PositiveLeaks (rows : List Row) : Prop :=
  ∀ row ∈ rows, isLeak row = true → ∃ x, Listed py row x ∧ 0 < x.amountAtto

theorem addLeak_of_positive {py : PyText} {incidentByTx : IncidentTable} {path : String}
    {st : Leaks} {numbered : Row × Nat} {x : ListedReceipt} {key : LeakKey}
    (hleak : isLeak numbered.1 = true) (h : Listed py numbered.1 x)
    (hkey : leakKey py numbered.1 = .ok key) (hpos : 0 < x.amountAtto) :
    addLeak py incidentByTx path st numbered =
      .ok (if key ∈ st.seen then st else record py incidentByTx st numbered.1) := by
  simp only [addLeak, hleak, if_true, hkey, bind_ok]
  by_cases hseen : key ∈ st.seen
  · rw [if_pos hseen, if_pos hseen]
  · rw [if_neg hseen, if_neg hseen, h.address, h.amount, bind_ok, bind_ok,
      require_of hpos, bind_ok, record_listed h hkey]

/-- The loop adds the leak rows whose key is new. -/
theorem foldlM_addLeak {py : PyText} {incidentByTx : IncidentTable}
    {ps : List (CsvFile × (Row × Nat))}
    (h : PositiveLeaks py (ps.map fun place => place.2.1)) (st : Leaks) :
    ps.foldlM (fun st place => addLeak py incidentByTx place.1.path st place.2) st =
      .ok ((firsts (leakKey py) (st.seen.map Except.ok)
        ((ps.map fun place => place.2.1).filter isLeak)).foldl (record py incidentByTx) st) := by
  induction ps generalizing st with
  | nil => rfl
  | cons place rest ih =>
    have hrest : PositiveLeaks py (rest.map fun place => place.2.1) :=
      fun row hrow => h row (List.mem_cons_of_mem _ hrow)
    rw [List.foldlM_cons, List.map_cons]
    by_cases hleak : isLeak place.2.1 = true
    · obtain ⟨x, hx, hpos⟩ := h place.2.1 List.mem_cons_self hleak
      obtain ⟨key, hkey⟩ := hx.leakKey
      rw [addLeak_of_positive hleak hx hkey hpos, bind_ok, List.filter_cons_of_pos hleak]
      by_cases hseen : key ∈ st.seen
      · have hmem : leakKey py place.2.1 ∈ st.seen.map Except.ok :=
          hkey ▸ List.mem_map_of_mem hseen
        rw [if_pos hseen, firsts_cons_seen hmem]
        exact ih hrest st
      · have hmem : leakKey py place.2.1 ∉ st.seen.map Except.ok := by
          rw [hkey]
          simpa using hseen
        rw [if_neg hseen, firsts_cons_new hmem, List.foldl_cons, ih hrest, record_listed hx hkey,
          hkey]
        rfl
    · have hskip : addLeak py incidentByTx place.1.path st place.2 = .ok st := if_neg hleak
      rw [hskip, bind_ok, List.filter_cons_of_neg hleak]
      exact ih hrest st

theorem loadLeaks_of_positive {py : PyText} {files : List CsvFile}
    (h : PositiveLeaks py (allRows files)) (incidentByTx : IncidentTable) :
    loadLeaks py incidentByTx files =
      .ok ((firsts (leakKey py) [] ((allRows files).filter isLeak)).foldl
        (record py incidentByTx) {}) := by
  rw [← places_rows] at h ⊢
  rw [loadLeaks, foldlM_files fun file => addLeak py incidentByTx file.path]
  exact foldlM_addLeak h {}

/-- A leak without a positive amount stops the loop if it comes first. -/
theorem loadLeaks_of_nonpositive {py : PyText} {incidentByTx : IncidentTable} {row : Row}
    {x : ListedReceipt} (hleak : isLeak row = true) (h : Listed py row x)
    (hpos : ¬ 0 < x.amountAtto) (rows : List Row) (path : String) (leaks : Leaks) :
    loadLeaks py incidentByTx [⟨path, row :: rows⟩] ≠ .ok leaks := by
  obtain ⟨key, hkey⟩ := h.leakKey
  intro hok
  obtain ⟨st, hst, -⟩ := bind_eq_ok.mp hok
  obtain ⟨next, hnext, -⟩ := bind_eq_ok.mp hst
  simp only [addLeak, hleak, if_true, hkey, bind_ok, List.not_mem_nil, if_false, h.address,
    h.amount, bind_eq_ok, require_ok] at hnext
  obtain ⟨-, hbad, -⟩ := hnext
  exact hpos hbad

/-! ## Totals of the loop -/

/-- The kept listings give the credit, the counts and their total. -/
structure Credited (kept : List ListedReceipt) (leaks : Leaks) : Prop where
  credit : ∀ address, (leaks.credit.lookup address).getD 0 =
    (kept.map fun x => if address = x.address then x.amountAtto else 0).sum
  receipts : ∀ address, (leaks.receipts.lookup address).getD 0 =
    (kept.map fun x => if address = x.address then 1 else 0).sum
  count : leaks.seen.length = kept.length
  keys : (leaks.credit.map Prod.fst).Nodup
  total_credit : total id leaks.credit = (kept.map ListedReceipt.amountAtto).sum

theorem credited_start : Credited [] {} :=
  ⟨fun _ => rfl, fun _ => rfl, rfl, List.nodup_nil, rfl⟩

theorem Credited.record {py : PyText} {kept : List ListedReceipt} {leaks : Leaks}
    (h : Credited kept leaks) {row : Row} {x : ListedReceipt} (hx : Listed py row x)
    (incidentByTx : IncidentTable) :
    Credited (kept ++ [x]) (record py incidentByTx leaks row) := by
  obtain ⟨key, hkey⟩ := hx.leakKey
  rw [record_listed hx hkey]
  constructor
  case credit =>
    intro address
    rw [Leaks.credited, lookup_addAmount, h.credit]
    simp
  case receipts =>
    intro address
    rw [Leaks.credited, lookup_addAmount, h.receipts]
    simp
  case count => simp [Leaks.credited, h.count]
  case keys => exact nodup_set h.keys _ _
  case total_credit =>
    rw [Leaks.credited, total_addAmount h.keys, h.total_credit]
    simp

theorem credited_foldl {py : PyText} {rows : List Row} {listed : List ListedReceipt}
    (hrows : List.Forall₂ (Listed py) rows listed) {kept : List ListedReceipt} {leaks : Leaks}
    (h : Credited kept leaks) (incidentByTx : IncidentTable) :
    Credited (kept ++ listed) (rows.foldl (LeakCredit.record py incidentByTx) leaks) := by
  induction hrows generalizing kept leaks with
  | nil => rwa [List.append_nil]
  | cons hx _ ih =>
    have hnext := ih (h.record hx incidentByTx)
    rwa [List.append_assoc, List.singleton_append] at hnext

/-! ## Distinct receipts -/

/-- The distinct leak receipts that rows list. -/
def distinctLeaks (rows : List Row) : List ListedReceipt :=
  ((rows.filter isLeak).map (listedReceipt py)).dedup.filterMap Except.toOption

/-- Rows of source audits in which listings of one receipt agree. -/
structure SourceAudits (rows : List Row) : Prop where
  listed : ∀ row ∈ rows, ∃ x, listedReceipt py row = .ok x
  agree : ∀ row ∈ rows, ∀ row' ∈ rows, ∀ x x', listedReceipt py row = .ok x →
    listedReceipt py row' = .ok x' → x.key = x'.key → x = x'

/-- Credit and counts are those of the distinct leak receipts. -/
structure ExactCredit (rows : List Row) (leaks : Leaks) : Prop where
  credit : ∀ address, (leaks.credit.lookup address).getD 0 =
    (((distinctLeaks py rows).filter fun x => address = x.address).map
      ListedReceipt.amountAtto).sum
  receipts : ∀ address, (leaks.receipts.lookup address).getD 0 =
    ((distinctLeaks py rows).filter fun x => address = x.address).length
  count : leaks.seen.length = (distinctLeaks py rows).length

theorem Credited.exact {py : PyText} {kept : List ListedReceipt} {leaks : Leaks} {rows : List Row}
    (h : Credited kept leaks) (hperm : kept.Perm (distinctLeaks py rows)) :
    ExactCredit py rows leaks := by
  constructor
  case credit =>
    intro address
    rw [h.credit, (hperm.map _).sum_eq,
      ← sum_map_filter (p := fun x : ListedReceipt => address = x.address)]
    · congr 1
      apply List.map_congr_left
      intro x hx
      exact if_pos (of_decide_eq_true (List.mem_filter.mp hx).2)
    · intro x _ hx
      exact if_neg (of_decide_eq_false hx)
  case receipts =>
    intro address
    rw [h.receipts, (hperm.map _).sum_eq,
      ← sum_map_filter (p := fun x : ListedReceipt => address = x.address)]
    · have hones : (((distinctLeaks py rows).filter fun x => address = x.address).map
          fun x => if address = x.address then (1 : Int) else 0) =
          ((distinctLeaks py rows).filter fun x => address = x.address).map fun _ => 1 := by
        apply List.map_congr_left
        intro x hx
        exact if_pos (of_decide_eq_true (List.mem_filter.mp hx).2)
      rw [hones]
      simp
    · intro x _ hx
      exact if_neg (of_decide_eq_false hx)
  case count => rw [h.count, hperm.length_eq]

theorem forall₂_listed {py : PyText} {rows : List Row} {listed : List ListedReceipt}
    (h : List.Forall₂ (fun row x => listedReceipt py row = .ok x) rows listed) :
    rows.map (listedReceipt py) = listed.map Except.ok := by
  rw [← List.forall₂_eq_eq_eq, List.forall₂_map_left_iff, List.forall₂_map_right_iff]
  exact h

theorem filterMap_toOption (listed : List ListedReceipt) :
    (listed.map (Except.ok : _ → Except AuditError ListedReceipt)).filterMap Except.toOption =
      listed := by
  rw [List.filterMap_map]
  exact List.filterMap_some

theorem SourceAudits.forall₂ {py : PyText} {rows : List Row} (h : SourceAudits py rows)
    {part : List Row} (hpart : ∀ row ∈ part, row ∈ rows) :
    ∃ listed, List.Forall₂ (fun row x => listedReceipt py row = .ok x) part listed :=
  exists_forall₂ fun row hrow => h.listed row (hpart row hrow)

/-- Rows with one key list one receipt. -/
theorem SourceAudits.key_iff {py : PyText} {rows : List Row} (h : SourceAudits py rows)
    {row row' : Row} (hrow : row ∈ rows) (hrow' : row' ∈ rows) :
    listedReceipt py row = listedReceipt py row' ↔
      canonicalKey py "" row = canonicalKey py "" row' := by
  obtain ⟨x, hx⟩ := h.listed row hrow
  obtain ⟨x', hx'⟩ := h.listed row' hrow'
  rw [hx, hx', (listed_of_ok hx).key, (listed_of_ok hx').key, Except.ok.injEq, Except.ok.injEq]
  constructor
  · rintro rfl
    rfl
  · exact h.agree row hrow row' hrow' x x' hx hx'

theorem SourceAudits.isLeak_congr {py : PyText} {rows : List Row} (h : SourceAudits py rows)
    {row row' : Row} (hrow : row ∈ rows) (hrow' : row' ∈ rows)
    (hkey : canonicalKey py "" row = canonicalKey py "" row') : isLeak row = isLeak row' := by
  obtain ⟨x, hx⟩ := h.listed row hrow
  have hx' : listedReceipt py row' = .ok x := ((h.key_iff hrow hrow').mpr hkey).symm.trans hx
  rw [Bool.eq_iff_iff, (listed_of_ok hx).isLeak_iff, (listed_of_ok hx').isLeak_iff]

/-- Another listing of all receipts is another listing of the leaks. -/
theorem SourceAudits.relists_leaks {py : PyText} {rows rows' : List Row} (h : SourceAudits py rows)
    (hrelists : Relists (canonicalKey py "") rows rows') :
    Relists (listedReceipt py) (rows.filter isLeak) (rows'.filter isLeak) := by
  constructor
  case drawn =>
    intro row hrow
    obtain ⟨hmem, hleak⟩ := List.mem_filter.mp hrow
    exact List.mem_filter.mpr ⟨hrelists.drawn row hmem, hleak⟩
  case complete =>
    intro row hrow
    obtain ⟨hmem, hleak⟩ := List.mem_filter.mp hrow
    obtain ⟨row', hmem', hkey⟩ := hrelists.complete row hmem
    have hdrawn := hrelists.drawn row' hmem'
    refine ⟨row', List.mem_filter.mpr ⟨hmem', ?_⟩, (h.key_iff hdrawn hmem).mpr hkey⟩
    rw [h.isLeak_congr hdrawn hmem hkey]
    exact hleak

theorem distinctLeaks_perm {py : PyText} {rows rows' : List Row} (h : SourceAudits py rows)
    (hrelists : Relists (canonicalKey py "") rows rows') :
    (distinctLeaks py rows').Perm (distinctLeaks py rows) :=
  (h.relists_leaks hrelists).dedup_perm.filterMap _

theorem length_distinctLeaks {py : PyText} {rows : List Row} (h : SourceAudits py rows) :
    (distinctLeaks py rows).length =
      ((rows.filter isLeak).map (canonicalKey py "")).dedup.length := by
  have hsub : ∀ row ∈ rows.filter isLeak, row ∈ rows := fun row hrow => (List.mem_filter.mp hrow).1
  obtain ⟨listed, hlisted⟩ := h.forall₂ hsub
  have hcongr := length_dedup_congr (listedReceipt py) (canonicalKey py "")
    fun row hrow row' hrow' => h.key_iff (hsub row hrow) (hsub row' hrow')
  rw [← hcongr, distinctLeaks, forall₂_listed hlisted,
    List.dedup_map_of_injective fun _ _ h => Except.ok.inj h, filterMap_toOption, List.length_map]

/-! ## The summary -/

theorem amountOf_addCount (table : List (Classification × Counter)) (key : Classification)
    (amount : Int) (c : Classification) :
    amountOf (addCount table key amount) c = amountOf table c + if c = key then amount else 0 :=
  shareAt_update table key rfl (fun _ => rfl) c

/-- What the summary keeps about the receipts it has read. -/
structure Summarized (listed : List ListedReceipt) (st : SummaryState) : Prop where
  distinct : (listed.map ListedReceipt.key).Nodup
  seen : ∀ x ∈ listed, x.key ∈ st.seen
  amounts : ∀ c, amountOf st.final c =
    (listed.map fun x => if c = x.classification then x.amountAtto else 0).sum

theorem Summarized.add {py : PyText} {listed : List ListedReceipt} {st st' : SummaryState}
    (h : Summarized listed st) {row : Row} {x : ListedReceipt} (hx : Listed py row x)
    {path : String} (hadd : addRow py path st row = .ok st') : Summarized (listed ++ [x]) st' := by
  obtain ⟨text, htext, hclass⟩ := hx.text
  simp only [addRow, hx.key, hx.integer, htext, bind_ok, hclass, bind_eq_ok, require_ok] at hadd
  obtain ⟨-, hnew, hst⟩ := hadd
  cases hst
  constructor
  case distinct =>
    rw [List.map_append, List.nodup_append]
    refine ⟨h.distinct, List.nodup_singleton _, ?_⟩
    intro key hkey other hother heq
    rw [List.map_singleton, List.mem_singleton] at hother
    obtain ⟨old, hold, rfl⟩ := List.mem_map.mp hkey
    exact hnew (hother ▸ heq ▸ h.seen old hold)
  case seen =>
    intro old hold
    rcases List.mem_append.mp hold with hold | hold
    · exact List.mem_cons_of_mem _ (h.seen old hold)
    · rw [List.mem_singleton.mp hold]
      exact List.mem_cons_self
  case amounts =>
    intro c
    change amountOf (addCount st.final x.classification x.amountAtto) c = _
    rw [amountOf_addCount, h.amounts]
    simp

theorem summarized_rows {py : PyText} {path : String} {rows : List Row}
    {listed : List ListedReceipt} (hrows : List.Forall₂ (Listed py) rows listed)
    {before : List ListedReceipt} {st st' : SummaryState} (h : Summarized before st)
    (hok : rows.foldlM (addRow py path) st = .ok st') : Summarized (before ++ listed) st' := by
  induction hrows generalizing before st with
  | nil =>
    cases hok
    rwa [List.append_nil]
  | cons hx _ ih =>
    obtain ⟨next, hnext, hrest⟩ := bind_eq_ok.mp hok
    have hlast := ih (h.add hx hnext) hrest
    rwa [List.append_assoc, List.singleton_append] at hlast

theorem summarized_files {py : PyText} {files : List CsvFile}
    (hread : ∀ row ∈ allRows files, ∃ x, listedReceipt py row = .ok x)
    {before : List ListedReceipt}
    {st st' : SummaryState} (h : Summarized before st)
    (hok : files.foldlM (addFile py) st = .ok st') :
    ∃ listed, List.Forall₂ (fun row x => listedReceipt py row = .ok x) (allRows files) listed ∧
      Summarized (before ++ listed) st' := by
  induction files generalizing before st with
  | nil =>
    cases hok
    exact ⟨[], .nil, by rwa [List.append_nil]⟩
  | cons file rest ih =>
    obtain ⟨next, hnext, hrest⟩ := bind_eq_ok.mp hok
    obtain ⟨last, hlast, hst⟩ := bind_eq_ok.mp hnext
    obtain ⟨front, hfront⟩ := exists_forall₂ fun row hrow =>
      hread row (List.mem_append_left _ hrow)
    have hfile := summarized_rows (hfront.imp fun _ _ => listed_of_ok) h hlast
    have hcounted : Summarized (before ++ front) next := by
      cases hst
      exact ⟨hfile.distinct, hfile.seen, hfile.amounts⟩
    obtain ⟨back, hback, hsummarized⟩ :=
      ih (fun row hrow => hread row (List.mem_append_right _ hrow)) hcounted hrest
    rw [List.append_assoc] at hsummarized
    exact ⟨front ++ back, List.rel_append hfront hback, hsummarized⟩

theorem sum_leaks (listed : List ListedReceipt) :
    (listed.map fun x => if .rollbackLeak = x.classification then x.amountAtto else 0).sum +
        (listed.map fun x =>
          if .sourceDebitAbsent = x.classification then x.amountAtto else 0).sum =
      ((listed.filter fun x => x.classification ∈ leakClassifications).map
        ListedReceipt.amountAtto).sum := by
  have hshare : ∀ (c : Classification) (n : Int), (if .rollbackLeak = c then n else 0) +
      (if .sourceDebitAbsent = c then n else 0) = if c ∈ leakClassifications then n else 0 := by
    intro c n
    cases c <;> simp [leakClassifications]
  rw [← List.sum_map_add]
  simp only [hshare]
  rw [← sum_map_filter (p := fun x : ListedReceipt => x.classification ∈ leakClassifications)]
  · congr 1
    apply List.map_congr_left
    intro x hx
    exact if_pos (of_decide_eq_true (List.mem_filter.mp hx).2)
  · intro x _ hx
    exact if_neg (of_decide_eq_false hx)

theorem filter_isLeak {py : PyText} {rows : List Row} {listed : List ListedReceipt}
    (h : List.Forall₂ (fun row x => listedReceipt py row = .ok x) rows listed) :
    (rows.filter isLeak).map (listedReceipt py) =
      (listed.filter fun x => x.classification ∈ leakClassifications).map Except.ok := by
  induction h with
  | nil => rfl
  | @cons row x rows listed hx _ ih =>
    have hiff := (listed_of_ok hx).isLeak_iff
    by_cases hleak : isLeak row = true
    · have hmem := hiff.mp hleak
      simp [hleak, hmem, hx, ih]
    · have hmem : x.classification ∉ leakClassifications := hleak ∘ hiff.mpr
      simp [hleak, hmem, ih]

/-- A summary of audits that list every receipt once has the credit of their leaks. -/
theorem classify_unbacked {py : PyText} {files : List CsvFile}
    {summary : SourceAuditSummary.Summary} (hread : SourceAudits py (allRows files))
    (hok : classify py files = .ok summary) :
    summary.unbackedCrossShardCreditAtto =
      ((distinctLeaks py (allRows files)).map ListedReceipt.amountAtto).sum := by
  obtain ⟨st, hst, hsummary⟩ := bind_eq_ok.mp hok
  cases hsummary
  have hstart : Summarized [] {} := by
    constructor
    case distinct => exact List.nodup_nil
    case seen => exact fun x hx => absurd hx List.not_mem_nil
    case amounts => intro c; cases c <;> rfl
  obtain ⟨listed, hlisted, hsum⟩ := summarized_files hread.listed hstart hst
  rw [List.nil_append] at hsum
  have hdistinct : listed.Nodup := List.Nodup.of_map _ hsum.distinct
  have hleaks : distinctLeaks py (allRows files) =
      listed.filter fun x => x.classification ∈ leakClassifications := by
    rw [distinctLeaks, filter_isLeak hlisted,
      List.dedup_map_of_injective fun _ _ h => Except.ok.inj h, (hdistinct.filter _).dedup,
      filterMap_toOption]
  change amountOf st.final .rollbackLeak + amountOf st.final .sourceDebitAbsent = _
  rw [hsum.amounts, hsum.amounts, sum_leaks, hleaks]

/-! ## When credit is exact -/

/-- Leaks have positive amounts, and their keys tell canonical receipts apart
without telling listings of one receipt apart. -/
structure KeysSeparate (rows : List Row) : Prop where
  positive : ∀ row ∈ rows, isLeak row = true →
    ∃ x, listedReceipt py row = .ok x ∧ 0 < x.amountAtto
  keys : ∀ row ∈ rows, ∀ row' ∈ rows, isLeak row = true → isLeak row' = true →
    (leakKey py row = leakKey py row' ↔ canonicalKey py "" row = canonicalKey py "" row')

/-- The loader answers with the credit of the receipts in `rows`, and so does
the summary if it accepts. -/
def CreditsExactly (incidentByTx : IncidentTable) (rows : List Row) (files : List CsvFile) :
    Prop :=
  ∃ leaks, loadLeaks py incidentByTx files = .ok leaks ∧ ExactCredit py rows leaks ∧
    ∀ summary, classify py files = .ok summary →
      summary.unbackedCrossShardCreditAtto = total id leaks.credit

theorem SourceAudits.of_drawn {py : PyText} {rows rows' : List Row} (h : SourceAudits py rows)
    (hdrawn : ∀ row ∈ rows', row ∈ rows) : SourceAudits py rows' where
  listed row hrow := h.listed row (hdrawn row hrow)
  agree row hrow row' hrow' := h.agree row (hdrawn row hrow) row' (hdrawn row' hrow')

theorem KeysSeparate.creditsExactly {py : PyText} {rows : List Row} (h : KeysSeparate py rows)
    (hread : SourceAudits py rows) (incidentByTx : IncidentTable) {files : List CsvFile}
    (hrelists : Relists (canonicalKey py "") rows (allRows files)) :
    CreditsExactly py incidentByTx rows files := by
  have hdrawn := hrelists.drawn
  have hread' := hread.of_drawn hdrawn
  have hpositive : PositiveLeaks py (allRows files) := by
    intro row hrow hleak
    obtain ⟨x, hx, hpos⟩ := h.positive row (hdrawn row hrow) hleak
    exact ⟨x, listed_of_ok hx, hpos⟩
  have hkeys : ∀ row ∈ (allRows files).filter isLeak, ∀ row' ∈ (allRows files).filter isLeak,
      leakKey py row = leakKey py row' ↔ listedReceipt py row = listedReceipt py row' := by
    intro row hrow row' hrow'
    obtain ⟨hmem, hleak⟩ := List.mem_filter.mp hrow
    obtain ⟨hmem', hleak'⟩ := List.mem_filter.mp hrow'
    rw [h.keys row (hdrawn row hmem) row' (hdrawn row' hmem') hleak hleak',
      hread'.key_iff hmem hmem']
  have hkeptRows : ∀ row ∈ firsts (leakKey py) [] ((allRows files).filter isLeak),
      row ∈ allRows files := fun row hrow => (List.mem_filter.mp (mem_of_mem_firsts hrow).1).1
  obtain ⟨kept, hkept⟩ := hread'.forall₂ hkeptRows
  have hcredited := credited_foldl (hkept.imp fun _ _ => listed_of_ok) credited_start incidentByTx
  rw [List.nil_append] at hcredited
  have hown : kept.Perm (distinctLeaks py (allRows files)) := by
    have hperm := (firsts_perm_dedup _ _ hkeys).filterMap Except.toOption
    rwa [forall₂_listed hkept, filterMap_toOption] at hperm
  refine ⟨_, loadLeaks_of_positive hpositive incidentByTx, hcredited.exact
    (hown.trans (distinctLeaks_perm hread hrelists)), ?_⟩
  intro summary hsummary
  rw [classify_unbacked hread' hsummary, hcredited.total_credit, (hown.map _).sum_eq]

/-- Every other choice of listings of the same receipts, in any order and files. -/
def ExactUnderRelisting (incidentByTx : IncidentTable) (rows : List Row) : Prop :=
  ∀ files, Relists (canonicalKey py "") rows (allRows files) →
    CreditsExactly py incidentByTx rows files

/-- Listings of leaks relist the whole list together with the other rows. -/
theorem relists_of_leaks {py : PyText} {rows leaks : List Row}
    (h : Relists (canonicalKey py "") (rows.filter isLeak) leaks) :
    Relists (canonicalKey py "") rows (leaks ++ rows.filter fun row => !isLeak row) := by
  constructor
  case drawn =>
    intro row hrow
    rcases List.mem_append.mp hrow with hrow | hrow
    · exact (List.mem_filter.mp (h.drawn row hrow)).1
    · exact (List.mem_filter.mp hrow).1
  case complete =>
    intro row hrow
    by_cases hleak : isLeak row = true
    · obtain ⟨row', hrow', hkey⟩ := h.complete row (List.mem_filter.mpr ⟨hrow, hleak⟩)
      exact ⟨row', List.mem_append_left _ hrow', hkey⟩
    · have hother : row ∈ rows.filter fun row => !isLeak row :=
        List.mem_filter.mpr ⟨hrow, by simpa using hleak⟩
      exact ⟨row, List.mem_append_right _ hother, rfl⟩

theorem ExactUnderRelisting.positive {py : PyText} {incidentByTx : IncidentTable} {rows : List Row}
    (h : ExactUnderRelisting py incidentByTx rows) (hread : SourceAudits py rows) :
    ∀ row ∈ rows, isLeak row = true → ∃ x, listedReceipt py row = .ok x ∧ 0 < x.amountAtto := by
  intro row hrow hleak
  obtain ⟨x, hx⟩ := hread.listed row hrow
  refine ⟨x, hx, ?_⟩
  by_contra hpos
  -- a file that lists this row first
  have hrelists : Relists (canonicalKey py "") rows (allRows [⟨"", row :: rows⟩]) := by
    simp only [allRows, List.flatMap_cons, List.flatMap_nil, List.append_nil]
    constructor
    case drawn =>
      intro other hother
      rcases List.mem_cons.mp hother with rfl | hother
      · exact hrow
      · exact hother
    case complete => exact fun other hother => ⟨other, List.mem_cons_of_mem row hother, rfl⟩
  obtain ⟨leaks, hleaks, -⟩ := h _ hrelists
  exact loadLeaks_of_nonpositive hleak (listed_of_ok hx) hpos rows "" leaks hleaks

/-- The count of the loader is that of the keys it has seen. -/
theorem count_of_relisting {py : PyText} {incidentByTx : IncidentTable} {rows : List Row}
    (h : ExactUnderRelisting py incidentByTx rows) (hread : SourceAudits py rows)
    {leaks : List Row} (hleaks : Relists (canonicalKey py "") (rows.filter isLeak) leaks) :
    (firsts (leakKey py) [] leaks).length = (leaks.map (canonicalKey py "")).dedup.length := by
  have hall : allRows [⟨"", leaks ++ rows.filter fun row => !isLeak row⟩] =
      leaks ++ rows.filter fun row => !isLeak row := by
    simp [allRows]
  have hrelists := relists_of_leaks hleaks
  have hpositive : PositiveLeaks py (leaks ++ rows.filter fun row => !isLeak row) := by
    intro row hrow hleak
    obtain ⟨x, hx, hpos⟩ := h.positive hread row (hrelists.drawn row hrow) hleak
    exact ⟨x, listed_of_ok hx, hpos⟩
  rw [← hall] at hrelists hpositive
  obtain ⟨result, hresult, hexact, -⟩ := h _ hrelists
  rw [loadLeaks_of_positive hpositive incidentByTx, Except.ok.injEq, hall] at hresult
  have hfilter : (leaks ++ rows.filter fun row => !isLeak row).filter isLeak = leaks := by
    have hfront : leaks.filter isLeak = leaks :=
      List.filter_eq_self.mpr fun row hrow => (List.mem_filter.mp (hleaks.drawn row hrow)).2
    have hback : (rows.filter fun row => !isLeak row).filter isLeak = [] := by
      simp
    rw [List.filter_append, hfront, hback, List.append_nil]
  rw [hfilter] at hresult
  have hdrawn : ∀ row ∈ firsts (leakKey py) [] leaks, row ∈ rows := fun row hrow =>
    (List.mem_filter.mp (hleaks.drawn row (mem_of_mem_firsts hrow).1)).1
  obtain ⟨kept, hkept⟩ := hread.forall₂ hdrawn
  have hcredited := credited_foldl (hkept.imp fun _ _ => listed_of_ok) credited_start incidentByTx
  rw [List.nil_append, hresult] at hcredited
  rw [hkept.length_eq, ← hcredited.count, hexact.count, length_distinctLeaks hread,
    hleaks.dedup_perm.length_eq]

/-- The loader credits every listing of the receipts exactly when their keys
separate receipts. -/
theorem load_leaks_exact_iff (incidentByTx : IncidentTable) (files : List CsvFile)
    (hread : SourceAudits py (allRows files)) :
    ExactUnderRelisting py incidentByTx (allRows files) ↔ KeysSeparate py (allRows files) := by
  constructor
  · intro h
    constructor
    case positive => exact h.positive hread
    case keys =>
      have hseparates := (counts_iff_separates (leakKey py) (canonicalKey py "")
        ((allRows files).filter isLeak)).mp fun leaks hleaks => count_of_relisting h hread hleaks
      intro row hrow row' hrow' hleak hleak'
      exact hseparates row (List.mem_filter.mpr ⟨hrow, hleak⟩) row'
        (List.mem_filter.mpr ⟨hrow', hleak'⟩)
  · intro h files' hrelists
    exact h.creditsExactly hread incidentByTx hrelists

/-- A leak of 5 atto, with the fields that its ledger adds. -/
def leakRow (ledger : Row) : Row :=
  [("source_shard", some "1"), ("destination_shard", some "0"), ("source_block", some "7"),
    ("source_block_hash", some ("0x".pushn 'b' 64)), ("receipt_index", some "0"), ("tx_hash", some ("0x".pushn 'a' 64)),
    ("to", some ("0x".pushn 'e' 40)), ("amount_atto", some "5"), ("classification", some "rollback_leak")] ++
    ledger

def leakReceipt : ListedReceipt := 
  ⟨⟨1, 0, 7, "0x".pushn 'b' 64, 0, "0x".pushn 'a' 64⟩, "0x".pushn 'e' 40, 5, .rollbackLeak⟩

theorem leakRow_listed : listedReceipt PyText.ascii (leakRow []) = .ok leakReceipt ∧
    listedReceipt PyText.ascii (leakRow [("destination_block", some "9")]) = .ok leakReceipt := by
  decide +kernel

theorem leakRows_audits {rows : List Row}
    (h : ∀ row ∈ rows, listedReceipt PyText.ascii row = .ok leakReceipt) :
    SourceAudits PyText.ascii rows := by
  constructor
  case listed => exact fun row hrow => ⟨leakReceipt, h row hrow⟩
  case agree =>
    intro row hrow row' hrow' x x' hx hx' _
    exact Except.ok.inj ((hx.symm.trans (h row hrow)).trans ((h row' hrow').symm.trans hx'))

/-- One outgoing listing is credited, however often it is repeated. -/
theorem load_leaks_exact_outgoing :
    ExactUnderRelisting PyText.ascii [] (allRows [⟨"outgoing.csv", [leakRow []]⟩]) := by
  have hread : SourceAudits PyText.ascii (allRows [⟨"outgoing.csv", [leakRow []]⟩]) := by
    apply leakRows_audits
    intro row hrow
    rw [List.mem_singleton.mp hrow]
    exact leakRow_listed.1
  rw [load_leaks_exact_iff PyText.ascii [] [⟨"outgoing.csv", [leakRow []]⟩] hread]
  constructor
  case positive =>
    intro row hrow _
    rw [List.mem_singleton.mp hrow]
    exact ⟨leakReceipt, leakRow_listed.1, by decide⟩
  case keys =>
    intro row hrow row' hrow' _ _
    rw [List.mem_singleton.mp hrow, List.mem_singleton.mp hrow']
    exact ⟨fun _ => rfl, fun _ => rfl⟩

/-- A receipt in an outgoing and in a replay ledger is credited twice. -/
theorem load_leaks_replayed_twice :
    SourceAudits PyText.ascii (allRows [⟨"outgoing.csv", [leakRow []]⟩,
      ⟨"replay.csv", [leakRow [("destination_block", some "9")]]⟩]) ∧
    ¬ CreditsExactly PyText.ascii []
      (allRows [⟨"outgoing.csv", [leakRow []]⟩,
        ⟨"replay.csv", [leakRow [("destination_block", some "9")]]⟩])
      [⟨"outgoing.csv", [leakRow []]⟩,
        ⟨"replay.csv", [leakRow [("destination_block", some "9")]]⟩] := by
  constructor
  · apply leakRows_audits
    intro row hrow
    rcases List.mem_cons.mp hrow with rfl | hrow
    · exact leakRow_listed.1
    · rw [List.mem_singleton.mp hrow]
      exact leakRow_listed.2
  · rintro ⟨leaks, hleaks, hexact, -⟩
    have hcredit := hexact.credit ("0x".pushn 'e' 40)
    have hten : (loadLeaks PyText.ascii [] [⟨"outgoing.csv", [leakRow []]⟩,
        ⟨"replay.csv", [leakRow [("destination_block", some "9")]]⟩]).map
          (fun leaks => (leaks.credit.lookup ("0x".pushn 'e' 40)).getD 0) = .ok 10 := by
      decide +kernel
    rw [hleaks] at hten
    have hvalue : (leaks.credit.lookup ("0x".pushn 'e' 40)).getD 0 = 10 := Except.ok.inj hten
    rw [hvalue] at hcredit
    exact absurd hcredit (by decide +kernel)

end LeakCredit
