import Mathlib.Data.String.Basic
import SupplyAudit.LeakCredit
import SupplyAudit.TablePublication

/-!
# What the summary of source audits adds up

A row either lists a receipt or stops the summary, whatever file it is in, and a
receipt is rejected only for a key seen before. The three tables are the listed
receipts grouped by their class, their replay class and their shard, so they
depend on the rows and not on how files present them.
-/

namespace SourceAuditTotals

open ScriptValues FallibleScan KeyedTable TablePublication TraceInspection AuditFiles
  SourceAuditSummary

variable (py : PyText)

/-! ## Rows -/

/-- The text that the first named field with a text has. -/
def fieldText (row : Row) (names : List String) : Option String :=
  names.findSome? fun name => ((row.lookup name).join).filter fun text => text ≠ ""

def fieldInteger (row : Row) (names : List String) : Option Int :=
  (fieldText row names).bind py.int

def sourceShardFields : List String :=
  ["audit_source_shard", "signed_source_shard", "source_shard"]

def destinationShardFields : List String :=
  ["audit_destination_shard", "destination_shard", "to_shard"]

def sourceBlockFields : List String :=
  ["audit_source_block", "signed_source_block", "source_block"]

def sourceBlockHashFields : List String :=
  ["audit_source_block_hash", "signed_source_header_hash", "source_block_hash",
    "claimed_source_block_hash"]

/-- The required integers, each with the columns it falls back to. -/
def integerFields : List (List String) :=
  [sourceShardFields, destinationShardFields, sourceBlockFields, ["receipt_index"],
    ["amount_atto"]]

def textFields : List (List String) := [sourceBlockHashFields, ["tx_hash"], ["classification"]]

/-- A required field is missing, an integer malformed or the classification unsupported. -/
def Defective (row : Row) : Prop :=
  (∃ names ∈ integerFields ++ textFields, fieldText row names = none) ∨
    (∃ names ∈ integerFields, ∃ text, fieldText row names = some text ∧ py.int text = none) ∨
    ∃ text, fieldText row ["classification"] = some text ∧ finalClassification text = none

/-- The key of the receipt, wherever the row is. -/
def rowKey (row : Row) : Option CanonicalKey := do
  let sourceShard ← fieldInteger py row sourceShardFields
  let destinationShard ← fieldInteger py row destinationShardFields
  let sourceBlock ← fieldInteger py row sourceBlockFields
  let sourceBlockHash ← fieldText row sourceBlockHashFields
  let receiptIndex ← fieldInteger py row ["receipt_index"]
  let txHash ← fieldText row ["tx_hash"]
  some ⟨sourceShard, destinationShard, sourceBlock, py.lower sourceBlockHash, receiptIndex,
    py.lower txHash⟩

def rowAmount (row : Row) : Option Int := fieldInteger py row ["amount_atto"]

def rowClassification (row : Row) : Option Classification :=
  (fieldText row ["classification"]).bind finalClassification

/-- Two of the rows have the same key. -/
def SharedKey (rows : List Row) : Prop :=
  ∃ (i j : Nat) (first second : Row) (key : CanonicalKey), i < j ∧ rows[i]? = some first ∧ rows[j]? = some second ∧
    rowKey py first = some key ∧ rowKey py second = some key

/-- What a row adds to the summary. -/
structure Entry where
  key : CanonicalKey
  amount : Int
  classification : Classification
  replay : String
  deriving DecidableEq

def rowEntry (row : Row) : Option Entry := do
  let key ← rowKey py row
  let amount ← rowAmount py row
  let classification ← rowClassification row
  some ⟨key, amount, classification, replayClassification row⟩

variable {py}

theorem required_iff {row : Row} {names : List String} {path text : String} :
    required row names path = .ok text ↔ fieldText row names = some text :=
  LeakCredit.required_ok

theorem requiredInteger_iff {row : Row} {names : List String} {path : String} {n : Int} :
    requiredInteger py row names path = .ok n ↔ fieldInteger py row names = some n := by
  rw [requiredInteger, bind_eq_ok, fieldInteger, Option.bind_eq_some_iff]
  apply exists_congr
  intro text
  rw [required_iff, raisePython_ok, PyText.parsed]
  cases py.int text <;> simp

theorem canonicalKey_iff {row : Row} {path : String} {key : CanonicalKey} :
    canonicalKey py path row = .ok key ↔ rowKey py row = some key := by
  simp only [canonicalKey, rowKey, bind_eq_ok, Option.bind_eq_bind, Option.bind_eq_some_iff,
    requiredInteger_iff, required_iff, Except.ok.injEq, Option.some.injEq, sourceShardFields,
    destinationShardFields, sourceBlockFields, sourceBlockHashFields]

theorem rowEntry_iff {row : Row} {e : Entry} :
    rowEntry py row = some e ↔ rowKey py row = some e.key ∧ rowAmount py row = some e.amount ∧
      rowClassification row = some e.classification ∧ replayClassification row = e.replay := by
  simp only [rowEntry, Option.bind_eq_bind, Option.bind_eq_some_iff, Option.some.injEq]
  constructor
  · rintro ⟨key, hkey, amount, hamount, classification, hclassification, rfl⟩
    exact ⟨hkey, hamount, hclassification, rfl⟩
  · rintro ⟨hkey, hamount, hclassification, hreplay⟩
    exact ⟨e.key, hkey, e.amount, hamount, e.classification, hclassification, hreplay ▸ rfl⟩

theorem fieldInteger_none_iff {row : Row} {names : List String} :
    fieldInteger py row names = none ↔ fieldText row names = none ∨
      ∃ text, fieldText row names = some text ∧ py.int text = none := by
  rw [fieldInteger]
  cases fieldText row names <;> simp

/-- A row that is not defective has every field. -/
theorem fields_of_not_defective {row : Row} (h : ¬ Defective py row) :
    (∀ names ∈ integerFields, ∃ n, fieldInteger py row names = some n) ∧
      (∀ names ∈ textFields, ∃ text, fieldText row names = some text) ∧
      ∃ classification, rowClassification row = some classification := by
  rw [Defective, not_or, not_or] at h
  obtain ⟨hmissing, hmalformed, hclass⟩ := h
  have htext : ∀ names ∈ integerFields ++ textFields, ∃ text, fieldText row names = some text := by
    intro names hnames
    apply Option.ne_none_iff_exists'.mp
    intro hnone
    exact hmissing ⟨names, hnames, hnone⟩
  refine ⟨?_, ?_, ?_⟩
  · intro names hnames
    apply Option.ne_none_iff_exists'.mp
    intro hnone
    rcases fieldInteger_none_iff.mp hnone with habsent | hbad
    · exact hmissing ⟨names, List.mem_append_left _ hnames, habsent⟩
    · exact hmalformed ⟨names, hnames, hbad⟩
  · intro names hnames
    exact htext names (List.mem_append_right _ hnames)
  · obtain ⟨text, hfield⟩ := htext ["classification"] (by simp [integerFields, textFields])
    apply Option.ne_none_iff_exists'.mp
    intro hnone
    rw [rowClassification, hfield, Option.bind_some] at hnone
    exact hclass ⟨text, hfield, hnone⟩

/-- The defective rows are those that list no receipt. -/
theorem defective_iff {row : Row} : Defective py row ↔ rowEntry py row = none := by
  constructor
  · intro hdefective
    cases hentry : rowEntry py row with
    | none => rfl
    | some e =>
      exfalso
      obtain ⟨hkey, hamount, hclassification, -⟩ := rowEntry_iff.mp hentry
      simp only [rowKey, Option.bind_eq_bind, Option.bind_eq_some_iff] at hkey
      obtain ⟨a, ha, b, hb, c, hc, d, hd, i, hi, t, ht, -⟩ := hkey
      have hintegers : ∀ names ∈ integerFields, ∃ n, fieldInteger py row names = some n := by
        intro names hnames
        simp only [integerFields, List.mem_cons, List.not_mem_nil, or_false] at hnames
        rcases hnames with rfl | rfl | rfl | rfl | rfl
        exacts [⟨a, ha⟩, ⟨b, hb⟩, ⟨c, hc⟩, ⟨i, hi⟩, ⟨e.amount, hamount⟩]
      obtain ⟨text, htext, hsupported⟩ := Option.bind_eq_some_iff.mp hclassification
      rcases hdefective with ⟨names, hnames, hnone⟩ | ⟨names, hnames, text', htext', hbad⟩ |
        ⟨text', htext', hunsupported⟩
      · rcases List.mem_append.mp hnames with hinteger | hplain
        · obtain ⟨n, hn⟩ := hintegers names hinteger
          rw [fieldInteger, hnone] at hn
          cases hn
        · simp only [textFields, List.mem_cons, List.not_mem_nil, or_false] at hplain
          rcases hplain with rfl | rfl | rfl
          · cases hd.symm.trans hnone
          · cases ht.symm.trans hnone
          · cases htext.symm.trans hnone
      · obtain ⟨n, hn⟩ := hintegers names hnames
        rw [fieldInteger, htext', Option.bind_some, hbad] at hn
        cases hn
      · cases htext.symm.trans htext'
        cases hsupported.symm.trans hunsupported
  · intro hnone
    by_contra hfine
    obtain ⟨hintegers, htexts, classification, hclassification⟩ := fields_of_not_defective hfine
    obtain ⟨a, ha⟩ := hintegers sourceShardFields (by simp [integerFields])
    obtain ⟨b, hb⟩ := hintegers destinationShardFields (by simp [integerFields])
    obtain ⟨c, hc⟩ := hintegers sourceBlockFields (by simp [integerFields])
    obtain ⟨i, hi⟩ := hintegers ["receipt_index"] (by simp [integerFields])
    obtain ⟨amount, hamount⟩ := hintegers ["amount_atto"] (by simp [integerFields])
    obtain ⟨d, hd⟩ := htexts sourceBlockHashFields (by simp [textFields])
    obtain ⟨t, ht⟩ := htexts ["tx_hash"] (by simp [textFields])
    have hkey : rowKey py row = some ⟨a, b, c, py.lower d, i, py.lower t⟩ := by
      simp only [rowKey, ha, hb, hc, hd, hi, ht, Option.bind_eq_bind, Option.bind_some]
    have hentry : rowEntry py row =
        some ⟨⟨a, b, c, py.lower d, i, py.lower t⟩, amount, classification,
          replayClassification row⟩ :=
      rowEntry_iff.mpr ⟨hkey, hamount, hclassification, rfl⟩
    cases hnone.symm.trans hentry

/-! ## The loop -/

/-- What the loop does with a receipt that it has not seen. -/
def addEntry (st : SummaryState) (e : Entry) : SummaryState :=
  { st with
    seen := e.key :: st.seen
    final := addCount st.final e.classification e.amount
    replay := addCount st.replay e.replay e.amount
    bySourceShard := update st.bySourceShard e.key.sourceShard [] fun shard =>
      addCount shard e.classification e.amount }

theorem addRow_iff {path : String} {st next : SummaryState} {row : Row} :
    addRow py path st row = .ok next ↔
      ∃ e, rowEntry py row = some e ∧ e.key ∉ st.seen ∧ addEntry st e = next := by
  simp only [addRow, bind_eq_ok, canonicalKey_iff, requiredInteger_iff, required_iff, require_ok]
  constructor
  · rintro ⟨key, hkey, -, hnew, amount, hamount, text, htext, hnext⟩
    cases hclassification : finalClassification text with
    | none =>
      rw [hclassification] at hnext
      cases hnext
    | some classification =>
      rw [hclassification] at hnext
      have hrow : rowClassification row = some classification := by
        rw [rowClassification, htext, Option.bind_some, hclassification]
      exact ⟨⟨key, amount, classification, replayClassification row⟩,
        rowEntry_iff.mpr ⟨hkey, hamount, hrow, rfl⟩, hnew, Except.ok.inj hnext⟩
  · rintro ⟨e, hentry, hnew, rfl⟩
    obtain ⟨hkey, hamount, hrow, hreplay⟩ := rowEntry_iff.mp hentry
    obtain ⟨text, htext, hclassification⟩ := Option.bind_eq_some_iff.mp hrow
    refine ⟨e.key, hkey, (), hnew, e.amount, hamount, text, htext, ?_⟩
    rw [hclassification, hreplay]
    rfl

theorem seen_foldl (entries : List Entry) (st : SummaryState) :
    (entries.foldl addEntry st).seen = (entries.map Entry.key).reverse ++ st.seen := by
  induction entries generalizing st with
  | nil => rfl
  | cons e entries ih => simp [ih, addEntry]

def withInputs (st : SummaryState) (inputs : List (String × Nat)) : SummaryState :=
  { st with inputs := inputs }

theorem inputs_foldl (entries : List Entry) (st : SummaryState) :
    (entries.foldl addEntry st).inputs = st.inputs := by
  induction entries generalizing st with
  | nil => rfl
  | cons e entries ih => exact ih (addEntry st e)

theorem foldl_withInputs (entries : List Entry) (st : SummaryState)
    (inputs : List (String × Nat)) :
    entries.foldl addEntry (withInputs st inputs) =
      withInputs (entries.foldl addEntry st) inputs := by
  induction entries generalizing st with
  | nil => rfl
  | cons e entries ih => exact ih (addEntry st e)

/-- The rows of a file are read when each lists a receipt that is new. -/
theorem foldlM_addRow {path : String} {rows : List Row} {st next : SummaryState}
    (hseen : st.seen.Nodup) :
    rows.foldlM (addRow py path) st = .ok next ↔
      ∃ entries, rows.mapM (rowEntry py) = some entries ∧ next.seen.Nodup ∧
        entries.foldl addEntry st = next := by
  induction rows generalizing st with
  | nil =>
    constructor
    · intro h
      cases h
      exact ⟨[], rfl, hseen, rfl⟩
    · rintro ⟨entries, hentries, -, hnext⟩
      cases hentries
      exact congrArg Except.ok hnext
  | cons row rows ih =>
    rw [List.foldlM_cons, bind_eq_ok, List.mapM_cons]
    constructor
    · rintro ⟨st', hrow, hrest⟩
      obtain ⟨e, hentry, hnew, rfl⟩ := addRow_iff.mp hrow
      obtain ⟨entries, hentries, hnodup, hnext⟩ :=
        (ih (List.nodup_cons.mpr ⟨hnew, hseen⟩)).mp hrest
      refine ⟨e :: entries, ?_, hnodup, hnext⟩
      rw [hentry, hentries]
      rfl
    · rintro ⟨entries, hentries, hnodup, hnext⟩
      simp only [Option.bind_eq_bind, Option.bind_eq_some_iff] at hentries
      obtain ⟨e, hentry, rest, hrest, hentries⟩ := hentries
      cases hentries
      have hfirst : (addEntry st e).seen.Nodup := by
        rw [← hnext, List.foldl_cons, seen_foldl] at hnodup
        exact (List.nodup_append.mp hnodup).2.1
      exact ⟨addEntry st e, addRow_iff.mpr ⟨e, hentry, (List.nodup_cons.mp hfirst).1, rfl⟩,
        (ih hfirst).mpr ⟨rest, hrest, hnodup, hnext⟩⟩

/-- The listing of a file among the inputs. -/
def fileInput (file : CsvFile) : String × Nat := (file.path, file.rows.length)

theorem addFile_iff {st next : SummaryState} {file : CsvFile} (hseen : st.seen.Nodup) :
    addFile py st file = .ok next ↔
      ∃ entries, file.rows.mapM (rowEntry py) = some entries ∧ next.seen.Nodup ∧
        withInputs (entries.foldl addEntry st) (st.inputs ++ [fileInput file]) = next := by
  rw [addFile, bind_eq_ok]
  constructor
  · rintro ⟨mid, hmid, hnext⟩
    obtain ⟨entries, hentries, hnodup, rfl⟩ := (foldlM_addRow hseen).mp hmid
    refine ⟨entries, hentries, Except.ok.inj hnext ▸ hnodup, ?_⟩
    rw [← Except.ok.inj hnext, inputs_foldl]
    rfl
  · rintro ⟨entries, hentries, hnodup, rfl⟩
    refine ⟨entries.foldl addEntry st, (foldlM_addRow hseen).mpr ⟨entries, hentries, hnodup, rfl⟩, ?_⟩
    rw [inputs_foldl]
    rfl

/-- Reading the files is reading all their rows. -/
theorem foldlM_addFile {files : List CsvFile} {st next : SummaryState} (hseen : st.seen.Nodup) :
    files.foldlM (addFile py) st = .ok next ↔
      ∃ entries, (allRows files).mapM (rowEntry py) = some entries ∧ next.seen.Nodup ∧
        withInputs (entries.foldl addEntry st) (st.inputs ++ files.map fileInput) = next := by
  induction files generalizing st with
  | nil =>
    constructor
    · intro h
      cases h
      exact ⟨[], rfl, hseen, by rw [List.map_nil, List.append_nil]; rfl⟩
    · rintro ⟨entries, hentries, -, hnext⟩
      cases hentries
      rw [List.map_nil, List.append_nil] at hnext
      exact congrArg Except.ok hnext
  | cons file files ih =>
    have hrows : allRows (file :: files) = file.rows ++ allRows files := List.flatMap_cons
    have hstate : ∀ entries rest : List Entry,
        withInputs (rest.foldl addEntry (withInputs (entries.foldl addEntry st)
            (st.inputs ++ [fileInput file])))
          (st.inputs ++ [fileInput file] ++ files.map fileInput) =
        withInputs ((entries ++ rest).foldl addEntry st)
          (st.inputs ++ (file :: files).map fileInput) := by
      intro entries rest
      rw [foldl_withInputs, List.foldl_append, List.append_assoc, List.map_cons]
      rfl
    rw [List.foldlM_cons, bind_eq_ok, hrows, List.mapM_append]
    constructor
    · rintro ⟨mid, hfile, hrest⟩
      obtain ⟨entries, hentries, hnodup, rfl⟩ := (addFile_iff hseen).mp hfile
      obtain ⟨rest, hrest, hnodup', hnext⟩ := (ih hnodup).mp hrest
      refine ⟨entries ++ rest, ?_, hnodup', ?_⟩
      · rw [hentries, hrest]
        rfl
      · rw [← hstate]
        exact hnext
    · rintro ⟨all, hall, hnodup, hnext⟩
      simp only [Option.bind_eq_bind, Option.bind_eq_some_iff] at hall
      obtain ⟨entries, hentries, rest, hrest, hall⟩ := hall
      cases hall
      rw [← hstate] at hnext
      have hfirst : (withInputs (entries.foldl addEntry st)
          (st.inputs ++ [fileInput file])).seen.Nodup := by
        rw [← hnext, withInputs, seen_foldl] at hnodup
        exact (List.nodup_append.mp hnodup).2.1
      exact ⟨_, (addFile_iff hseen).mpr ⟨entries, hentries, hfirst, rfl⟩,
        (ih hfirst).mpr ⟨rest, hrest, hnodup, hnext⟩⟩

/-- The variables after all entries. -/
def collected (entries : List Entry) : SummaryState := entries.foldl addEntry {}

theorem classify_iff {files : List CsvFile} {s : Summary} :
    classify py files = .ok s ↔
      ∃ entries, (allRows files).mapM (rowEntry py) = some entries ∧
        (entries.map Entry.key).Nodup ∧
        (withInputs (collected entries) (files.map fileInput)).summary = s := by
  rw [classify, bind_eq_ok]
  have hseen : ∀ entries : List Entry,
      (withInputs (collected entries) (files.map fileInput)).seen.Nodup ↔
        (entries.map Entry.key).Nodup := by
    intro entries
    rw [withInputs, collected, seen_foldl, List.append_nil]
    exact List.nodup_reverse
  constructor
  · rintro ⟨st, hst, hs⟩
    obtain ⟨entries, hentries, hnodup, rfl⟩ := (foldlM_addFile List.nodup_nil).mp hst
    exact ⟨entries, hentries, (hseen entries).mp hnodup, Except.ok.inj hs⟩
  · rintro ⟨entries, hentries, hnodup, rfl⟩
    exact ⟨_, (foldlM_addFile List.nodup_nil).mpr
      ⟨entries, hentries, (hseen entries).mpr hnodup, rfl⟩, rfl⟩

/-! ## Rejection -/

theorem mapM_rowEntry_iff {rows : List Row} {entries : List Entry} :
    rows.mapM (rowEntry py) = some entries ↔ rows.map (rowEntry py) = entries.map some := by
  induction rows generalizing entries with
  | nil => cases entries <;> simp
  | cons row rows ih =>
    rw [List.mapM_cons]
    simp only [Option.bind_eq_bind, Option.bind_eq_some_iff]
    constructor
    · rintro ⟨e, hentry, rest, hrest, hentries⟩
      cases hentries
      rw [List.map_cons, List.map_cons, hentry, ih.mp hrest]
    · intro h
      cases entries with
      | nil => cases h
      | cons e rest =>
        rw [List.map_cons, List.map_cons, List.cons.injEq] at h
        exact ⟨e, h.1, rest, ih.mpr h.2, rfl⟩

theorem exists_mapM_of_not_defective {rows : List Row} (h : ∀ row ∈ rows, ¬ Defective py row) :
    ∃ entries, rows.mapM (rowEntry py) = some entries := by
  induction rows with
  | nil => exact ⟨[], rfl⟩
  | cons row rows ih =>
    obtain ⟨rest, hrest⟩ := ih fun r hr => h r (List.mem_cons_of_mem row hr)
    have hrow : rowEntry py row ≠ none := fun hnone =>
      h row List.mem_cons_self (defective_iff.mpr hnone)
    obtain ⟨e, hentry⟩ := Option.ne_none_iff_exists'.mp hrow
    refine ⟨e :: rest, ?_⟩
    rw [List.mapM_cons, hentry, hrest]
    rfl

/-- What each entry says of its row holds of the lists. -/
theorem map_entries {α : Type} {rows : List Row} {entries : List Entry}
    (h : rows.mapM (rowEntry py) = some entries) {f : Row → α} {g : Entry → α}
    (hfg : ∀ row e, rowEntry py row = some e → f row = g e) : rows.map f = entries.map g := by
  induction rows generalizing entries with
  | nil =>
    cases h
    rfl
  | cons row rows ih =>
    rw [List.mapM_cons] at h
    simp only [Option.bind_eq_bind, Option.bind_eq_some_iff] at h
    obtain ⟨e, hentry, rest, hrest, hentries⟩ := h
    cases hentries
    rw [List.map_cons, List.map_cons, hfg row e hentry, ih hrest]

theorem sharedKey_iff {rows : List Row} {entries : List Entry}
    (h : rows.mapM (rowEntry py) = some entries) :
    SharedKey py rows ↔ ¬ (entries.map Entry.key).Nodup := by
  have hkeys : rows.map (rowKey py) = entries.map fun e => some e.key :=
    map_entries h fun row e he => (rowEntry_iff.mp he).1
  have hat : ∀ (n : Nat) (key : CanonicalKey),
      (∃ row, rows[n]? = some row ∧ rowKey py row = some key) ↔
        (entries.map Entry.key)[n]? = some key := by
    intro n key
    have hn := congrArg (fun keys => keys[n]?) hkeys
    simp only [List.getElem?_map] at hn ⊢
    constructor
    · rintro ⟨row, hrow, hkey⟩
      rw [hrow, Option.map_some, hkey] at hn
      cases he : entries[n]? with
      | none =>
        rw [he] at hn
        cases hn
      | some e =>
        rw [he] at hn
        exact (Option.some.inj hn).symm
    · intro hkey
      cases he : entries[n]? with
      | none =>
        rw [he] at hkey
        cases hkey
      | some e =>
        rw [he] at hkey hn
        cases hrow : rows[n]? with
        | none =>
          rw [hrow] at hn
          cases hn
        | some row =>
          rw [hrow] at hn
          exact ⟨row, rfl, (Option.some.inj hn).trans hkey⟩
  rw [List.nodup_iff_getElem?_ne_getElem?]
  constructor
  · rintro ⟨i, j, first, second, key, hlt, hi, hj, hfirst, hsecond⟩ hdistinct
    have hik := (hat i key).mp ⟨first, hi, hfirst⟩
    have hjk := (hat j key).mp ⟨second, hj, hsecond⟩
    have hbound := (List.getElem?_eq_some_iff.mp hjk).1
    exact hdistinct i j hlt hbound (hik.trans hjk.symm)
  · intro hshared
    simp only [not_forall, not_not] at hshared
    obtain ⟨i, j, hlt, hbound, hsame⟩ := hshared
    have hjk := List.getElem?_eq_getElem hbound
    obtain ⟨first, hi, hfirst⟩ := (hat i _).mpr (hsame.trans hjk)
    obtain ⟨second, hj, hsecond⟩ := (hat j _).mpr hjk
    exact ⟨i, j, first, second, _, hlt, hi, hj, hfirst, hsecond⟩

theorem entries_eq_filterMap {rows : List Row} {entries : List Entry}
    (h : rows.mapM (rowEntry py) = some entries) : entries = rows.filterMap (rowEntry py) := by
  have hsome := congrArg (List.filterMap id) (mapM_rowEntry_iff.mp h)
  rw [List.filterMap_map, List.filterMap_map] at hsome
  simpa using hsome.symm

/-- No row that is read is defective. -/
theorem not_defective_of_entries {rows : List Row} {entries : List Entry}
    (h : rows.mapM (rowEntry py) = some entries) : ∀ row ∈ rows, ¬ Defective py row := by
  intro row hrow hdefective
  have hmem : rowEntry py row ∈ entries.map some :=
    mapM_rowEntry_iff.mp h ▸ List.mem_map_of_mem hrow
  rw [defective_iff.mp hdefective] at hmem
  obtain ⟨e, -, he⟩ := List.mem_map.mp hmem
  cases he

/-- The rows in another order list the entries in another order. -/
theorem exists_perm_entries {rows rows' : List Row} (hperm : rows'.Perm rows)
    {entries : List Entry} (h : rows.mapM (rowEntry py) = some entries) :
    ∃ entries', rows'.mapM (rowEntry py) = some entries' ∧ entries'.Perm entries := by
  have hall : ∀ row ∈ rows', ¬ Defective py row :=
    fun row hrow => not_defective_of_entries h row (hperm.mem_iff.mp hrow)
  obtain ⟨entries', h'⟩ := exists_mapM_of_not_defective hall
  refine ⟨entries', h', ?_⟩
  rw [entries_eq_filterMap h, entries_eq_filterMap h']
  exact hperm.filterMap _

theorem classify_rejects_iff (files : List CsvFile) :
    Rejects (classify py) files ↔
      (∃ row ∈ allRows files, Defective py row) ∨ SharedKey py (allRows files) := by
  rw [← not_iff_not, not_rejects_iff, not_or]
  constructor
  · rintro ⟨s, hs⟩
    obtain ⟨entries, hentries, hnodup, -⟩ := classify_iff.mp hs
    constructor
    · rintro ⟨row, hrow, hdefective⟩
      exact not_defective_of_entries hentries row hrow hdefective
    · exact fun hshared => (sharedKey_iff hentries).mp hshared hnodup
  · rintro ⟨hfine, hdistinct⟩
    have hall : ∀ row ∈ allRows files, ¬ Defective py row :=
      fun row hrow hdefective => hfine ⟨row, hrow, hdefective⟩
    obtain ⟨entries, hentries⟩ := exists_mapM_of_not_defective hall
    have hnodup : (entries.map Entry.key).Nodup := by
      by_contra hnot
      exact hdistinct ((sharedKey_iff hentries).mpr hnot)
    exact ⟨_, classify_iff.mpr ⟨entries, hentries, hnodup, rfl⟩⟩

/-! ## The tables -/

def counted (amount : Int) (counter : Counter) : Counter :=
  ⟨counter.count + 1, counter.amountAtto + amount⟩

/-- Entries counted by a key of theirs. -/
def countedBy {κ : Type} [DecidableEq κ] (key : Entry → κ) (table : List (κ × Counter))
    (entries : List Entry) : List (κ × Counter) :=
  grouped key {} (fun e => counted e.amount) table entries

theorem final_foldl (entries : List Entry) (st : SummaryState) :
    (entries.foldl addEntry st).final = countedBy Entry.classification st.final entries := by
  induction entries generalizing st with
  | nil => rfl
  | cons e entries ih => exact ih (addEntry st e)

theorem replay_foldl (entries : List Entry) (st : SummaryState) :
    (entries.foldl addEntry st).replay = countedBy Entry.replay st.replay entries := by
  induction entries generalizing st with
  | nil => rfl
  | cons e entries ih => exact ih (addEntry st e)

theorem bySourceShard_foldl (entries : List Entry) (st : SummaryState) :
    (entries.foldl addEntry st).bySourceShard =
      grouped (fun e => e.key.sourceShard) []
        (fun e shard => addCount shard e.classification e.amount) st.bySourceShard entries := by
  induction entries generalizing st with
  | nil => rfl
  | cons e entries ih => exact ih (addEntry st e)

theorem foldl_counted (entries : List Entry) (counter : Counter) :
    entries.foldl (fun c e => counted e.amount c) counter =
      ⟨counter.count + entries.length, counter.amountAtto + (entries.map Entry.amount).sum⟩ := by
  induction entries generalizing counter with
  | nil => simp
  | cons e entries ih =>
    rw [List.foldl_cons, ih, List.length_cons, List.map_cons, List.sum_cons]
    simp only [counted, Counter.mk.injEq]
    omega

section Order
variable {κ : Type} [DecidableEq κ] {key : Entry → κ} {table : List (κ × Counter)}
  {entries entries' : List Entry}

theorem nodup_countedBy (h : (table.map Prod.fst).Nodup) :
    ((countedBy key table entries).map Prod.fst).Nodup :=
  nodup_grouped key _ (fun e => counted e.amount) h entries

/-- The counters of a key do not depend on the order of the entries. -/
theorem lookup_countedBy_perm (hperm : entries.Perm entries') (k : κ) :
    (countedBy key table entries).lookup k = (countedBy key table entries').lookup k := by
  have hown : ∀ own own' : List Entry, own.Perm own' → ∀ counter : Counter,
      own.foldl (fun c e => counted e.amount c) counter =
        own'.foldl (fun c e => counted e.amount c) counter := by
    intro own own' hown counter
    rw [foldl_counted, foldl_counted, hown.length_eq, (hown.map Entry.amount).sum_eq]
  have hsame : ((countedBy key table entries).lookup k).map id =
      ((countedBy key table entries').lookup k).map id :=
    map_lookup_grouped_perm key {} (fun e => counted e.amount)
      (fun own own' h => hown own own' h _) hperm
  rwa [Option.map_id, id, id] at hsame

theorem countedBy_perm (htable : (table.map Prod.fst).Nodup) (hperm : entries.Perm entries') :
    (countedBy key table entries).Perm (countedBy key table entries') :=
  perm_of_lookup (nodup_countedBy htable) (nodup_countedBy htable) (lookup_countedBy_perm hperm)

end Order

theorem nodup_named {table : List (Classification × Counter)}
    (h : (table.map Prod.fst).Nodup) : ((named table).map Prod.fst).Nodup := by
  have hkeys : (named table).map Prod.fst = (table.map Prod.fst).map Classification.text := by
    rw [named, List.map_map, List.map_map]
    rfl
  rw [hkeys]
  exact h.map fun _ _ => LeakCredit.Classification.text_injective

theorem encoded_named_perm {table table' : List (Classification × Counter)}
    (h : (table.map Prod.fst).Nodup) (hperm : table.Perm table') :
    encoded (named table) = encoded (named table') :=
  sorted_eq_of_perm (nodup_named h) (hperm.map _)

/-- The entries of each shard, counted by class. -/
def shardTables (entries : List Entry) : List (Int × List (Classification × Counter)) :=
  grouped (fun e => e.key.sourceShard) []
    (fun e shard => addCount shard e.classification e.amount) [] entries

theorem nodup_shards (entries : List Entry) : ((shardTables entries).map Prod.fst).Nodup := by
  apply nodup_grouped
  exact List.nodup_nil

/-- The shards are listed in order, each with its own classes in order. -/
theorem shards_perm {entries entries' : List Entry} (hperm : entries.Perm entries') :
    (collected entries).summary.bySourceShard = (collected entries').summary.bySourceShard := by
  have hlisted : ∀ es : List Entry, (collected es).summary.bySourceShard =
      ((sorted (collected es).bySourceShard).map
        (Prod.map id fun shard => encoded (named shard))).map
          (Prod.map (fun shard : Int => toString shard) id) := by
    intro es
    rw [List.map_map]
    rfl
  have htables : ∀ es : List Entry, (collected es).bySourceShard = shardTables es :=
    fun es => bySourceShard_foldl es {}
  rw [hlisted, hlisted, htables, htables]
  apply congrArg
  apply map_sorted_eq_of_lookup
  · exact nodup_shards entries
  · exact nodup_shards entries'
  · intro shard
    refine map_lookup_grouped_perm _ _ _ ?_ hperm
    intro own own' hown
    exact encoded_named_perm (nodup_countedBy List.nodup_nil)
      (countedBy_perm List.nodup_nil hown)

/-! ## Totals -/

section Totals
variable {M : Type} [AddCancelCommMonoid M] {share : Counter → M} {weight : Entry → M}

theorem total_countedBy {κ : Type} [DecidableEq κ] {key : Entry → κ} (hzero : share {} = 0)
    (hadd : ∀ e c, share (counted e.amount c) = share c + weight e)
    {table : List (κ × Counter)} (h : (table.map Prod.fst).Nodup) (entries : List Entry) :
    total share (countedBy key table entries) = total share table + (entries.map weight).sum :=
  total_grouped key _ (fun e => counted e.amount) (P := fun _ => True) trivial hzero
    (fun _ _ _ => trivial) (fun e c _ => hadd e c) h (fun _ _ => trivial) entries

theorem total_shardTables (hzero : share {} = 0)
    (hadd : ∀ e c, share (counted e.amount c) = share c + weight e) (entries : List Entry) :
    total (total share) (shardTables entries) = (entries.map weight).sum := by
  have hnil : (([] : List (Int × List (Classification × Counter))).map Prod.fst).Nodup :=
    List.nodup_nil
  have hcount : ∀ (e : Entry) (shard : List (Classification × Counter)),
      (shard.map Prod.fst).Nodup →
      total share (addCount shard e.classification e.amount) = total share shard + weight e :=
    fun e shard hshard => total_update_add hshard e.classification hzero (hadd e)
  have hsum := total_grouped (fun e : Entry => e.key.sourceShard) []
    (fun e shard => addCount shard e.classification e.amount)
    (P := fun shard : List (Classification × Counter) => (shard.map Prod.fst).Nodup)
    List.nodup_nil rfl (fun e shard hshard => nodup_update hshard _ _ _) hcount
    hnil (fun _ hentry => absurd hentry List.not_mem_nil) entries
  rw [shardTables, hsum]
  exact zero_add _

theorem sum_encoded (table : List (String × Counter)) :
    ((encoded table).map fun entry => share entry.2).sum = total share table :=
  ((perm_sorted table).map _).sum_eq

theorem sum_encoded_named (table : List (Classification × Counter)) :
    ((encoded (named table)).map fun entry => share entry.2).sum = total share table := by
  rw [sum_encoded, total, named, List.map_map]
  rfl

theorem sum_shards (entries : List Entry) :
    (((collected entries).summary.bySourceShard.flatMap Prod.snd).map
      fun entry => share entry.2).sum = total (total share) (shardTables entries) := by
  have htables : (collected entries).bySourceShard = shardTables entries :=
    bySourceShard_foldl entries {}
  have hlisted : (collected entries).summary.bySourceShard =
      (sorted (shardTables entries)).map fun entry =>
        (toString entry.1, encoded (named entry.2)) := by
    rw [← htables]
    rfl
  rw [hlisted, sum_map_flatMap, List.map_map]
  calc ((sorted (shardTables entries)).map fun entry =>
        ((encoded (named entry.2)).map fun e => share e.2).sum).sum
      = ((sorted (shardTables entries)).map fun entry => total share entry.2).sum := by
        simp only [sum_encoded_named]
    _ = total (total share) (shardTables entries) := ((perm_sorted _).map _).sum_eq

end Totals

/-! ## The summary -/

/-- The amounts of the rows of a class. -/
def classAmount (py : PyText) (rows : List Row) (c : Classification) : Int :=
  ((rows.filter fun row => rowClassification row = some c).map fun row =>
    (rowAmount py row).getD 0).sum

/-- The summary conserves receipts and amounts. -/
structure Conserved (py : PyText) (rows : List Row) (s : Summary) : Prop where
  receipts : s.receipts = rows.length
  final_count : (s.byFinalClassification.map fun entry => entry.2.count).sum = s.receipts
  final_amount : (s.byFinalClassification.map fun entry => entry.2.amountAtto).sum =
    (rows.map fun row => (rowAmount py row).getD 0).sum
  replay_count : (s.byReplayClassification.map fun entry => entry.2.count).sum = s.receipts
  replay_amount : (s.byReplayClassification.map fun entry => entry.2.amountAtto).sum =
    (rows.map fun row => (rowAmount py row).getD 0).sum
  shard_count : ((s.bySourceShard.flatMap Prod.snd).map fun entry => entry.2.count).sum =
    s.receipts
  shard_amount : ((s.bySourceShard.flatMap Prod.snd).map fun entry => entry.2.amountAtto).sum =
    (rows.map fun row => (rowAmount py row).getD 0).sum
  unbacked : s.unbackedCrossShardCreditAtto =
    classAmount py rows .rollbackLeak + classAmount py rows .sourceDebitAbsent
  unbacked_listed : s.unbackedCrossShardCreditAtto =
    shareAt Counter.amountAtto s.byFinalClassification Classification.rollbackLeak.text +
      shareAt Counter.amountAtto s.byFinalClassification Classification.sourceDebitAbsent.text

/-- The two summaries agree on all but the listing of the input files. -/
def SameButInputs (s s' : Summary) : Prop := { s with inputs := [] } = { s' with inputs := [] }

theorem amountOf_collected (entries : List Entry) (c : Classification) :
    amountOf (collected entries).final c =
      (entries.map fun e => if c = e.classification then e.amount else 0).sum := by
  have hstep : ∀ st e, amountOf (addEntry st e).final c =
      amountOf st.final c + if c = e.classification then e.amount else 0 :=
    fun st e => LeakCredit.amountOf_addCount st.final e.classification e.amount c
  have hfold := foldl_total (fun st : SummaryState => amountOf st.final c) hstep entries {}
  have hstart : amountOf ({} : SummaryState).final c = 0 := by cases c <;> rfl
  rw [hstart, zero_add] at hfold
  exact hfold

theorem amounts_entries {rows : List Row} {entries : List Entry}
    (h : rows.mapM (rowEntry py) = some entries) :
    (rows.map fun row => (rowAmount py row).getD 0) = entries.map Entry.amount := by
  apply map_entries h
  intro row e hentry
  rw [(rowEntry_iff.mp hentry).2.1, Option.getD_some]

theorem classAmount_eq {rows : List Row} {entries : List Entry}
    (h : rows.mapM (rowEntry py) = some entries) (c : Classification) :
    classAmount py rows c = amountOf (collected entries).final c := by
  have hweights : (rows.map fun row =>
      if rowClassification row = some c then (rowAmount py row).getD 0 else 0) =
        entries.map fun e => if c = e.classification then e.amount else 0 := by
    apply map_entries h
    intro row e hentry
    obtain ⟨-, hamount, hclass, -⟩ := rowEntry_iff.mp hentry
    simp only [hclass, hamount, Option.getD_some, Option.some.injEq, eq_comm]
  have hown : ∀ row ∈ rows.filter (fun row => decide (rowClassification row = some c)),
      (rowAmount py row).getD 0 =
        if rowClassification row = some c then (rowAmount py row).getD 0 else 0 :=
    fun row hrow => (if_pos (of_decide_eq_true (List.mem_filter.mp hrow).2)).symm
  rw [amountOf_collected, ← hweights, classAmount, List.map_congr_left hown]
  exact sum_map_filter fun row _ hother => if_neg (of_decide_eq_false hother)

theorem lookup_named (table : List (Classification × Counter)) (c : Classification) :
    (named table).lookup c.text = table.lookup c := by
  induction table with
  | nil => rfl
  | cons entry rest ih =>
    obtain ⟨c', counter⟩ := entry
    by_cases hc : c = c'
    · rw [hc, lookup_cons_self]
      exact lookup_cons_self _ _ _
    · have htext : c.text ≠ c'.text := fun h => hc (LeakCredit.Classification.text_injective h)
      rw [lookup_cons_of_ne hc, ← ih]
      exact lookup_cons_of_ne htext _ _

theorem shareAt_encoded {table : List (Classification × Counter)}
    (h : (table.map Prod.fst).Nodup) (c : Classification) :
    shareAt Counter.amountAtto (encoded (named table)) c.text = amountOf table c := by
  have hperm : (named table).Perm (encoded (named table)) := (perm_sorted (named table)).symm
  rw [shareAt, ← lookup_perm (nodup_named h) hperm, lookup_named]
  rfl

theorem nodup_final : ((({} : SummaryState).final).map Prod.fst).Nodup := by decide

theorem nodup_replay : ((({} : SummaryState).replay).map Prod.fst).Nodup := List.nodup_nil

theorem conserved_collected {rows : List Row} {entries : List Entry}
    (h : rows.mapM (rowEntry py) = some entries) (inputs : List (String × Nat)) :
    Conserved py rows (withInputs (collected entries) inputs).summary := by
  have hlength : (collected entries).seen.length = entries.length := by
    rw [collected, seen_foldl]
    simp
  have hrows : rows.length = entries.length := by
    have hmap := congrArg List.length (amounts_entries h)
    simpa using hmap
  have hones : (entries.map fun _ => 1).sum = entries.length := by simp
  have hfinal : (collected entries).final = countedBy Entry.classification _ entries :=
    final_foldl entries {}
  have hreplay : (collected entries).replay = countedBy Entry.replay _ entries :=
    replay_foldl entries {}
  have hnodup : ((collected entries).final.map Prod.fst).Nodup :=
    hfinal ▸ nodup_countedBy nodup_final
  constructor
  · exact hlength.trans hrows.symm
  · calc _ = total Counter.count (collected entries).final := sum_encoded_named _
      _ = 0 + (entries.map fun _ => 1).sum := by
        rw [hfinal]
        exact total_countedBy rfl (fun _ _ => rfl) nodup_final entries
      _ = (collected entries).seen.length := by rw [hones, hlength, Nat.zero_add]
  · calc _ = total Counter.amountAtto (collected entries).final := sum_encoded_named _
      _ = 0 + (entries.map Entry.amount).sum := by
        rw [hfinal]
        exact total_countedBy rfl (fun _ _ => rfl) nodup_final entries
      _ = _ := by rw [amounts_entries h, Int.zero_add]
  · calc _ = total Counter.count (collected entries).replay := sum_encoded _
      _ = 0 + (entries.map fun _ => 1).sum := by
        rw [hreplay]
        exact total_countedBy rfl (fun _ _ => rfl) nodup_replay entries
      _ = (collected entries).seen.length := by rw [hones, hlength, Nat.zero_add]
  · calc _ = total Counter.amountAtto (collected entries).replay := sum_encoded _
      _ = 0 + (entries.map Entry.amount).sum := by
        rw [hreplay]
        exact total_countedBy rfl (fun _ _ => rfl) nodup_replay entries
      _ = _ := by rw [amounts_entries h, Int.zero_add]
  · calc _ = total (total Counter.count) (shardTables entries) := sum_shards entries
      _ = (entries.map fun _ => 1).sum := total_shardTables rfl (fun _ _ => rfl) entries
      _ = (collected entries).seen.length := by rw [hones, hlength]
  · calc _ = total (total Counter.amountAtto) (shardTables entries) := sum_shards entries
      _ = (entries.map Entry.amount).sum := total_shardTables rfl (fun _ _ => rfl) entries
      _ = _ := by rw [amounts_entries h]
  · rw [classAmount_eq h, classAmount_eq h]
    rfl
  · calc _ = amountOf (collected entries).final .rollbackLeak +
          amountOf (collected entries).final .sourceDebitAbsent := rfl
      _ = _ := by
        rw [← shareAt_encoded hnodup, ← shareAt_encoded hnodup]
        rfl

/-- Entries in another order, under another listing of inputs, make the same summary. -/
theorem sameButInputs_of_perm {entries entries' : List Entry} (hperm : entries.Perm entries')
    (inputs inputs' : List (String × Nat)) :
    SameButInputs (withInputs (collected entries) inputs).summary
      (withInputs (collected entries') inputs').summary := by
  have hfinal : ∀ es : List Entry,
      (collected es).final = countedBy Entry.classification _ es := fun es => final_foldl es {}
  have hreplay : ∀ es : List Entry, (collected es).replay = countedBy Entry.replay _ es :=
    fun es => replay_foldl es {}
  have hseen : (collected entries).seen.length = (collected entries').seen.length := by
    rw [collected, collected, seen_foldl, seen_foldl]
    simp [hperm.length_eq]
  have hfinals : (collected entries).final.Perm (collected entries').final := by
    rw [hfinal, hfinal]
    exact countedBy_perm nodup_final hperm
  have hnodup : ((collected entries).final.map Prod.fst).Nodup := by
    rw [hfinal]
    exact nodup_countedBy nodup_final
  have hclasses : encoded (named (collected entries).final) =
      encoded (named (collected entries').final) := encoded_named_perm hnodup hfinals
  have hreplays : encoded (collected entries).replay = encoded (collected entries').replay := by
    rw [hreplay, hreplay]
    exact sorted_eq_of_perm (nodup_countedBy nodup_replay) (countedBy_perm nodup_replay hperm)
  have hamounts : ∀ c, amountOf (collected entries).final c =
      amountOf (collected entries').final c := by
    intro c
    rw [amountOf, amountOf, shareAt, shareAt, lookup_perm hnodup hfinals]
  rw [SameButInputs]
  simp only [SummaryState.summary, Summary.mk.injEq, withInputs, hamounts, true_and, and_true]
  exact ⟨hseen, hclasses, hreplays, shards_perm hperm⟩

/-- The summary of source audits rejects defective rows and repeated receipts;
otherwise it conserves them and depends on the rows alone. -/
theorem classify_conserves (py : PyText) (files : List CsvFile) :
    (Rejects (classify py) files ↔
      (∃ row ∈ allRows files, Defective py row) ∨ SharedKey py (allRows files)) ∧
    ∀ s, classify py files = .ok s → Conserved py (allRows files) s ∧
      ∀ files', (allRows files').Perm (allRows files) →
        ∃ s', classify py files' = .ok s' ∧ SameButInputs s' s := by
  refine ⟨classify_rejects_iff files, ?_⟩
  intro s hs
  obtain ⟨entries, hentries, hnodup, rfl⟩ := classify_iff.mp hs
  refine ⟨conserved_collected hentries _, ?_⟩
  intro files' hperm
  obtain ⟨entries', hentries', hperm'⟩ := exists_perm_entries hperm hentries
  have hnodup' : (entries'.map Entry.key).Nodup :=
    ((hperm'.map Entry.key).nodup_iff).mpr hnodup
  exact ⟨_, classify_iff.mpr ⟨entries', hentries', hnodup', rfl⟩,
    sameButInputs_of_perm hperm' _ _⟩

/-- A row of the script's own test. -/
def auditRow (index : Nat) (classification replay : String) (amount : Nat) : Row :=
  [("audit_source_shard", some (toString (index % 2))),
    ("audit_destination_shard", some (toString (1 - index % 2))),
    ("audit_source_block", some (toString (100 + index))),
    ("audit_source_block_hash", some ("0x0" ++ toString (index + 1))),
    ("receipt_index", some "0"), ("tx_hash", some ("0x" ++ toString (index + 10))),
    ("amount_atto", some (toString amount)), ("replay_classification", some replay),
    ("classification", some classification)]

example : ((classify PyText.ascii [⟨"a.csv", [auditRow 0 "rollback_leak" "rollback_leak" 10,
      auditRow 1 "source_debit_absent" "replay_incompatible" 20]⟩,
    ⟨"b.csv", [auditRow 2 "valid_source_debit" "valid_source_debit" 30,
      auditRow 3 "unclassified" "unclassified" 40]⟩]).map fun s =>
        (s.receipts, s.unbackedCrossShardCreditAtto)) = .ok (4, 30) := by
  decide +kernel

end SourceAuditTotals
