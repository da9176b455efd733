import SupplyAudit.FileStore
import SupplyAudit.SourceAuditRuns

/-!
# The file of the source audit

The audit is written directly under its name, with the columns of its first
row. A later row with a column of its own stops the writer in the middle of the
file. Ledgers of two formats have such rows.
-/

namespace SourceAuditFile

open ScriptValues FallibleScan KeyedTable TraceInspection AuditFiles SourceAudit SourceAuditRuns
  FileStore

/-- A file of cells; its first line is the header. -/
abbrev Lines := List (List String)

variable (py : AuditText)

structure Collected where
  table : EvidenceTable
  rows : List Row
  state : RunState

/-- The run up to the opening of the output. -/
def collect (args : Args) (node : Node) (evidenceFiles : List EvidenceFile)
    (ledgers : List CsvFile) : Except AuditError Collected := do
  let table ← loadIndependentEvidence py evidenceFiles
  let selected ← selectRows py args ledgers
  let rows := sortRows py selected
  let keys ← rows.mapM (receiptIdentity py)
  require keys.Nodup (.valueError "duplicate canonical receipt rows in selected inputs")
  let st ← rows.zipIdx.foldlM (auditRow py node table) {}
  let unused := (table.map Prod.fst).filter fun key => key ∉ st.usedEvidenceKeys
  require (unused = []) (.valueError (toString unused.length ++
    " independent evidence rows did not match the selected canonical receipts"))
  .ok ⟨table, rows, st⟩

/-- The cells of a row under the header. -/
def dictLine (fields : List String) (row : Row) : List String :=
  fields.map fun field => ((row.lookup field).join).getD ""

/-- `DictWriter.writerows`, below the lines that are already there. -/
def writeRows (path : String) (fields : List String) :
    List Row → Lines → Action Lines AuditError PUnit
  | [], _ => pure ⟨⟩
  | row :: rest, done => do
    lift (require (∀ cell ∈ row, cell.1 ∈ fields)
      (.valueError "dict contains fields not in fieldnames"))
    writeTo path (done ++ [dictLine fields row]) none
    writeRows path fields rest (done ++ [dictLine fields row])

def Collected.summary (run : Collected) : Summary :=
  ⟨run.rows.length, run.state.totals, run.state.replayTotals, run.state.evidenceCount,
    run.state.evidenceAmount, run.table.length⟩

def main (args : Args) (node : Node) (evidenceFiles : List EvidenceFile)
    (ledgers : List CsvFile) : Action Lines AuditError Summary := do
  let run ← lift (collect py args node evidenceFiles ledgers)
  let fields := outputFields run.state.outputRows
  createNew args.output [] (.fileExists args.output)
  writeTo args.output [fields] none
  writeRows args.output fields run.state.outputRows [fields]
  pure run.summary

/-! ## The writer -/

section Writer

variable (path : String) {fields : List String} {rows : List Row}

theorem writeRows_ok (h : ∀ row ∈ rows, ∀ cell ∈ row, cell.1 ∈ fields) (done : Lines)
    (d : Disk Lines) :
    writeRows path fields rows done (d.put path done) =
      (.ok ⟨⟩, d.put path (done ++ rows.map (dictLine fields))) := by
  induction rows generalizing done with
  | nil => simp [writeRows]
  | cons row rest ih =>
    obtain ⟨hrow, hrest⟩ := List.forall_mem_cons.mp h
    have hcheck : lift (require (∀ cell ∈ row, cell.1 ∈ fields)
        (.valueError "dict contains fields not in fieldnames")) (d.put path done) =
        (.ok ⟨⟩, d.put path done) := by
      rw [lift_run, require_of hrow]
    rw [writeRows, Action.bind_ok hcheck, Action.bind_ok (writeTo_held ..), ih hrest]
    simp

/-- A row with a column outside the header leaves the file cut short. -/
theorem writeRows_fails (h : ¬ ∀ row ∈ rows, ∀ cell ∈ row, cell.1 ∈ fields) (done : Lines)
    (d : Disk Lines) :
    ∃ e lines, writeRows path fields rows done (d.put path done) =
      (.error e, d.put path lines) := by
  induction rows generalizing done with
  | nil => exact absurd (fun row hrow => absurd hrow List.not_mem_nil) h
  | cons row rest ih =>
    by_cases hrow : ∀ cell ∈ row, cell.1 ∈ fields
    · have hrest : ¬ ∀ row ∈ rest, ∀ cell ∈ row, cell.1 ∈ fields :=
        fun hrest => h (List.forall_mem_cons.mpr ⟨hrow, hrest⟩)
      have hcheck : lift (require (∀ cell ∈ row, cell.1 ∈ fields)
          (.valueError "dict contains fields not in fieldnames")) (d.put path done) =
          (.ok ⟨⟩, d.put path done) := by
        rw [lift_run, require_of hrow]
      rw [writeRows, Action.bind_ok hcheck, Action.bind_ok (writeTo_held ..)]
      exact ih hrest _
    · refine ⟨.valueError "dict contains fields not in fieldnames", done, ?_⟩
      have hcheck : lift (require (∀ cell ∈ row, cell.1 ∈ fields)
          (.valueError "dict contains fields not in fieldnames")) (d.put path done) =
          (.error (.valueError "dict contains fields not in fieldnames"), d.put path done) := by
        rw [lift_run, require, if_neg hrow]
      rw [writeRows]
      exact Action.bind_error hcheck _

end Writer

variable {py} {args : Args} {node : Node} {evidenceFiles : List EvidenceFile}
  {ledgers : List CsvFile} {d : Disk Lines}

/-! ## The run -/

/-- The run on the rows alone, cut where the output is opened. -/
theorem sourceAudit_main (outputExists : Bool) :
    SourceAudit.main py args node outputExists evidenceFiles ledgers =
      (do
        let run ← collect py args node evidenceFiles ledgers
        require (outputExists = false) (.fileExists args.output)
        require (∀ row ∈ run.state.outputRows, ∀ cell ∈ row,
            cell.1 ∈ outputFields run.state.outputRows)
          (.valueError "dict contains fields not in fieldnames")
        .ok ⟨outputFields run.state.outputRows, run.state.outputRows, run.summary⟩) := by
  simp only [SourceAudit.main, collect, bind_assoc, bind_ok, Collected.summary]

/-- A run that stops before the output is opened has not touched the disk. -/
theorem main_stops {e : AuditError} (h : collect py args node evidenceFiles ledgers = .error e) :
    main py args node evidenceFiles ledgers d = (.error e, d) := by
  rw [main, h]
  exact Action.bind_error (lift_run ..) _

theorem main_refuses {run : Collected} {old : Lines}
    (h : collect py args node evidenceFiles ledgers = .ok run) (hold : d args.output = some old) :
    main py args node evidenceFiles ledgers d = (.error (.fileExists args.output), d) := by
  rw [main, h, Action.bind_ok (lift_run ..)]
  exact Action.bind_error (createNew_taken hold ..) _

/-- A run that opens its output is what the writer makes of the rows. -/
theorem main_writes {run : Collected} (h : collect py args node evidenceFiles ledgers = .ok run)
    (hfree : d args.output = none) :
    main py args node evidenceFiles ledgers d =
      (writeRows args.output (outputFields run.state.outputRows) run.state.outputRows
          [outputFields run.state.outputRows] >>= fun _ => pure run.summary)
        (d.put args.output [outputFields run.state.outputRows]) := by
  rw [main, h, Action.bind_ok (lift_run ..), Action.bind_ok (createNew_free hfree ..),
    Action.bind_ok (writeTo_held ..)]

/-- The run over a disk returns as the run on the rows alone. -/
theorem main_returns_iff {summary : Summary} :
    (∃ next, main py args node evidenceFiles ledgers d = (.ok summary, next)) ↔
      ∃ out, SourceAudit.main py args node (d args.output).isSome evidenceFiles ledgers = .ok out ∧
        out.summary = summary := by
  rw [sourceAudit_main]
  cases h : collect py args node evidenceFiles ledgers with
  | error e =>
    rw [main_stops h]
    simp
  | ok run =>
    cases hold : d args.output with
    | some old =>
      rw [main_refuses h hold]
      simp [require]
    | none =>
      have hopen : require ((none : Option Lines).isSome = false)
          (.fileExists args.output) = .ok () := require_of rfl _
      rw [main_writes h hold]
      by_cases hfields : ∀ row ∈ run.state.outputRows, ∀ cell ∈ row,
          cell.1 ∈ outputFields run.state.outputRows
      · rw [Action.bind_ok (writeRows_ok args.output hfields _ d), Action.pure_run, bind_ok, hopen, bind_ok,
          require_of hfields, bind_ok]
        simp
      · obtain ⟨e, lines, hrun⟩ := writeRows_fails args.output hfields [outputFields run.state.outputRows] d
        rw [Action.bind_error hrun, bind_ok, hopen, bind_ok, require, if_neg hfields]
        simp

/-! ## Columns -/

theorem inspection_length {numbered : Row × Nat} {table : EvidenceTable} {a : Audited}
    (h : Examined py node table numbered a) : a.judgement.inspection.length = 6 := by
  obtain hdirect | ⟨trace, -, hreplay⟩ := judge_cases h.judged
  · rw [hdirect]
    rfl
  · rw [hreplay]
    rfl

/-- The columns of a written row: those of its receipt and those of the audit. -/
theorem mem_keys_output {a : Audited} (h : a.judgement.inspection.length = 6) (name : String) :
    name ∈ a.output.map Prod.fst ↔ name ∈ writtenNames ∨ name ∈ a.row.map Prod.fst := by
  have hzip : (inspectionFields.zip a.judgement.inspection).map Prod.fst = inspectionFields := by
    apply List.map_fst_zip
    rw [h]
    decide
  rw [Audited.output, mem_keys_foldl_set, List.map_append, List.map_append, hzip]
  refine or_congr (List.Perm.mem_iff ?_) Iff.rfl
  simp only [List.map_cons, List.map_nil]
  decide

/-- Every column of a row is one of the first row or one that the audit adds. -/
def Covered (rows : List Row) : Prop :=
  ∀ row ∈ rows, ∀ name ∈ row.map Prod.fst, name ∈ outputFields rows ∨ name ∈ writtenNames

/-- The line holds the columns of the receipt, apart from those the audit sets itself. -/
structure Records (fields : List String) (row : Row) (line : List String) : Prop where
  width : line.length = fields.length
  cells : ∀ name value, row.lookup name = some value → name ∉ writtenNames →
    (name, value.getD "") ∈ fields.zip line

/-- What a run that opens its output has collected. -/
theorem collect_ok {run : Collected} (h : collect py args node evidenceFiles ledgers = .ok run) :
    ∃ selected audited, selectRows py args ledgers = .ok selected ∧
      run.rows = sortRows py selected ∧ run.state.outputRows = audited.map Audited.output ∧
      List.Forall₂ (fun row a => a.row = row ∧ a.judgement.inspection.length = 6) run.rows
        audited := by
  simp only [collect, bind_eq_ok] at h
  obtain ⟨table, -, selected, hselected, keys, -, -, -, st, hst, -, -, hrun⟩ := h
  cases hrun
  obtain ⟨audited, hinv⟩ := run_ok hst
  refine ⟨selected, audited, hselected, rfl, hinv.outputs, ?_⟩
  change List.Forall₂ _ (sortRows py selected) audited
  rw [← List.zipIdx_map_fst 0 (sortRows py selected), List.forall₂_map_left_iff]
  exact hinv.examined.imp fun _ _ hexamined => ⟨hexamined.row, inspection_length hexamined⟩

/-- The writer takes every row exactly when the first one has the columns of all. -/
theorem fields_cover_iff {rows : List Row} {audited : List Audited}
    (h : List.Forall₂ (fun row a => a.row = row ∧ a.judgement.inspection.length = 6) rows
      audited) :
    (∀ row ∈ audited.map Audited.output, ∀ cell ∈ row,
        cell.1 ∈ outputFields (audited.map Audited.output)) ↔ Covered rows := by
  cases h with
  | nil => simp [Covered]
  | @cons first a rest audited hfirst hrest =>
    have hheader : ∀ name, name ∈ outputFields ((a :: audited).map Audited.output) ↔
        name ∈ outputFields (first :: rest) ∨ name ∈ writtenNames := by
      intro name
      change name ∈ a.output.map Prod.fst ↔ name ∈ first.map Prod.fst ∨ name ∈ writtenNames
      rw [mem_keys_output hfirst.2, hfirst.1, or_comm]
    have hall : List.Forall₂ (fun row (b : Audited) => b.row = row ∧
        b.judgement.inspection.length = 6) (first :: rest) (a :: audited) := .cons hfirst hrest
    constructor
    · intro hfields row hrow name hname
      obtain ⟨b, hb, hbrow, hlen⟩ := forall₂_exists_left hall hrow
      have hout : name ∈ b.output.map Prod.fst :=
        (mem_keys_output hlen name).mpr (Or.inr (hbrow ▸ hname))
      obtain ⟨cell, hcell, rfl⟩ := List.mem_map.mp hout
      exact (hheader cell.1).mp (hfields _ (List.mem_map_of_mem hb) cell hcell)
    · intro hcovered row hrow cell hcell
      obtain ⟨b, hb, rfl⟩ := List.mem_map.mp hrow
      obtain ⟨source, hsource, hbrow, hlen⟩ := forall₂_exists_right hall hb
      rw [hheader]
      obtain hwritten | hown := (mem_keys_output hlen cell.1).mp (List.mem_map_of_mem hcell)
      · exact Or.inr hwritten
      · exact hcovered source hsource cell.1 (hbrow ▸ hown)

/-- The line of an audited receipt holds its columns. -/
theorem records_output {rows : List Row} {audited : List Audited}
    (h : List.Forall₂ (fun row a => a.row = row ∧ a.judgement.inspection.length = 6) rows
      audited)
    (hfields : ∀ row ∈ audited.map Audited.output, ∀ cell ∈ row,
      cell.1 ∈ outputFields (audited.map Audited.output)) :
    List.Forall₂ (Records (outputFields (audited.map Audited.output))) rows
      ((audited.map Audited.output).map
        (dictLine (outputFields (audited.map Audited.output)))) := by
  generalize outputFields (audited.map Audited.output) = fields at hfields ⊢
  rw [List.map_map, List.forall₂_map_right_iff]
  have hmem := (List.forall₂_and_left audited rows).mpr ⟨fun _ ha => ha, h.flip⟩
  apply hmem.flip.imp
  rintro row a ⟨ha, rfl, hlen⟩
  constructor
  case width => exact List.length_map _
  case cells =>
    intro name value hvalue hname
    have hkept : a.output.lookup name = some value := by
      rw [lookup_output a hname, hvalue]
    have hin : name ∈ fields := by
      obtain ⟨cell, hcell, rfl⟩ := List.mem_map.mp
        ((mem_keys_output hlen name).mpr (Or.inr (List.mem_map_of_mem (mem_of_lookup hvalue))))
      exact hfields _ (List.mem_map_of_mem ha) cell hcell
    simp only [Function.comp_apply, dictLine, ← List.map_prod_left_eq_zip, List.mem_map]
    exact ⟨name, hin, by rw [hkept]; rfl⟩

/-! ## All or nothing -/

/-- A run that fails leaves no file; one that returns leaves the header and a line for every
selected receipt. -/
def AllOrNothing (py : AuditText) (args : Args) (node : Node) (evidenceFiles : List EvidenceFile)
    (ledgers : List CsvFile) (d : Disk Lines) : Prop :=
  match main py args node evidenceFiles ledgers d with
  | (.error _, next) => next args.output = none
  | (.ok _, next) =>
    ∃ selected fields lines, selectRows py args ledgers = .ok selected ∧
      next args.output = some (fields :: lines) ∧
      List.Forall₂ (Records fields) (sortRows py selected) lines

/-- The run stops before it opens its output: at its evidence, its receipts or the node. -/
def StopsBeforeWriting (py : AuditText) (args : Args) (node : Node)
    (evidenceFiles : List EvidenceFile) (ledgers : List CsvFile) : Prop :=
  ∃ e, collect py args node evidenceFiles ledgers = .error e

/-- The audit is written in full or not at all exactly when its name is free and the first of the
sorted receipts has the columns of all. -/
theorem all_or_nothing_iff (py : AuditText) (args : Args) (node : Node)
    (evidenceFiles : List EvidenceFile) (ledgers : List CsvFile) (d : Disk Lines) :
    AllOrNothing py args node evidenceFiles ledgers d ↔
      d args.output = none ∧ (StopsBeforeWriting py args node evidenceFiles ledgers ∨
        ∀ selected, selectRows py args ledgers = .ok selected →
          Covered (sortRows py selected)) := by
  cases h : collect py args node evidenceFiles ledgers with
  | error e =>
    simp only [AllOrNothing, main_stops h, StopsBeforeWriting, h]
    simp
  | ok run =>
    cases hold : d args.output with
    | some old =>
      simp only [AllOrNothing, main_refuses h hold, hold]
      simp
    | none =>
      obtain ⟨selected, audited, hselected, hrows, houtputs, hall⟩ := collect_ok h
      have hcover := fields_cover_iff hall
      simp only [AllOrNothing, StopsBeforeWriting, h, main_writes h hold, houtputs, hselected,
        Except.ok.injEq, forall_eq', ← hrows, ← hcover, reduceCtorEq, exists_false, false_or,
        true_and]
      by_cases hfields : ∀ row ∈ audited.map Audited.output, ∀ cell ∈ row,
          cell.1 ∈ outputFields (audited.map Audited.output)
      · have hrun := writeRows_ok args.output hfields [outputFields (audited.map Audited.output)] d
        rw [Action.bind_ok hrun, Action.pure_run]
        refine iff_of_true ⟨selected, _, _, rfl, Disk.put_self .., ?_⟩ hfields
        rw [← hrows]
        exact records_output hall hfields
      · -- the header and the rows before the first wide one stay in the file
        obtain ⟨e, lines, hrun⟩ :=
          writeRows_fails args.output hfields [outputFields (audited.map Audited.output)] d
        rw [Action.bind_error hrun]
        refine iff_of_false (fun h => ?_) hfields
        have hnone : d.put args.output lines args.output = none := h
        rw [Disk.put_self] at hnone
        cases hnone

/-! ## Ledgers of one format -/

/-- The columns after a field is set do not depend on the cells. -/
theorem keys_set {row row' : Row} (h : row.map Prod.fst = row'.map Prod.fst) (name : String)
    (value value' : Option String) :
    (KeyedTable.set row name value).map Prod.fst =
      (KeyedTable.set row' name value').map Prod.fst := by
  induction row generalizing row' with
  | nil =>
    rw [List.map_nil] at h
    rw [List.map_eq_nil_iff.mp h.symm]
    rfl
  | cons cell rest ih =>
    obtain ⟨cell', rest', rfl, hcell, hrest⟩ := List.map_eq_cons_iff.mp h.symm
    simp only [KeyedTable.set, hcell]
    split
    · simp [hrest]
    · rw [List.map_cons, List.map_cons, hcell, ih hrest.symm]

/-- Rows with the same columns still have the same columns after the same fields are set. -/
theorem keys_foldl_set {names : List (String × String)} {row row' : Row}
    {names' : List (String × String)} (hnames : names.map Prod.fst = names'.map Prod.fst)
    (h : row.map Prod.fst = row'.map Prod.fst) :
    (names.foldl (fun (row : Row) field => set row field.1 (some field.2)) row).map Prod.fst =
      (names'.foldl (fun (row : Row) field => set row field.1 (some field.2)) row').map
        Prod.fst := by
  induction names generalizing names' row row' with
  | nil =>
    rw [List.map_nil] at hnames
    rw [List.map_eq_nil_iff.mp hnames.symm]
    exact h
  | cons field rest ih =>
    obtain ⟨field', rest', rfl, hfield, hrest⟩ := List.map_eq_cons_iff.mp hnames.symm
    rw [List.foldl_cons, List.foldl_cons, hfield]
    exact ih hrest.symm (keys_set h _ _ _)

/-- The columns that the selection gives to a row of some columns. -/
def selectedColumns (header : List String) : List String :=
  (["receipt_file", "audit_source_block", "audit_source_block_hash", "audit_source_shard",
    "audit_destination_shard"].foldl (fun (row : Row) name => set row name (some ""))
      (header.map fun name => (name, none))).map Prod.fst

theorem selectRow_columns {path : String} {row selected : Row}
    (h : selectRow py args path row = .ok (some selected)) :
    selected.map Prod.fst = selectedColumns (row.map Prod.fst) := by
  simp only [selectRow, bind_eq_ok] at h
  obtain ⟨sourceBlock, -, cell, -, hash, -, sourceShard, -, destinationShard, -, h⟩ := h
  by_cases hout : sourceBlock < args.minSourceBlock ∨
      (∃ most ∈ args.maxSourceBlock, most < sourceBlock) ∨
      (∃ shard ∈ args.sourceShard, sourceShard ≠ shard) ∨
      (∃ shard ∈ args.destinationShard, destinationShard ≠ shard)
  · rw [if_pos hout] at h
    cases h
  rw [if_neg hout, bind_eq_ok] at h
  obtain ⟨wanted, -, h⟩ := h
  cases wanted with
  | false => cases h
  | true =>
    cases h
    have hmap : selectedColumns (row.map Prod.fst) =
        ([("receipt_file", ""), ("audit_source_block", ""), ("audit_source_block_hash", ""),
          ("audit_source_shard", ""), ("audit_destination_shard", "")].foldl
          (fun (row : Row) (field : String × String) => set row field.1 (some field.2))
          ((row.map Prod.fst).map fun name => (name, none))).map Prod.fst := rfl
    rw [hmap]
    apply keys_foldl_set
    · rfl
    · simp [Function.comp_def]

/-- Ledgers with one header among them are written in full. -/
theorem covered_of_one_header {header : List String}
    (h : ∀ row ∈ allRows ledgers, row.map Prod.fst = header) {selected : List Row}
    (hselected : selectRows py args ledgers = .ok selected) : Covered (sortRows py selected) := by
  have hcolumns : ∀ row ∈ sortRows py selected, row.map Prod.fst = selectedColumns header := by
    intro row hrow
    have hmem : row ∈ selected := (List.perm_insertionSort _ _).mem_iff.mp hrow
    simp only [selectRows, bind_eq_ok] at hselected
    obtain ⟨chosen, hchosen, hout⟩ := hselected
    cases hout
    obtain ⟨found, hfound, hsome⟩ := List.mem_filterMap.mp hmem
    cases hsome
    obtain ⟨⟨path, source⟩, hsource, hselect⟩ :=
      forall₂_exists_right (mapM_ok_iff.mp hchosen) hfound
    obtain ⟨ledger, hledger, hin⟩ := List.mem_flatMap.mp hsource
    obtain ⟨other, hother, heq⟩ := List.mem_map.mp hin
    cases heq
    rw [selectRow_columns hselect, h source (List.mem_flatMap.mpr ⟨ledger, hledger, hother⟩)]
  intro row hrow name hname
  left
  cases hrows : sortRows py selected with
  | nil =>
    rw [hrows] at hrow
    cases hrow
  | cons first rest =>
    have hfirst : first ∈ sortRows py selected := hrows ▸ List.mem_cons_self
    change name ∈ first.map Prod.fst
    rwa [hcolumns first hfirst, ← hcolumns row hrow]

/-! ## Ledgers of two formats -/

/-- The header of `outgoing-cx-scan`. -/
def outgoingHeader : List String :=
  ["source_shard", "destination_shard", "source_block", "source_block_hash", "receipt_index",
    "tx_hash", "from", "to", "amount_atto"]

/-- The header of `cx-replay-scan`. -/
def replayHeader : List String :=
  ["destination_block", "proof_index", "receipt_index", "tx_hash", "from", "to", "amount_atto",
    "signed_source_header_hash", "signed_source_shard", "signed_source_block",
    "claimed_source_block_hash", "claimed_source_shard", "claimed_source_block",
    "proof_identity_mismatch", "duplicate_receipt_application", "first_application_block",
    "application_number"]

def outgoingLedger : CsvFile where
  path := "outgoing.csv"
  rows := [dictRow outgoingHeader ["1", "0", "7", repeatedDigit 64 'b', "0", repeatedDigit 64 'a',
    repeatedDigit 40 'd', repeatedDigit 40 'e', "5"]]

def replayLedger : CsvFile where
  path := "replay.csv"
  rows := [dictRow replayHeader ["9", "0", "0", repeatedDigit 64 'c', repeatedDigit 40 'd',
    repeatedDigit 40 'e', "5", repeatedDigit 64 'f', "1", "8", repeatedDigit 64 'f', "1", "8",
    "false", "false", "9", "1"]]

/-- The node knows both transactions; the receipt of the outgoing ledger comes first, and the
replayed one has columns that its header lacks. -/
theorem mixed_ledgers_truncate :
    ¬ AllOrNothing AuditText.ascii { output := "audit.csv", destinationShard := some 0 } quietNode []
      [outgoingLedger, replayLedger] (fun _ => none) := by
  intro h
  -- one run shows both the error and the two lines that are left behind
  have hends : ((main AuditText.ascii { output := "audit.csv", destinationShard := some 0 }
        quietNode [] [outgoingLedger, replayLedger] (fun _ => none)).1.isOk,
      ((main AuditText.ascii { output := "audit.csv", destinationShard := some 0 }
        quietNode [] [outgoingLedger, replayLedger] (fun _ => none)).2 "audit.csv").map
          List.length) = (false, some 2) := by
    decide +kernel
  rcases hrun : main AuditText.ascii { output := "audit.csv", destinationShard := some 0 }
      quietNode [] [outgoingLedger, replayLedger] (fun _ => none) with ⟨r, next⟩
  rw [hrun] at hends
  rw [AllOrNothing, hrun] at h
  obtain ⟨hfails, hleft⟩ := Prod.mk.inj hends
  cases r with
  | ok summary => cases hfails
  | error e =>
    have hnone : next "audit.csv" = none := h
    simp [hnone] at hleft

end SourceAuditFile
