import SupplyAudit.SourceAudit

/-!
# Whole runs of the source audit

What a completed run says about every receipt and every evidence row: the
totals are those of the receipts, evidence is bound once, and it decides only
what the transaction and its trace leave open.
-/

namespace SourceAuditRuns

open ScriptValues FallibleScan KeyedTable TraceInspection AuditFiles SourceAudit

variable (py : AuditText)

/-! ## One receipt -/

/-- What `judge` may answer. -/
theorem judge_cases {py : AuditText} {node : Node} {index : Nat} {identity : ReceiptIdentity}
    {transaction : Transaction} {sourceTo : String} {receiptStatus : Int} {j : Judgement}
    (h : judge py node index identity transaction sourceTo receiptStatus = .ok j) :
    j = judgeDirect sourceTo receiptStatus ∨
      ∃ trace, node.traceTransaction index transaction.hash = .ok trace ∧
        j = judgeReplay py identity receiptStatus trace := by
  rw [judge] at h
  split at h
  · left
    cases h
    rfl
  · right
    obtain ⟨trace, htrace, hj⟩ := bind_eq_ok.mp h
    cases hj
    exact ⟨trace, htrace, rfl⟩

theorem classifyReplay_ne_absent (receiptStatus : Int) (root : CallFrame)
    (inspection : Inspection) :
    (classifyReplay receiptStatus root inspection).classification ≠ .sourceDebitAbsent := by
  intro h
  simp only [classifyReplay] at h
  split_ifs at h

theorem classifyReplay_of_failed {receiptStatus : Int} (h : receiptStatus ≠ 1) (root : CallFrame)
    (inspection : Inspection) :
    (classifyReplay receiptStatus root inspection).classification = .receiptInconsistent := by
  rw [classifyReplay, if_pos h]

/-- A trace of the source transaction shows that its debit was rolled back. -/
def ProvedByTrace (node : Node) (index : Nat) (a : Audited) : Prop :=
  ∃ trace, node.traceTransaction index a.transaction.hash = .ok trace ∧
    let replay := classifyReplay a.receiptStatus trace.label (inspectTrace py a.identity trace)
    replay.classification = .rollbackLeak ∧ replay.compatible = true

theorem compatible_of_rollback {receiptStatus : Int} {root : CallFrame} {inspection : Inspection}
    (h : (classifyReplay receiptStatus root inspection).classification = .rollbackLeak) :
    (classifyReplay receiptStatus root inspection).compatible = true := by
  simp only [classifyReplay] at h ⊢
  split_ifs at h ⊢ <;> rfl

/-- What was found out about the receipt of a numbered row. -/
structure Examined (node : Node) (table : EvidenceTable) (numbered : Row × Nat) (a : Audited) :
    Prop where
  row : a.row = numbered.1
  identity : receiptIdentity py numbered.1 = .ok a.identity
  evidence : a.evidence = table.lookup a.identity
  stored : node.transactionReceipt numbered.2 a.transaction.hash = .ok (some a.receiptStatus)
  not_failed : a.evidence.isSome → a.receiptStatus = 1
  judged : judge py node numbered.2 a.identity a.transaction a.sourceTo a.receiptStatus =
    .ok a.judgement
  resolved : resolveClassification a.judgement.direct a.judgement.replay a.evidence =
    .ok (a.classification, a.classificationSource, a.evidenceClassification)

theorem examine_ok {py : AuditText} {node : Node} {table : EvidenceTable} {numbered : Row × Nat}
    {a : Audited} (h : examine py node table numbered.2 numbered.1 = .ok a) :
    Examined py node table numbered a := by
  simp only [examine, bind_eq_ok] at h
  obtain ⟨identity, hidentity, txHashCell, -, found, -, h⟩ := h
  split at h
  · cases h
  rename_i transaction
  simp only [bind_eq_ok] at h
  obtain ⟨-, -, sourceTo, -, receipt, hreceipt, h⟩ := h
  split at h
  · cases h
  rename_i receiptStatus
  simp only [bind_eq_ok, require_ok] at h
  obtain ⟨judgement, hjudged, -, hnot, ⟨classification, source, evidenceClassification⟩,
    hresolved, sourceFrom, -, h⟩ := h
  cases h
  constructor
  case row => rfl
  case identity => exact hidentity
  case evidence => rfl
  case stored => exact hreceipt
  case not_failed =>
    intro hsome
    by_contra hstatus
    exact hnot ⟨hsome, hstatus⟩
  case judged => exact hjudged
  case resolved =>
    cases hr : resolveClassification judgement.direct judgement.replay
        (table.lookup identity) with
    | ok result =>
      rw [hr] at hresolved
      exact hresolved
    | error err =>
      rw [hr] at hresolved
      cases err <;> cases hresolved

/-- What the decision says about the final classification. -/
theorem resolve_of_evidence {direct : Option Classification} {replay : Classification}
    {e : Evidence} {result : Classification × String × Option Classification}
    (h : resolveClassification direct replay (some e) = .ok result) :
    (e.sourceDebitStatus = .absent →
        result.1 = .rollbackLeak ∧ direct.getD replay = .rollbackLeak ∨
          result.1 = .sourceDebitAbsent) ∧
      (e.sourceDebitStatus = .persisted → result.1 = .validSourceDebit) := by
  simp only [resolveClassification] at h
  split at h
  · cases h
  rename_i hconflict
  simp only [not_or, not_and] at hconflict
  split at h
  · rename_i hfinal
    cases h
    constructor
    · intro habsent
      rcases hfinal with hrollback | hvalid
      · exact .inl ⟨hrollback, hrollback⟩
      · exact absurd habsent (hconflict.1 hvalid)
    · intro hpersisted
      rcases hfinal with hrollback | hvalid
      · exact absurd hpersisted (hconflict.2 hrollback)
      · exact hvalid
  · cases h
    constructor
    · intro habsent
      right
      simp [Evidence.classification, habsent, DebitStatus.classification]
    · intro hpersisted
      simp [Evidence.classification, hpersisted, DebitStatus.classification]

theorem resolve_without_evidence {direct : Option Classification} {replay : Classification}
    {result : Classification × String × Option Classification}
    (h : resolveClassification direct replay none = .ok result) :
    result.1 = direct.getD replay ∧ result.1 ∈ [.rollbackLeak, .sourceDebitAbsent,
        .validSourceDebit] ∨
      result.1 = .unclassified ∧ direct.getD replay ∉ [.rollbackLeak, .sourceDebitAbsent,
        .validSourceDebit] := by
  simp only [resolveClassification] at h
  split at h
  · rename_i hfinal
    cases h
    left
    exact ⟨rfl, by simpa using hfinal⟩
  · rename_i hfinal
    cases h
    right
    exact ⟨rfl, by simpa using hfinal⟩

/-- What a receipt ends as, by the evidence for it and its stored status. -/
structure Decided (node : Node) (index : Nat) (a : Audited) : Prop where
  absent : ∀ e, a.evidence = some e → e.sourceDebitStatus = .absent →
    a.classification = .rollbackLeak ∨ a.classification = .sourceDebitAbsent
  persisted : ∀ e, a.evidence = some e → e.sourceDebitStatus = .persisted →
    a.classification = .validSourceDebit
  without : a.evidence = none → a.classification ≠ .sourceDebitAbsent
  rollback : a.classification = .rollbackLeak → ProvedByTrace py node index a
  failed : a.receiptStatus ≠ 1 → a.classification = .unclassified

/-- The classification before evidence, in the two ways to judge a receipt. -/
theorem Examined.judgedFinal {py : AuditText} {node : Node} {table : EvidenceTable}
    {numbered : Row × Nat} {a : Audited} (h : Examined py node table numbered a) :
    a.judgement.direct.getD a.judgement.replay ≠ .sourceDebitAbsent ∧
      (a.judgement.direct.getD a.judgement.replay = .rollbackLeak →
        ProvedByTrace py node numbered.2 a) ∧
      (a.receiptStatus ≠ 1 →
        a.judgement.direct.getD a.judgement.replay = .receiptInconsistent) := by
  rcases judge_cases h.judged with hdirect | ⟨trace, htrace, hreplay⟩
  · rw [hdirect, judgeDirect]
    by_cases hstatus : a.receiptStatus = 1
    · simp [hstatus]
    · simp [hstatus]
  · have hfinal : a.judgement.direct.getD a.judgement.replay =
        (classifyReplay a.receiptStatus trace.label
          (inspectTrace py a.identity trace)).classification := by
      rw [hreplay]
      rfl
    rw [hfinal]
    refine ⟨classifyReplay_ne_absent _ _ _, ?_, ?_⟩
    · intro hrollback
      exact ⟨trace, htrace, hrollback, compatible_of_rollback hrollback⟩
    · intro hstatus
      exact classifyReplay_of_failed hstatus _ _

theorem Examined.decided {py : AuditText} {node : Node} {table : EvidenceTable}
    {numbered : Row × Nat} {a : Audited} (h : Examined py node table numbered a) :
    Decided py node numbered.2 a := by
  obtain ⟨hne, hproved, hfailed⟩ := h.judgedFinal
  have hresolved := h.resolved
  cases hevidence : a.evidence with
  | some e =>
    rw [hevidence] at hresolved
    obtain ⟨habsent, hpersisted⟩ := resolve_of_evidence hresolved
    have hstatus := h.not_failed (by rw [hevidence]; rfl)
    constructor
    case absent =>
      intro e' he' hstatus'
      cases hevidence.symm.trans he'
      exact (habsent hstatus').imp_left And.left
    case persisted =>
      intro e' he' hstatus'
      cases hevidence.symm.trans he'
      exact hpersisted hstatus'
    case without =>
      intro hnone
      rw [hevidence] at hnone
      cases hnone
    case rollback =>
      intro hrollback
      cases hdebit : e.sourceDebitStatus with
      | absent =>
        rcases habsent hdebit with ⟨-, hfinal⟩ | hother
        · exact hproved hfinal
        · cases hrollback.symm.trans hother
      | persisted => cases hrollback.symm.trans (hpersisted hdebit)
    case failed => exact fun hbad => absurd hstatus hbad
  | none =>
    rw [hevidence] at hresolved
    constructor
    case absent =>
      intro e he
      cases hevidence.symm.trans he
    case persisted =>
      intro e he
      cases hevidence.symm.trans he
    case without =>
      intro _ heq
      rcases resolve_without_evidence hresolved with ⟨hfinal, -⟩ | ⟨hunclassified, -⟩
      · exact hne (hfinal.symm.trans heq)
      · cases hunclassified.symm.trans heq
    case rollback =>
      intro hrollback
      rcases resolve_without_evidence hresolved with ⟨hfinal, -⟩ | ⟨hunclassified, -⟩
      · exact hproved (hfinal.symm.trans hrollback)
      · cases hunclassified.symm.trans hrollback
    case failed =>
      intro hstatus
      rcases resolve_without_evidence hresolved with ⟨hfinal, hmem⟩ | ⟨hunclassified, -⟩
      · rw [hfinal, hfailed hstatus] at hmem
        simp at hmem
      · exact hunclassified

/-! ## The evidence table -/

/-- The table entry that an evidence row of a file gives. -/
def GivesEvidence (file : EvidenceFile) (numbered : Row × Nat)
    (entry : ReceiptIdentity × Evidence) : Prop :=
  evidenceIdentity py (rowPlace file.path numbered.2) numbered.1 = .ok entry.1 ∧
    evidenceOf py (rowPlace file.path numbered.2) file.artifact numbered.1 = .ok entry.2

/-- The evidence rows of all files. -/
def evidenceRows (files : List EvidenceFile) : List (EvidenceFile × (Row × Nat)) :=
  files.flatMap fun file => file.rows.zipIdx.map fun numbered => (file, numbered)

/-- Every row read so far has its own entry. -/
structure LoadedEvidence (done : List (EvidenceFile × (Row × Nat))) (table : EvidenceTable) :
    Prop where
  entries : List.Forall₂ (fun place entry => GivesEvidence py place.1 place.2 entry) done table
  distinct : (table.map Prod.fst).Nodup

theorem addEvidence_ok {py : AuditText} {file : EvidenceFile} {table table' : EvidenceTable}
    {numbered : Row × Nat} (h : addEvidence py file table numbered = .ok table') :
    ∃ entry, GivesEvidence py file numbered entry ∧ table.lookup entry.1 = none ∧
      table' = table ++ [entry] := by
  simp only [addEvidence, bind_eq_ok, require_ok] at h
  obtain ⟨identity, hidentity, evidence, hevidence, -, hnew, h⟩ := h
  cases h
  exact ⟨(identity, evidence), ⟨hidentity, hevidence⟩, hnew, rfl⟩

theorem LoadedEvidence.add {py : AuditText} {done : List (EvidenceFile × (Row × Nat))}
    {table table' : EvidenceTable} (h : LoadedEvidence py done table) {file : EvidenceFile}
    {numbered : Row × Nat} (hadd : addEvidence py file table numbered = .ok table') :
    LoadedEvidence py (done ++ [(file, numbered)]) table' := by
  obtain ⟨entry, hgives, hnew, rfl⟩ := addEvidence_ok hadd
  constructor
  case entries => exact List.rel_append h.entries (.cons hgives .nil)
  case distinct =>
    have hfresh := (lookup_eq_none_iff table entry.1).mp hnew
    rw [List.map_append, List.nodup_append]
    refine ⟨h.distinct, List.nodup_singleton _, ?_⟩
    intro key hkey other hother heq
    rw [List.map_singleton, List.mem_singleton] at hother
    exact hfresh (hother ▸ heq ▸ hkey)

theorem loadIndependentEvidence_ok {py : AuditText} {files : List EvidenceFile}
    {table : EvidenceTable} (h : loadIndependentEvidence py files = .ok table) :
    LoadedEvidence py (evidenceRows files) table := by
  have hfile : ∀ (done : List EvidenceFile) (t : EvidenceTable) (file : EvidenceFile)
      (t' : EvidenceTable), LoadedEvidence py (evidenceRows done) t →
      file.rows.zipIdx.foldlM (addEvidence py file) t = .ok t' →
      LoadedEvidence py (evidenceRows (done ++ [file])) t' := by
    intro done t file t' hdone hrows
    have hall := foldlM_invariant
      (fun seen t => LoadedEvidence py
        (evidenceRows done ++ seen.map fun numbered => (file, numbered)) t)
      (by
        intro seen t numbered t' hinv hadd
        have hnext := hinv.add hadd
        rwa [List.append_assoc, ← List.map_singleton, ← List.map_append] at hnext)
      [] (by simpa using hdone) hrows
    simpa [evidenceRows] using hall
  have hstart : LoadedEvidence py (evidenceRows []) [] := ⟨.nil, List.nodup_nil⟩
  exact foldlM_invariant (fun done t => LoadedEvidence py (evidenceRows done) t) hfile [] hstart h

/-! ## The totals -/

theorem addTotal_ok {totals totals' : Totals} {classification : Classification} {amount : Int}
    (hkeys : (totals.map Prod.fst).Nodup) (h : addTotal totals classification amount = .ok totals') :
    (totals'.map Prod.fst).Nodup ∧ total id totals' = total id totals + amount := by
  rw [addTotal] at h
  split at h
  · cases h
  rename_i value hvalue
  cases h
  refine ⟨nodup_set hkeys _ _, ?_⟩
  refine total_update hkeys 0 rfl ?_
  rw [hvalue]
  rfl

/-- The amounts of the receipts audited so far. -/
def auditedAmount (audited : List Audited) : Int := (audited.map fun a => a.identity.amountAtto).sum

/-- What the loop keeps about the rows it has read. -/
structure RunInvariant (node : Node) (table : EvidenceTable) (done : List (Row × Nat))
    (st : RunState) (audited : List Audited) : Prop where
  examined : List.Forall₂ (Examined py node table) done audited
  outputs : st.outputRows = audited.map Audited.output
  keys : (st.totals.map Prod.fst).Nodup ∧ (st.replayTotals.map Prod.fst).Nodup
  final_total : total id st.totals = auditedAmount audited
  replay_total : total id st.replayTotals = auditedAmount audited
  used : ∀ key, key ∈ st.usedEvidenceKeys ↔ ∃ a ∈ audited, a.evidence.isSome ∧ a.identity = key

theorem RunInvariant.step {py : AuditText} {node : Node} {table : EvidenceTable}
    {done : List (Row × Nat)} {st st' : RunState} {audited : List Audited}
    (h : RunInvariant py node table done st audited) {numbered : Row × Nat}
    (hrow : auditRow py node table st numbered = .ok st') :
    ∃ a, RunInvariant py node table (done ++ [numbered]) st' (audited ++ [a]) := by
  obtain ⟨a, hexamine, hrecord⟩ := bind_eq_ok.mp hrow
  simp only [record, bind_eq_ok] at hrecord
  obtain ⟨totals, htotals, replayTotals, hreplay, hst⟩ := hrecord
  obtain ⟨hkeys, hsum⟩ := addTotal_ok h.keys.1 htotals
  obtain ⟨hreplayKeys, hreplaySum⟩ := addTotal_ok h.keys.2 hreplay
  have hamount : auditedAmount (audited ++ [a]) =
      auditedAmount audited + a.identity.amountAtto := by simp [auditedAmount]
  cases hst
  refine ⟨a, ?_⟩
  constructor
  case examined => exact List.rel_append h.examined (.cons (examine_ok hexamine) .nil)
  case outputs =>
    change st.outputRows ++ [a.output] = _
    rw [h.outputs, List.map_append, List.map_singleton]
  case keys => exact ⟨hkeys, hreplayKeys⟩
  case final_total => rw [hsum, h.final_total, hamount]
  case replay_total => rw [hreplaySum, h.replay_total, hamount]
  case used =>
    intro key
    simp only [List.mem_append, List.mem_singleton, or_and_right, exists_or, exists_eq_left,
      ← h.used key]
    cases a.evidence with
    | none => simp
    | some e => simp [or_comm, eq_comm]

/-! ## The written rows -/

/-- The fields that an identity is read from. -/
def identityNames : List String :=
  ["audit_source_shard", "signed_source_shard", "source_shard", "audit_destination_shard",
    "destination_shard", "to_shard", "audit_source_block", "signed_source_block", "source_block",
    "audit_source_block_hash", "signed_source_header_hash", "source_block_hash",
    "claimed_source_block_hash", "receipt_index", "tx_hash", "from", "to", "amount_atto"]

/-- The fields that the audit adds to a row. -/
def writtenNames : List String :=
  inspectionFields ++ ["source_transaction_hash", "source_transaction_from",
    "source_transaction_to", "source_transaction_value_atto", "source_transaction_status",
    "source_input_selector", "trace_root_error", "replay_status", "replay_compatible",
    "replay_issue", "replay_classification", "independent_evidence_classification",
    "independent_source_debit_status", "independent_evidence_type",
    "independent_evidence_reference", "independent_evidence_sha256", "classification_source",
    "classification"]

theorem not_written : ∀ name ∈ identityNames, name ∉ writtenNames := by decide

theorem rowField_congr {row row' : Row} {names : List String}
    (h : ∀ name ∈ names, row'.lookup name = row.lookup name) :
    rowField row' names = rowField row names := by
  have hfound : (names.findSome? fun name => (row'.lookup name).filter fun cell => cell ≠ some "") =
      names.findSome? fun name => (row.lookup name).filter fun cell => cell ≠ some "" := by
    induction names with
    | nil => rfl
    | cons name rest ih =>
      rw [List.findSome?_cons, List.findSome?_cons, h name List.mem_cons_self,
        ih fun other hother => h other (List.mem_cons_of_mem name hother)]
  rw [rowField, rowField, hfound]

theorem receiptIdentity_congr {row row' : Row}
    (h : ∀ name ∈ identityNames, row'.lookup name = row.lookup name) :
    receiptIdentity py row' = receiptIdentity py row := by
  have hfield : ∀ names : List String, (∀ name ∈ names, name ∈ identityNames) →
      rowField row' names = rowField row names :=
    fun names hnames => rowField_congr fun name hname => h name (hnames name hname)
  have hget : ∀ name ∈ identityNames, row'.get name = row.get name := by
    intro name hname
    rw [Row.get, Row.get, h name hname]
  simp only [receiptIdentity, rowInteger, rowText, addressField]
  rw [hfield ["audit_source_shard", "signed_source_shard", "source_shard"] (by decide),
    hfield ["audit_destination_shard", "destination_shard", "to_shard"] (by decide),
    hfield ["audit_source_block", "signed_source_block", "source_block"] (by decide),
    hfield ["audit_source_block_hash", "signed_source_header_hash", "source_block_hash",
      "claimed_source_block_hash"] (by decide),
    hfield ["receipt_index"] (by decide), hget "tx_hash" (by decide), hget "from" (by decide),
    hget "to" (by decide), hget "amount_atto" (by decide)]

theorem lookup_foldl_set {fields : List (String × String)} {name : String}
    (h : ∀ field ∈ fields, field.1 ≠ name) (row : Row) :
    (fields.foldl (fun (row : Row) field => set row field.1 (some field.2)) row).lookup name =
      row.lookup name := by
  induction fields generalizing row with
  | nil => rfl
  | cons field rest ih =>
    rw [List.foldl_cons, ih fun other hother => h other (List.mem_cons_of_mem field hother),
      lookup_set, if_neg (h field List.mem_cons_self).symm]

/-- The audit leaves the other fields of a row as they are. -/
theorem lookup_output (a : Audited) {name : String} (h : name ∉ writtenNames) :
    a.output.lookup name = a.row.lookup name := by
  apply lookup_foldl_set
  intro field hfield
  have hwritten : field.1 ∈ writtenNames := by
    rcases List.mem_append.mp hfield with hfirst | hlast
    · rcases List.mem_append.mp hfirst with hfront | hinspection
      · simp only [List.mem_cons, List.not_mem_nil, or_false] at hfront
        rcases hfront with rfl | rfl | rfl | rfl | rfl | rfl | rfl | rfl | rfl | rfl <;>
          simp [writtenNames]
      · exact List.mem_append_left _ (List.of_mem_zip hinspection).1
    · simp only [List.mem_cons, List.not_mem_nil, or_false] at hlast
      rcases hlast with rfl | rfl | rfl | rfl | rfl | rfl | rfl | rfl <;> simp [writtenNames]
  intro heq
  exact h (heq ▸ hwritten)

/-- A written row has the identity of its receipt. -/
theorem receiptIdentity_output (a : Audited) :
    receiptIdentity py a.output = receiptIdentity py a.row := by
  apply receiptIdentity_congr
  intro name hname
  exact lookup_output a (not_written name hname)

theorem output_classification (a : Audited) :
    a.output.lookup "classification" = some (some a.classification.text) := by
  rw [Audited.output, List.foldl_append]
  simp [lookup_set]

/-! ## Completed runs -/

/-- Every selected receipt is audited once, with the totals and the evidence
that this account of a run gives. -/
structure SoundRun (node : Node) (files : List EvidenceFile) (selected : List Row) (out : Output)
    (audited : List Audited) : Prop where
  selected : (audited.map Audited.row).Perm selected
  written : out.rows = audited.map Audited.output
  identities : ∀ a ∈ audited,
    receiptIdentity py a.row = .ok a.identity ∧ receiptIdentity py a.output = .ok a.identity
  distinct : (audited.map Audited.identity).Nodup
  classified : ∀ a ∈ audited,
    a.output.lookup "classification" = some (some a.classification.text)
  final_total : total id out.summary.totals = auditedAmount audited
  replay_total : total id out.summary.replayTotals = auditedAmount audited
  evidence_bound : ∀ place ∈ evidenceRows files, ∃ entry, GivesEvidence py place.1 place.2 entry ∧
    (∃! a, a ∈ audited ∧ a.identity = entry.1) ∧
    ∀ a ∈ audited, a.identity = entry.1 → a.evidence = some entry.2 ∧ a.receiptStatus = 1
  evidence_origin : ∀ a ∈ audited, ∀ e, a.evidence = some e →
    ∃ place ∈ evidenceRows files, GivesEvidence py place.1 place.2 (a.identity, e)
  decided : ∀ a ∈ audited, ∃ index,
    node.transactionReceipt index a.transaction.hash = .ok (some a.receiptStatus) ∧
      Decided py node index a

theorem run_ok {py : AuditText} {node : Node} {table : EvidenceTable} {rows : List Row}
    {st : RunState} (h : rows.zipIdx.foldlM (auditRow py node table) {} = .ok st) :
    ∃ audited, RunInvariant py node table rows.zipIdx st audited := by
  have hstart : RunInvariant py node table [] {} [] := by
    constructor
    case examined => exact .nil
    case outputs => rfl
    case keys => exact ⟨by decide, by decide⟩
    case final_total => rfl
    case replay_total => rfl
    case used => intro key; simp
  exact foldlM_invariant (fun done st => ∃ audited, RunInvariant py node table done st audited)
    (fun done st numbered st' ⟨_, hinv⟩ hrow =>
      let ⟨_, hnext⟩ := hinv.step hrow
      ⟨_, hnext⟩)
    [] ⟨[], hstart⟩ h

/-- A number of one repeated hexadecimal digit. -/
def repeatedDigit (count : Nat) (digit : Char) : String :=
  "0x" ++ String.ofList (List.replicate count digit)

def receiptFields : Row :=
  [("source_shard", some "1"), ("destination_shard", some "0"), ("source_block", some "7"),
    ("source_block_hash", some (repeatedDigit 64 'b')), ("receipt_index", some "0"),
    ("from", some (repeatedDigit 40 'd')), ("to", some (repeatedDigit 40 'e')),
    ("amount_atto", some "5")]

/-- A node that knows a same-shard transaction without a precompile call. -/
def quietNode : Node where
  transactionByHash _ hash := .ok (some ⟨hash, hash, none, none, 1, 1, "0", ""⟩)
  transactionReceipt _ _ := .ok (some 1)
  traceTransaction _ _ := .ok (.node {} [])

def absentEvidence : EvidenceFile where
  path := "evidence.csv"
  rows := [receiptFields ++ [("receipt_tx_hash", some (repeatedDigit 64 'a')),
    ("source_debit_status", some "absent"), ("evidence_type", some "state"),
    ("evidence_reference", some "state.json"), ("evidence_sha256", some ("".pushn 'c' 64))]]
  artifact _ := some ("".pushn 'c' 64)

end SourceAuditRuns
