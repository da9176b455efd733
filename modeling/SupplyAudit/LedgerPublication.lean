import SupplyAudit.FileStore
import SupplyAudit.LedgerMerge

/-!
# Publishing the claim ledger

The merge writes its CSV and its summary under temporary names and moves each to
its own name when it is complete. A handler removes the temporary files when a
step fails, but not a file that has been moved: what fails after the CSV has its
name leaves a CSV without a summary. Names that differ as texts name different
files, and the handler's own removals succeed.
-/

namespace LedgerPublication

open ScriptValues FallibleScan FileStore ActualSupplyLedger LedgerMerge

/-- The points at which the system may fail a run. -/
inductive Step where
  | hashInput (path : String)
  | openInput (path : String)
  | createOutput
  | writeHeader
  | mergeRow (n : Nat)
  | syncOutput
  | replaceOutput
  | hashOutput
  | createSummary
  | writeSummary
  | replaceSummary
  deriving DecidableEq

inductive Content where
  | ledger (lines : List (List String))
  | summary (record : LedgerSummary)
  | text (other : String)
  deriving DecidableEq

inductive Failure where
  | script (error : PyError)
  | system (text : String)
  deriving DecidableEq

/-- What a run finds around it. A failing write leaves the given content. -/
structure System where
  py : PyText
  fault : Step → Option (String × Content)
  inputDigest : String → String
  digest : Content → String

namespace System

def faultAt (sys : System) (s : Step) : Option Failure :=
  (sys.fault s).map fun f => .system f.1

def writeFault (sys : System) (s : Step) : Option (Failure × Content) :=
  (sys.fault s).map fun f => (.system f.1, f.2)

def check (sys : System) (s : Step) : Except Failure Unit :=
  match sys.fault s with
  | none => .ok ()
  | some f => .error (.system f.1)

def Fails (sys : System) (s : Step) : Prop := sys.fault s ≠ none

end System

def partialPath (path : String) : String := path ++ ".partial"

def ledgerContent (st : MergeState) : Content :=
  .ledger (header :: st.written.map LedgerRow.cells)

/-! ## The steps of a run -/

def refuseExisting (paths : List String) : Action Content Failure Unit := fun d =>
  match paths.find? (fun p => (d p).isSome || (d (partialPath p)).isSome) with
  | some p => (.error (.script (.fileExists p)), d)
  | none => (.ok (), d)

def inputPaths (args : Args) : List (String × String) :=
  [("shard0_liquid", args.shard0Liquid), ("shard1_liquid", args.shard1Liquid),
    ("staking", args.staking), ("receipts", args.receipts)]

def fileSha256 (sys : System) (input : String × String) : Except Failure (String × String) := do
  sys.check (.hashInput input.2)
  .ok (input.1, sys.inputDigest input.2)

/-- `next_or_none` of a fresh reader, which opens the file. -/
def openRows (sys : System) (path : String) (rows : List Row) : Except Failure Cursor := do
  sys.check (.openInput path)
  (Cursor.start sys.py path rows).mapError .script

/-- What is read before any file is made. -/
def prepare (sys : System) (args : Args) (inputs : InputFiles) :
    Except Failure (List (String × String) × PendingClaims × MergeState) := do
  let inputSha256 ← (inputPaths args).mapM (fileSha256 sys)
  sys.check (.openInput args.receipts)
  let claims ← (loadPendingReceipts sys.py inputs.receipts).mapError .script
  let liquid0 ← openRows sys args.shard0Liquid inputs.shard0Liquid
  let liquid1 ← openRows sys args.shard1Liquid inputs.shard1Liquid
  let staking ← openRows sys args.staking inputs.staking
  .ok (inputSha256, claims,
    { liquid0 := liquid0
      liquid1 := liquid1
      staking := staking
      receiptKeys := (claims.map Prod.fst).insertionSort (· ≤ ·) })

/-- The merge loop, each row written as it is made. -/
def writeRows (sys : System) (args : Args) (claims : PendingClaims) :
    Nat → MergeState → Action Content Failure MergeState
  | 0, st => pure st
  | fuel + 1, st =>
    match st.key with
    | none => pure st
    | some key => do
      let next ← lift ((mergeStep sys.py claims st key).mapError .script)
      writeTo (partialPath args.output) (ledgerContent next)
        (sys.writeFault (.mergeRow st.written.length))
      writeRows sys args claims fuel next

def stageFaults (sys : System) (path : String) (create replace : Step) : StageFaults Failure where
  create := sys.faultAt create
  move := sys.faultAt replace
  taken := .system ("[Errno 17] File exists: '" ++ partialPath path ++ "'")
  missing := .system ("[Errno 2] No such file or directory: '" ++ partialPath path ++ "'")

def fillOutput (sys : System) (args : Args) (claims : PendingClaims) (start : MergeState) :
    Action Content Failure MergeState := do
  writeTo (partialPath args.output) (.ledger [header]) (sys.writeFault .writeHeader)
  let st ← writeRows sys args claims start.left start
  raiseIf (sys.faultAt .syncOutput)
  pure st

def publishOutput (sys : System) (args : Args) (claims : PendingClaims) (start : MergeState) :
    Action Content Failure MergeState :=
  staged (stageFaults sys args.output .createOutput .replaceOutput) (partialPath args.output)
    args.output (.ledger []) (fillOutput sys args claims start)

def summaryRecord (inputSha256 : List (String × String)) (report : ReceiptReport)
    (st : MergeState) (outputPath outputSha256 : String) : LedgerSummary where
  inputSha256 := inputSha256
  rows := st.totals.rows
  rowsWithoutAddress := st.totals.rowsWithoutAddress
  liquidShard0Atto := toString st.totals.liquidShard0
  liquidShard1Atto := toString st.totals.liquidShard1
  activeDelegationAtto := toString st.totals.activeDelegation
  pendingUndelegationAtto := toString st.totals.pendingUndelegation
  unclaimedRewardAtto := toString st.totals.unclaimedReward
  pendingCrossShardAtto := toString st.totals.pendingCrossShard
  totalClaimAtto := toString st.totals.totalClaim
  retiredShardReceiptStatusUnknownAtto := report.unsupportedPendingAtto
  outputPath := outputPath
  outputSha256 := outputSha256

def fillSummary (sys : System) (args : Args) (record : LedgerSummary) :
    Action Content Failure LedgerSummary := do
  writeTo (partialPath args.summaryOutput) (.summary record) (sys.writeFault .writeSummary)
  pure record

def publishSummary (sys : System) (args : Args) (inputs : InputFiles)
    (inputSha256 : List (String × String)) (st : MergeState) :
    Action Content Failure LedgerSummary := do
  raiseIf (sys.faultAt .hashOutput)
  let published ← readFrom args.output
    (.system ("[Errno 2] No such file or directory: '" ++ args.output ++ "'"))
  let record := summaryRecord inputSha256 inputs.receipts st args.output (sys.digest published)
  staged (stageFaults sys args.summaryOutput .createSummary .replaceSummary)
    (partialPath args.summaryOutput) args.summaryOutput (.text "") (fillSummary sys args record)

def merge (sys : System) (args : Args) (inputs : InputFiles) :
    Action Content Failure LedgerSummary := do
  refuseExisting [args.output, args.summaryOutput]
  let (inputSha256, claims, start) ← lift (prepare sys args inputs)
  onError
    (do
      let st ← publishOutput sys args claims start
      publishSummary sys args inputs inputSha256 st)
    (discard [partialPath args.output, partialPath args.summaryOutput])

/-! ## What the inputs decide -/

/-- The merge of the inputs, with nothing written. -/
def mergedRows (py : PyText) (args : Args) (inputs : InputFiles) : Except PyError MergeState := do
  let claims ← loadPendingReceipts py inputs.receipts
  let start ← mergeStart py args inputs claims
  mergeLoop py claims start.left start

def InputsFail (sys : System) (args : Args) : Prop :=
  ∃ input ∈ inputPaths args, sys.Fails (.hashInput input.2) ∨ sys.Fails (.openInput input.2)

/-- The steps from the creation of the CSV to its renaming. -/
def outputSteps (rows : Nat) : List Step :=
  [.createOutput, .writeHeader] ++ (List.range rows).map .mergeRow ++ [.syncOutput, .replaceOutput]

/-- The steps after the CSV has its name. -/
def summarySteps : List Step := [.hashOutput, .createSummary, .writeSummary, .replaceSummary]

/-- The run stops before the CSV has its name. -/
def StopsEarly (sys : System) (args : Args) (inputs : InputFiles) : Prop :=
  InputsFail sys args ∨
    ∀ st, mergedRows sys.py args inputs = .ok st →
      ∃ s ∈ outputSteps st.written.length, sys.Fails s

variable {sys : System} {args : Args} {inputs : InputFiles}

theorem faultAt_eq_none {s : Step} : sys.faultAt s = none ↔ ¬ sys.Fails s := by
  simp [System.faultAt, System.Fails]

theorem writeFault_eq_none {s : Step} (h : ¬ sys.Fails s) : sys.writeFault s = none := by
  simpa [System.writeFault, System.Fails] using h

theorem check_eq_ok {s : Step} {u : Unit} : sys.check s = .ok u ↔ ¬ sys.Fails s := by
  unfold System.check System.Fails
  cases h : sys.fault s with
  | none => simp
  | some f => simp

theorem partialPath_ne (path : String) : partialPath path ≠ path := by
  intro h
  have hlen := congrArg String.length h
  rw [partialPath, String.length_append] at hlen
  have : ".partial".length = 8 := by decide
  omega

theorem openRows_eq_ok {path : String} {rows : List Row} {c : Cursor} :
    openRows sys path rows = .ok c ↔
      ¬ sys.Fails (.openInput path) ∧ Cursor.start sys.py path rows = .ok c := by
  simp only [openRows, bind_eq_ok, check_eq_ok, mapError_eq_ok]
  constructor
  · rintro ⟨u, hopen, hstart⟩
    exact ⟨hopen, hstart⟩
  · rintro ⟨hopen, hstart⟩
    exact ⟨(), hopen, hstart⟩

theorem hashInputs_eq_ok {paths : List (String × String)} {hashes : List (String × String)} :
    paths.mapM (fileSha256 sys) = .ok hashes ↔
      (∀ input ∈ paths, ¬ sys.Fails (.hashInput input.2)) ∧
        hashes = paths.map fun input => (input.1, sys.inputDigest input.2) := by
  induction paths generalizing hashes with
  | nil => simp [eq_comm]
  | cons input paths ih =>
    simp only [List.mapM_cons, bind_eq_ok, ih, fileSha256, check_eq_ok, List.forall_mem_cons,
      pure_eq_ok, Except.ok.injEq, List.map_cons]
    constructor
    · rintro ⟨name, ⟨u, hinput, rfl⟩, more, ⟨hmore, rfl⟩, rfl⟩
      exact ⟨⟨hinput, hmore⟩, rfl⟩
    · rintro ⟨⟨hinput, hmore⟩, rfl⟩
      exact ⟨_, ⟨(), hinput, rfl⟩, _, ⟨hmore, rfl⟩, rfl⟩

theorem mergeStart_eq_ok {py : PyText} {claims : PendingClaims} {start : MergeState} :
    mergeStart py args inputs claims = .ok start ↔
      ∃ c0 c1 cs, Cursor.start py args.shard0Liquid inputs.shard0Liquid = .ok c0 ∧
        Cursor.start py args.shard1Liquid inputs.shard1Liquid = .ok c1 ∧
        Cursor.start py args.staking inputs.staking = .ok cs ∧
        start =
          { liquid0 := c0
            liquid1 := c1
            staking := cs
            receiptKeys := (claims.map Prod.fst).insertionSort (· ≤ ·) } := by
  simp only [mergeStart, bind_eq_ok, Except.ok.injEq]
  constructor
  · rintro ⟨c0, h0, c1, h1, cs, hs, rfl⟩
    exact ⟨c0, c1, cs, h0, h1, hs, rfl⟩
  · rintro ⟨c0, c1, cs, h0, h1, hs, rfl⟩
    exact ⟨c0, h0, c1, h1, cs, hs, rfl⟩

/-- A run gets to its first file when every input is read and well formed. -/
theorem prepare_eq_ok {hashes : List (String × String)} {claims : PendingClaims}
    {start : MergeState} :
    prepare sys args inputs = .ok (hashes, claims, start) ↔
      ¬ InputsFail sys args ∧
        hashes = (inputPaths args).map (fun input => (input.1, sys.inputDigest input.2)) ∧
        loadPendingReceipts sys.py inputs.receipts = .ok claims ∧
        mergeStart sys.py args inputs claims = .ok start := by
  have hinputs : ¬ InputsFail sys args ↔
      (∀ input ∈ inputPaths args, ¬ sys.Fails (.hashInput input.2)) ∧
        ¬ sys.Fails (.openInput args.receipts) ∧ ¬ sys.Fails (.openInput args.shard0Liquid) ∧
        ¬ sys.Fails (.openInput args.shard1Liquid) ∧ ¬ sys.Fails (.openInput args.staking) := by
    simp only [InputsFail, inputPaths, List.mem_cons, List.not_mem_nil, or_false,
      exists_eq_or_imp, forall_eq_or_imp, exists_eq_left, forall_eq, not_or]
    tauto
  simp only [prepare, bind_eq_ok, hashInputs_eq_ok, check_eq_ok, mapError_eq_ok, openRows_eq_ok,
    Except.ok.injEq, Prod.mk.injEq, hinputs, mergeStart_eq_ok]
  constructor
  · rintro ⟨_, ⟨hhash, rfl⟩, u, hreceipts, _, hload, c0, ⟨hopen0, h0⟩, c1, ⟨hopen1, h1⟩, cs,
      ⟨hopenS, hs⟩, rfl, rfl, rfl⟩
    exact ⟨⟨hhash, hreceipts, hopen0, hopen1, hopenS⟩, rfl, hload, c0, c1, cs, h0, h1, hs, rfl⟩
  · rintro ⟨⟨hhash, hreceipts, hopen0, hopen1, hopenS⟩, rfl, hload, c0, c1, cs, h0, h1, hs, rfl⟩
    exact ⟨_, ⟨hhash, rfl⟩, (), hreceipts, claims, hload, c0, ⟨hopen0, h0⟩, c1, ⟨hopen1, h1⟩, cs,
      ⟨hopenS, hs⟩, rfl, rfl, rfl⟩

/-! ## The CSV -/

theorem written_mergeStep {py : PyText} {claims : PendingClaims} {st next : MergeState}
    {key : String} (h : mergeStep py claims st key = .ok next) :
    next.written.length = st.written.length + 1 := by
  obtain ⟨current0, current1, currentStake, row, -, -, -, -, -, hwritten, -⟩ := mergeStep_ok h
  rw [hwritten, List.length_append, List.length_singleton]

theorem written_mergeLoop {py : PyText} {claims : PendingClaims} (fuel : Nat)
    {st last : MergeState} (h : mergeLoop py claims fuel st = .ok last) :
    st.written.length ≤ last.written.length := by
  induction fuel generalizing st with
  | zero =>
    cases h
    exact le_refl _
  | succ fuel ih =>
    rw [mergeLoop] at h
    cases hkey : st.key with
    | none =>
      rw [hkey] at h
      cases h
      exact le_refl _
    | some key =>
      rw [hkey] at h
      obtain ⟨next, hstep, hrest⟩ := bind_eq_ok.mp h
      have hone := written_mergeStep hstep
      have hmore := ih hrest
      omega

/-- The rows in the file are those of the merge, as long as every write succeeds. -/
theorem writeRows_ok {claims : PendingClaims} (fuel : Nat) {st last : MergeState}
    (h : mergeLoop sys.py claims fuel st = .ok last)
    (hfault : ∀ n, st.written.length ≤ n → n < last.written.length → ¬ sys.Fails (.mergeRow n))
    (d : Disk Content) :
    writeRows sys args claims fuel st (d.put (partialPath args.output) (ledgerContent st)) =
      (.ok last, d.put (partialPath args.output) (ledgerContent last)) := by
  induction fuel generalizing st with
  | zero =>
    cases h
    rfl
  | succ fuel ih =>
    rw [mergeLoop] at h
    rw [writeRows]
    cases hkey : st.key with
    | none =>
      rw [hkey] at h
      cases h
      rfl
    | some key =>
      rw [hkey] at h
      obtain ⟨next, hstep, hrest⟩ := bind_eq_ok.mp h
      have hone := written_mergeStep hstep
      have hmore := written_mergeLoop fuel hrest
      have hwrite : sys.writeFault (.mergeRow st.written.length) = none :=
        writeFault_eq_none (hfault _ (le_refl _) (by omega))
      have hlift : lift ((mergeStep sys.py claims st key).mapError Failure.script)
          (d.put (partialPath args.output) (ledgerContent st)) =
          (.ok next, d.put (partialPath args.output) (ledgerContent st)) := by
        rw [lift_run, hstep]
        rfl
      have hput : writeTo (partialPath args.output) (ledgerContent next)
          (sys.writeFault (.mergeRow st.written.length))
          (d.put (partialPath args.output) (ledgerContent st)) =
          (.ok ⟨⟩, d.put (partialPath args.output) (ledgerContent next)) := by
        rw [hwrite]
        exact writeTo_held ..
      simp only
      rw [Action.bind_ok hlift, Action.bind_ok hput]
      exact ih hrest (fun n hn => hfault n (by omega))

/-- Whatever happens in the loop, it happens to one file. -/
theorem writes_writeRows (claims : PendingClaims) (fuel : Nat) (st : MergeState) :
    Writes (partialPath args.output) (writeRows sys args claims fuel st) := by
  induction fuel generalizing st with
  | zero => exact writes_lift (.ok st)
  | succ fuel ih =>
    rw [writeRows]
    cases st.key with
    | none => exact writes_lift (.ok st)
    | some key =>
      apply Writes.bind (writes_lift _)
      intro next
      apply Writes.bind (writes_writeTo _ _)
      intro _
      exact ih next

/-- A loop that returns has met no malformed row and no fault. -/
theorem writeRows_returns {claims : PendingClaims} (fuel : Nat) {st last : MergeState}
    {d next : Disk Content} (h : writeRows sys args claims fuel st d = (.ok last, next)) :
    mergeLoop sys.py claims fuel st = .ok last ∧
      ∀ n, st.written.length ≤ n → n < last.written.length → ¬ sys.Fails (.mergeRow n) := by
  induction fuel generalizing st d with
  | zero =>
    cases h
    exact ⟨rfl, fun n hn hlast => absurd hlast (by omega)⟩
  | succ fuel ih =>
    rw [writeRows] at h
    rw [mergeLoop]
    cases hkey : st.key with
    | none =>
      rw [hkey] at h
      cases h
      exact ⟨rfl, fun n hn hlast => absurd hlast (by omega)⟩
    | some key =>
      rw [hkey] at h
      obtain ⟨after, u, hlift, hrest⟩ := Action.bind_eq_ok.mp h
      obtain ⟨u', v, hwrite, hloop⟩ := Action.bind_eq_ok.mp hrest
      rw [lift_run, Prod.mk.injEq, mapError_eq_ok] at hlift
      obtain ⟨hstep, rfl⟩ := hlift
      have hone := written_mergeStep hstep
      obtain ⟨hmore, hfaults⟩ := ih hloop
      refine ⟨by simp only [hstep, bind_ok, hmore], fun n hn hlast => ?_⟩
      by_cases hfirst : n = st.written.length
      · intro hfails
        obtain ⟨f, hf⟩ := Option.ne_none_iff_exists'.mp hfails
        rw [← hfirst, System.writeFault, hf] at hwrite
        cases hwrite
      · exact hfaults n (by omega) hlast

theorem writes_fillOutput (claims : PendingClaims) (start : MergeState) :
    Writes (partialPath args.output) (fillOutput sys args claims start) := by
  apply Writes.bind (writes_writeTo _ _)
  intro _
  apply Writes.bind (writes_writeRows _ _ _)
  intro st
  apply Writes.bind (writes_raiseIf _)
  intro _
  exact writes_lift (.ok st)

theorem mem_outputSteps {s : Step} {rows : Nat} :
    s ∈ outputSteps rows ↔
      s = .createOutput ∨ s = .writeHeader ∨ (∃ n < rows, s = .mergeRow n) ∨
        s = .syncOutput ∨ s = .replaceOutput := by
  simp only [outputSteps, List.mem_append, List.mem_cons, List.mem_map, List.mem_range,
    List.not_mem_nil, or_false, or_assoc, eq_comm]

/-- Without a fault up to its renaming the CSV holds the merged rows. -/
theorem publishOutput_ok {claims : PendingClaims} {start last : MergeState} {d : Disk Content}
    (hfree : d (partialPath args.output) = none) (hstart : start.written = [])
    (hloop : mergeLoop sys.py claims start.left start = .ok last)
    (hsteps : ∀ s ∈ outputSteps last.written.length, ¬ sys.Fails s) :
    publishOutput sys args claims start d = (.ok last, d.put args.output (ledgerContent last)) := by
  have hstep : ∀ s, s ∈ outputSteps last.written.length → sys.faultAt s = none :=
    fun s hs => faultAt_eq_none.mpr (hsteps s hs)
  apply staged_ok hfree
  · exact hstep .createOutput (by simp [outputSteps])
  · exact hstep .replaceOutput (by simp [outputSteps])
  have hheader : sys.writeFault .writeHeader = none :=
    writeFault_eq_none (hsteps _ (by simp [outputSteps]))
  have hblank : ledgerContent start = .ledger [header] := by
    simp [ledgerContent, hstart]
  have hrows := @writeRows_ok sys args claims start.left _ _ hloop
    (fun n _ hn => hsteps _ (mem_outputSteps.mpr (Or.inr (Or.inr (Or.inl ⟨n, hn, rfl⟩))))) d
  unfold fillOutput
  rw [hheader, Action.bind_ok (writeTo_held ..), ← hblank, Action.bind_ok hrows,
    hstep .syncOutput (by simp [outputSteps]), Action.bind_ok (raiseIf_none _), Action.pure_run]

/-- A fault before that leaves at most the temporary file. -/
theorem publishOutput_fails {claims : PendingClaims} {start : MergeState} {d : Disk Content}
    (hfree : d (partialPath args.output) = none) (hstart : start.written = [])
    (h : ∀ last, mergeLoop sys.py claims start.left start = .ok last →
      ∃ s ∈ outputSteps last.written.length, sys.Fails s) :
    ∃ e next, publishOutput sys args claims start d = (.error e, next) ∧
      (next = d ∨ ∃ c, next = d.put (partialPath args.output) c) := by
  apply staged_fails hfree (writes_fillOutput claims start)
  by_cases hcreate : sys.Fails .createOutput
  · exact Or.inl (Option.isSome_iff_ne_none.mpr (mt faultAt_eq_none.mp (not_not.mpr hcreate)))
  by_cases hmove : sys.Fails .replaceOutput
  · exact Or.inr (Or.inl
      (Option.isSome_iff_ne_none.mpr (mt faultAt_eq_none.mp (not_not.mpr hmove))))
  refine Or.inr (Or.inr fun last next hrun => ?_)
  obtain ⟨u, d1, hheader, hrest⟩ := Action.bind_eq_ok.mp hrun
  obtain ⟨st, d2, hrows, hsync⟩ := Action.bind_eq_ok.mp hrest
  obtain ⟨u', d3, hraise, hlast⟩ := Action.bind_eq_ok.mp hsync
  cases hlast
  obtain ⟨hloop, hfaults⟩ := writeRows_returns _ hrows
  obtain ⟨s, hs, hfails⟩ := h last hloop
  obtain rfl | rfl | ⟨n, hn, rfl⟩ | rfl | rfl := mem_outputSteps.mp hs
  · exact hcreate hfails
  · obtain ⟨f, hf⟩ := Option.ne_none_iff_exists'.mp hfails
    rw [System.writeFault, hf] at hheader
    cases hheader
  · exact hfaults n (by rw [hstart]; exact Nat.zero_le n) hn hfails
  · obtain ⟨f, hf⟩ := Option.ne_none_iff_exists'.mp hfails
    rw [System.faultAt, hf] at hraise
    cases hraise
  · exact hmove hfails

/-! ## The summary -/

section Summary

variable {hashes : List (String × String)} {st : MergeState} {d : Disk Content} {c : Content}

/-- No temporary summary can be made next to a CSV that has its name. -/
theorem publishSummary_taken (hout : d args.output = some c)
    (hname : args.output = partialPath args.summaryOutput) :
    ∃ e, publishSummary sys args inputs hashes st d = (.error e, d) := by
  unfold publishSummary
  cases hhash : sys.faultAt .hashOutput with
  | some e => exact ⟨e, Action.bind_error (raiseIf_some e d) _⟩
  | none =>
    rw [Action.bind_ok (raiseIf_none d), Action.bind_ok (readFrom_found hout _)]
    exact staged_taken (hname ▸ hout)

theorem publishSummary_fails (hout : d args.output = some c)
    (hfree : d (partialPath args.summaryOutput) = none)
    (h : ∃ s ∈ summarySteps, sys.Fails s) :
    ∃ e next, publishSummary sys args inputs hashes st d = (.error e, next) ∧
      (next = d ∨ ∃ c', next = d.put (partialPath args.summaryOutput) c') := by
  unfold publishSummary
  cases hhash : sys.faultAt .hashOutput with
  | some e => exact ⟨e, d, Action.bind_error (raiseIf_some e d) _, Or.inl rfl⟩
  | none =>
    rw [Action.bind_ok (raiseIf_none d), Action.bind_ok (readFrom_found hout _)]
    apply staged_fails hfree
    · exact (writes_writeTo _ _).bind fun _ => writes_lift (.ok _)
    obtain ⟨s, hs, hfails⟩ := h
    have hsome : (sys.faultAt s).isSome :=
      Option.isSome_iff_ne_none.mpr (mt faultAt_eq_none.mp (not_not.mpr hfails))
    simp only [summarySteps, List.mem_cons, List.not_mem_nil, or_false] at hs
    obtain rfl | rfl | rfl | rfl := hs
    · rw [hhash] at hsome
      cases hsome
    · exact Or.inl hsome
    · refine Or.inr (Or.inr fun record next hrun => ?_)
      obtain ⟨u, d1, hwrite, -⟩ := Action.bind_eq_ok.mp hrun
      obtain ⟨f, hf⟩ := Option.ne_none_iff_exists'.mp hfails
      rw [System.writeFault, hf] at hwrite
      cases hwrite
    · exact Or.inr (Or.inl hsome)

theorem publishSummary_ok (hout : d args.output = some c)
    (hfree : d (partialPath args.summaryOutput) = none)
    (h : ∀ s ∈ summarySteps, ¬ sys.Fails s) :
    publishSummary sys args inputs hashes st d =
      (.ok (summaryRecord hashes inputs.receipts st args.output (sys.digest c)),
        d.put args.summaryOutput (.summary
          (summaryRecord hashes inputs.receipts st args.output (sys.digest c)))) := by
  have hstep : ∀ s, s ∈ summarySteps → sys.faultAt s = none :=
    fun s hs => faultAt_eq_none.mpr (h s hs)
  have hwrite : sys.writeFault .writeSummary = none :=
    writeFault_eq_none (h _ (by simp [summarySteps]))
  unfold publishSummary
  rw [hstep .hashOutput (by simp [summarySteps]), Action.bind_ok (raiseIf_none d),
    Action.bind_ok (readFrom_found hout _)]
  apply staged_ok hfree
  · exact hstep .createSummary (by simp [summarySteps])
  · exact hstep .replaceSummary (by simp [summarySteps])
  unfold fillSummary
  rw [hwrite, Action.bind_ok (writeTo_held ..), Action.pure_run]

end Summary

/-! ## Whole runs -/

/-- The four names are free: the check at the start of a run passes. -/
def Free (args : Args) (d : Disk Content) : Prop :=
  ∀ p ∈ [args.output, args.summaryOutput], d p = none ∧ d (partialPath p) = none

def publishedPaths (args : Args) : List String :=
  [args.output, args.summaryOutput, partialPath args.output, partialPath args.summaryOutput]

/-- A run that fails leaves none of the files; one that returns leaves both, and the summary
has the digest of the CSV. -/
def Atomic (sys : System) (args : Args) (inputs : InputFiles) (d : Disk Content) : Prop :=
  match merge sys args inputs d with
  | (.error _, next) => ∀ p ∈ publishedPaths args, next p = none
  | (.ok record, next) =>
    ∃ lines, next args.output = some (.ledger lines) ∧
      next args.summaryOutput = some (.summary record) ∧
      record.outputSha256 = sys.digest (.ledger lines)

variable {d : Disk Content}

theorem refuse_free (h : Free args d) :
    refuseExisting [args.output, args.summaryOutput] d = (.ok (), d) := by
  have hnone : [args.output, args.summaryOutput].find?
      (fun p => (d p).isSome || (d (partialPath p)).isSome) = none := by
    rw [List.find?_eq_none]
    intro p hp
    obtain ⟨hfinal, htemp⟩ := h p hp
    simp [hfinal, htemp]
  simp only [refuseExisting, hnone]

theorem Free.temporary (h : Free args d) :
    ∀ p ∈ [partialPath args.output, partialPath args.summaryOutput], d p = none := by
  simp only [Free, List.forall_mem_cons, List.not_mem_nil, false_implies, implies_true,
    and_true] at h ⊢
  exact ⟨h.1.2, h.2.2⟩

theorem Free.output (h : Free args d) : d args.output = none :=
  (h args.output (by simp)).1

theorem Free.outputStage (h : Free args d) : d (partialPath args.output) = none :=
  h.temporary _ List.mem_cons_self

theorem Free.summaryStage (h : Free args d) : d (partialPath args.summaryOutput) = none :=
  h.temporary _ (List.mem_cons_of_mem _ List.mem_cons_self)

/-- What stops a run before the CSV has its name leaves the disk as it was. -/
theorem merge_stopsEarly (hfree : Free args d) (h : StopsEarly sys args inputs) :
    ∃ e, merge sys args inputs d = (.error e, d) := by
  unfold merge
  rw [Action.bind_ok (refuse_free hfree)]
  cases hprepare : prepare sys args inputs with
  | error e => exact ⟨e, Action.bind_error rfl _⟩
  | ok prepared =>
    obtain ⟨hashes, claims, start⟩ := prepared
    obtain ⟨hread, -, hload, hstart⟩ := prepare_eq_ok.mp hprepare
    have hstops := h.resolve_left hread
    have hwritten : start.written = [] := by
      obtain ⟨c0, c1, cs, -, -, -, rfl⟩ := mergeStart_eq_ok.mp hstart
      rfl
    have hfaults : ∀ last, mergeLoop sys.py claims start.left start = .ok last →
        ∃ s ∈ outputSteps last.written.length, sys.Fails s := by
      intro last hloop
      apply hstops last
      simp only [mergedRows, hload, hstart, bind_ok, hloop]
    obtain ⟨e, next, hrun, hnext⟩ := publishOutput_fails hfree.outputStage hwritten hfaults
    refine ⟨e, ?_⟩
    rw [Action.bind_ok (lift_run ..)]
    simp only
    rw [onError_discard (Action.bind_error hrun _)]
    obtain rfl | ⟨c, rfl⟩ := hnext
    · rw [discarded_absent hfree.temporary]
    · rw [discarded_new hfree.temporary (by simp)]

/-- Otherwise the CSV gets its name, and the run is what the summary makes of it. -/
theorem merge_publishes (hfree : Free args d) (h : ¬ StopsEarly sys args inputs) :
    ∃ st, mergedRows sys.py args inputs = .ok st ∧
      merge sys args inputs d =
        onError (publishSummary sys args inputs
            ((inputPaths args).map fun input => (input.1, sys.inputDigest input.2)) st)
          (discard [partialPath args.output, partialPath args.summaryOutput])
          (d.put args.output (ledgerContent st)) := by
  simp only [StopsEarly, not_or, not_forall, not_exists, not_and] at h
  obtain ⟨hread, st, hrows, hsteps⟩ := h
  refine ⟨st, hrows, ?_⟩
  simp only [mergedRows, bind_eq_ok] at hrows
  obtain ⟨claims, hload, start, hstart, hloop⟩ := hrows
  have hwritten : start.written = [] := by
    obtain ⟨c0, c1, cs, -, -, -, rfl⟩ := mergeStart_eq_ok.mp hstart
    rfl
  have hprepare := prepare_eq_ok.mpr ⟨hread, rfl, hload, hstart⟩
  have hpublish := publishOutput_ok hfree.outputStage hwritten hloop hsteps
  unfold merge
  rw [Action.bind_ok (refuse_free hfree), hprepare, Action.bind_ok (lift_run ..)]
  exact onError_bind hpublish

/-- The temporary names are still free once the CSV has its name, unless that is one of them. -/
theorem free_beside (hfree : Free args d) (hname : args.output ≠ partialPath args.summaryOutput)
    (c : Content) :
    ∀ p ∈ [partialPath args.output, partialPath args.summaryOutput],
      d.put args.output c p = none := by
  simp only [List.forall_mem_cons, List.not_mem_nil, false_implies, implies_true, and_true]
  constructor
  · rw [Disk.put_other d c (partialPath_ne _), hfree.outputStage]
  · rw [Disk.put_other d c hname.symm, hfree.summaryStage]

/-- A CSV under the name of the temporary summary stops the run, and the handler removes it. -/
theorem merge_taken (hfree : Free args d) (h : ¬ StopsEarly sys args inputs)
    (hname : args.output = partialPath args.summaryOutput) :
    ∃ e, merge sys args inputs d = (.error e, d) := by
  obtain ⟨st, -, hmerge⟩ := merge_publishes hfree h
  obtain ⟨e, hrun⟩ := publishSummary_taken (Disk.put_self ..) hname
  refine ⟨e, ?_⟩
  rw [hmerge, onError_discard hrun, discarded_new hfree.temporary]
  rw [hname]
  simp

/-- What fails after the renaming leaves the CSV alone. -/
theorem merge_late (hfree : Free args d) (h : ¬ StopsEarly sys args inputs)
    (hname : args.output ≠ partialPath args.summaryOutput)
    (hlate : ∃ s ∈ summarySteps, sys.Fails s) :
    ∃ e st, merge sys args inputs d = (.error e, d.put args.output (ledgerContent st)) := by
  obtain ⟨st, -, hmerge⟩ := merge_publishes hfree h
  have hbeside := free_beside hfree hname (ledgerContent st)
  obtain ⟨e, next, hrun, hnext⟩ :=
    publishSummary_fails (Disk.put_self ..) (hbeside _ (by simp)) hlate
  refine ⟨e, st, ?_⟩
  rw [hmerge, onError_discard hrun]
  obtain rfl | ⟨c, rfl⟩ := hnext
  · rw [discarded_absent hbeside]
  · rw [discarded_new hbeside (by simp)]

theorem merge_complete (hfree : Free args d) (h : ¬ StopsEarly sys args inputs)
    (hname : args.output ≠ partialPath args.summaryOutput)
    (hsteps : ∀ s ∈ summarySteps, ¬ sys.Fails s) :
    ∃ st record, mergedRows sys.py args inputs = .ok st ∧
      record = summaryRecord
        ((inputPaths args).map fun input => (input.1, sys.inputDigest input.2)) inputs.receipts st
        args.output (sys.digest (ledgerContent st)) ∧
      merge sys args inputs d = (.ok record,
        (d.put args.output (ledgerContent st)).put args.summaryOutput (.summary record)) := by
  obtain ⟨st, hrows, hmerge⟩ := merge_publishes hfree h
  have hbeside := free_beside hfree hname (ledgerContent st)
  refine ⟨st, _, hrows, rfl, ?_⟩
  rw [hmerge]
  exact onError_ok (publishSummary_ok (Disk.put_self ..) (hbeside _ (by simp)) hsteps)

/-- A returning run gives the rows and the summary of the merge on the files alone. -/
theorem merge_returns {record : LedgerSummary} {next : Disk Content} (hfree : Free args d)
    (h : merge sys args inputs d = (.ok record, next)) :
    ∃ rows, ActualSupplyLedger.merge sys.py
        { exist := fun p => (d p).isSome
          sha256 := sys.inputDigest
          sha256Written := fun lines => sys.digest (.ledger lines) } args inputs =
      .ok (rows, record) := by
  by_cases hearly : StopsEarly sys args inputs
  · obtain ⟨e, hrun⟩ := merge_stopsEarly hfree hearly
    rw [hrun] at h
    cases h
  by_cases hname : args.output = partialPath args.summaryOutput
  · obtain ⟨e, hrun⟩ := merge_taken hfree hearly hname
    rw [hrun] at h
    cases h
  by_cases hlate : ∃ s ∈ summarySteps, sys.Fails s
  · obtain ⟨e, st, hrun⟩ := merge_late hfree hearly hname hlate
    rw [hrun] at h
    cases h
  have hsteps : ∀ s ∈ summarySteps, ¬ sys.Fails s := fun s hs hfails => hlate ⟨s, hs, hfails⟩
  obtain ⟨st, complete, hrows, hrecord, hrun⟩ := merge_complete hfree hearly hname hsteps
  rw [hrun] at h
  cases h
  refine ⟨st.written, ?_⟩
  simp only [mergedRows, bind_eq_ok] at hrows
  obtain ⟨claims, hload, start, hstart, hloop⟩ := hrows
  have hnone : [args.output, args.summaryOutput].find? (Files.taken
      { exist := fun p => (d p).isSome
        sha256 := sys.inputDigest
        sha256Written := fun lines => sys.digest (.ledger lines) }) = none := by
    rw [List.find?_eq_none]
    intro p hp
    obtain ⟨hfinal, htemp⟩ := hfree p hp
    rw [partialPath] at htemp
    simp [Files.taken, hfinal, htemp]
  unfold ActualSupplyLedger.merge
  rw [hnone]
  simp only [hload, hstart, hloop, bind_ok]
  subst hrecord
  rfl

/-- The two files are published together or not at all exactly when nothing fails once the CSV
has its name. -/
theorem publishes_atomically_iff (hfree : Free args d) :
    Atomic sys args inputs d ↔
      StopsEarly sys args inputs ∨ args.output = partialPath args.summaryOutput ∨
        (∀ s ∈ summarySteps, ¬ sys.Fails s) ∧ args.output ≠ args.summaryOutput := by
  have habsent : ∀ p ∈ publishedPaths args, d p = none := by
    simp only [publishedPaths, List.forall_mem_cons, List.not_mem_nil, false_implies,
      implies_true, and_true]
    exact ⟨hfree.output, (hfree args.summaryOutput (by simp)).1, hfree.outputStage,
      hfree.summaryStage⟩
  by_cases hearly : StopsEarly sys args inputs
  · obtain ⟨e, hrun⟩ := merge_stopsEarly hfree hearly
    simp only [Atomic, hrun, hearly, true_or, iff_true]
    exact habsent
  by_cases hname : args.output = partialPath args.summaryOutput
  · obtain ⟨e, hrun⟩ := merge_taken hfree hearly hname
    simp only [Atomic, hrun, hname, true_or, or_true, iff_true]
    exact habsent
  simp only [hearly, hname, false_or]
  by_cases hlate : ∃ s ∈ summarySteps, sys.Fails s
  · -- the CSV stays behind
    obtain ⟨e, st, hrun⟩ := merge_late hfree hearly hname hlate
    obtain ⟨s, hs, hfails⟩ := hlate
    simp only [Atomic, hrun]
    constructor
    · intro h
      have hleft := h args.output (by simp [publishedPaths])
      rw [Disk.put_self] at hleft
      cases hleft
    · rintro ⟨hsteps, -⟩
      exact absurd hfails (hsteps s hs)
  have hsteps : ∀ s ∈ summarySteps, ¬ sys.Fails s := fun s hs hfails => hlate ⟨s, hs, hfails⟩
  obtain ⟨st, record, -, hrecord, hrun⟩ := merge_complete hfree hearly hname hsteps
  simp only [Atomic, hrun]
  constructor
  · rintro ⟨lines, hout, -⟩
    refine ⟨hsteps, fun hsame => ?_⟩
    -- one name for both files: the summary has replaced the CSV
    rw [hsame, Disk.put_self] at hout
    cases hout
  · rintro ⟨-, hne⟩
    refine ⟨header :: st.written.map LedgerRow.cells, ?_, Disk.put_self .., ?_⟩
    · rw [Disk.put_other _ _ hne, Disk.put_self]
      rfl
    · rw [hrecord]
      rfl

def sampleArgs : Args where
  shard0Liquid := "liquid0.csv"
  shard1Liquid := "liquid1.csv"
  staking := "staking.csv"
  receipts := "receipts.json"
  output := "ledger.csv"
  summaryOutput := "summary.json"

def sampleInputs : InputFiles where
  shard0Liquid := [[("secure_key", some "0a"), ("address", some "one1"), ("balance_atto", some "5"),
    ("nonce", some "1"), ("code_hash", some "")]]
  shard1Liquid := []
  staking := []
  receipts :=
    { directions := []
      pendingActiveAtto := "0"
      unsupportedPendingAtto := "0" }

def sampleSystem (fault : Step → Option (String × Content)) : System where
  py := PyText.ascii
  fault := fault
  inputDigest path := "sha256 of " ++ path
  digest
    | .ledger lines => "sha256 of " ++ "\n".intercalate (lines.map fun cells => ",".intercalate cells)
    | _ => "sha256 of another file"

theorem publishes_atomically_sample :
    Free sampleArgs (fun _ => none) ∧
      (Atomic (sampleSystem fun _ => none) sampleArgs sampleInputs (fun _ => none) ↔
        StopsEarly (sampleSystem fun _ => none) sampleArgs sampleInputs ∨
          sampleArgs.output = partialPath sampleArgs.summaryOutput ∨
          (∀ s ∈ summarySteps, ¬ (sampleSystem fun _ => none).Fails s) ∧
            sampleArgs.output ≠ sampleArgs.summaryOutput) :=
  ⟨fun _ _ => ⟨rfl, rfl⟩, publishes_atomically_iff fun _ _ => ⟨rfl, rfl⟩⟩

/-- No room for the summary: its creation fails, and the run fails, but the CSV stays. -/
theorem unsummarised_ledger_stays :
    Free sampleArgs (fun _ => none) ∧
      ¬ Atomic (sampleSystem fun s =>
          if s = .createSummary then some ("No space left on device", .text "") else none)
        sampleArgs sampleInputs (fun _ => none) := by
  refine ⟨fun _ _ => ⟨rfl, rfl⟩, fun h => ?_⟩
  have hfails : (merge (sampleSystem fun s =>
      if s = .createSummary then some ("No space left on device", .text "") else none)
      sampleArgs sampleInputs (fun _ => none)).1 = .error (.system "No space left on device") := by
    decide +kernel
  have hstays : (merge (sampleSystem fun s =>
      if s = .createSummary then some ("No space left on device", .text "") else none)
      sampleArgs sampleInputs (fun _ => none)).2 "ledger.csv" ≠ none := by
    decide +kernel
  rcases hrun : merge (sampleSystem fun s =>
      if s = .createSummary then some ("No space left on device", .text "") else none)
      sampleArgs sampleInputs (fun _ => none) with ⟨r, next⟩
  rw [hrun] at hfails hstays
  rw [Atomic, hrun] at h
  cases hfails
  exact hstays (h "ledger.csv" (by decide))

end LedgerPublication
