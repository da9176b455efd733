import SupplyAudit.IncomingReplay

/-!
# Replay scans of consecutive ranges

The history is scanned in ranges, by runs that share nothing. A run is a fold over
what it reads, and its rows depend only on the receipts applied before them in its
own range. A run over two ranges therefore renumbers the rows of the second range by
the first, which the run over the second range alone does not.
-/

namespace ReplayRanges

open FallibleScan WordLoops BlockBodies IncomingReplay
open ByteWords (Bytes)
open ReceiptKeys (Hash ascii canonicalHashKey)
open ChainDatabase (Database)
open OutgoingScan (OutgoingReceipt)

/-! ## What a block says -/

/-- What the scan counts, in the order in which it counts it. -/
inductive Event where
  | block (proofs : Nat)
  | proof (mismatch : Bool)
  | receipt (a : Application)
  deriving DecidableEq

def next (state : ScanState) : Event → ScanState
  | .block proofs => openBlock proofs state
  | .proof mismatch => openProof mismatch state
  | .receipt a => apply state a

variable (lib : ReplayCodec) (db : Database)

def readProof (number : UInt64) (indexed : Option ReceiptsProof × Nat) :
    Except Failure (List Event) := do
  let (signed, claimed, receipts) ← checkProof lib number indexed
  let applied ← receipts.zipIdx.mapM (checkReceipt number indexed.2 signed claimed)
  .ok (.proof (signed ≠ claimed) :: applied.map .receipt)

def readBlock (number : UInt64) : Except Failure (List Event) := do
  let proofs ← readIncoming lib db number
  let parts ← proofs.zipIdx.mapM (readProof lib number)
  .ok (.block proofs.length :: parts.flatten)

/-- What the blocks after one up to another say. -/
def readRange (start endBlock : UInt64) : Except Failure (List Event) := do
  let parts ← (numbers (start + 1) endBlock).mapM (readBlock lib db)
  .ok parts.flatten

variable {lib db}

theorem scanReceipt_eq (number : UInt64) (proofIndex : Nat) (signed claimed : SourceBlock)
    (state : ScanState) (indexed : Option OutgoingReceipt × Nat) :
    scanReceipt number proofIndex signed claimed state indexed =
      (checkReceipt number proofIndex signed claimed indexed).map (apply state) := by
  rw [scanReceipt]
  cases checkReceipt number proofIndex signed claimed indexed <;> rfl

theorem scanProof_eq (number : UInt64) (state : ScanState)
    (indexed : Option ReceiptsProof × Nat) :
    scanProof lib number state indexed =
      (readProof lib number indexed).map fun events => events.foldl next state := by
  rw [scanProof, readProof]
  cases checkProof lib number indexed with
  | error err => rfl
  | ok checked =>
    obtain ⟨signed, claimed, receipts⟩ := checked
    rw [bind_ok, bind_ok]
    dsimp only
    rw [foldlM_eq_mapM (scanReceipt_eq number indexed.2 signed claimed)]
    cases receipts.zipIdx.mapM (checkReceipt number indexed.2 signed claimed) with
    | error err => rfl
    | ok applied =>
      simp only [Except.map, bind_ok, List.foldl_cons, List.foldl_map]
      rfl

theorem scanBlock_eq (state : ScanState) (number : UInt64) :
    scanBlock lib db state number =
      (readBlock lib db number).map fun events => events.foldl next state := by
  rw [scanBlock, readBlock]
  cases readIncoming lib db number with
  | error err => rfl
  | ok proofs =>
    rw [bind_ok, bind_ok, foldlM_eq_mapM (scanProof_eq number)]
    cases proofs.zipIdx.mapM (readProof lib number) with
    | error err => rfl
    | ok parts =>
      simp only [Except.map, bind_ok, List.foldl_cons, List.foldl_flatten]
      rfl

/-- Two consecutive ranges say what both of them say. -/
theorem readRange_append {start middle endBlock : UInt64} (hstart : start < middle)
    (hmiddle : middle < endBlock) :
    readRange lib db start endBlock = (do
      let first ← readRange lib db start middle
      let second ← readRange lib db middle endBlock
      .ok (first ++ second)) := by
  rw [readRange, readRange, readRange, ← numbers_append (succ_le_of_lt hstart) hmiddle,
    List.mapM_append]
  cases (numbers (start + 1) middle).mapM (readBlock lib db) with
  | error err => rfl
  | ok first =>
    cases (numbers (middle + 1) endBlock).mapM (readBlock lib db) with
    | error err => rfl
    | ok second => exact congrArg Except.ok List.flatten_append

/-- The state after events, from the empty state. -/
def tally (events : List Event) : ScanState := events.foldl next {}

/-- A run completes when its range can be read and ends below the greatest number. -/
theorem completes_iff {flags : Flags} {rows : List Row} {summary : Summary} :
    Completes lib db flags rows summary ↔ flags.Accepted ∧ flags.endBlock ≠ lastWord ∧
      ∃ events, readRange lib db flags.start flags.endBlock = .ok events ∧
        rows = (tally events).rows ∧ summary = summarize flags (tally events) := by
  have hscan (visited : List UInt64) : visited.foldlM (scanBlock lib db) {} =
      (visited.mapM (readBlock lib db)).map fun parts => tally parts.flatten := by
    rw [foldlM_eq_mapM scanBlock_eq]
    cases visited.mapM (readBlock lib db) with
    | error err => rfl
    | ok parts => exact congrArg Except.ok List.foldl_flatten.symm
  rw [Completes]
  refine and_congr_right fun haccepted => ?_
  have hfirst : flags.start + 1 ≤ flags.endBlock := succ_le_of_lt haccepted.2.2
  have hcounts (hlast : flags.endBlock ≠ lastWord) :
      Counts (blockLoop lib db flags.endBlock) (flags.start + 1)
        (numbers (flags.start + 1) flags.endBlock) :=
    counts_numbers rfl (fun _ hbreaks => Bool.noConfusion hbreaks) (Or.inl hlast) hfirst
  constructor
  · rintro ⟨visited, state, hends, hrows, hsummary⟩
    have hlast : flags.endBlock ≠ lastWord := fun heq =>
      not_counts_of_endless heq (fun _ => rfl) hends.counts
    obtain ⟨hvisited, hstate⟩ := ends_iff_foldlM.mp hends
    rw [hvisited.unique (hcounts hlast), hscan] at hstate
    refine ⟨hlast, ?_⟩
    rw [readRange]
    cases hparts : (numbers (flags.start + 1) flags.endBlock).mapM (readBlock lib db) with
    | error err =>
      rw [hparts] at hstate
      cases hstate
    | ok parts =>
      rw [hparts] at hstate
      cases hstate
      exact ⟨parts.flatten, rfl, hrows, hsummary⟩
  · rintro ⟨hlast, events, hread, hrows, hsummary⟩
    rw [readRange, bind_eq_ok] at hread
    obtain ⟨parts, hparts, hevents⟩ := hread
    cases hevents
    refine ⟨_, tally parts.flatten, ends_iff_foldlM.mpr ⟨hcounts hlast, ?_⟩, hrows, hsummary⟩
    rw [hscan, hparts]
    rfl

/-! ## The rows of a run -/

theorem tally_concat (events : List Event) (event : Event) :
    tally (events ++ [event]) = next (tally events) event := by
  rw [tally, List.foldl_append]
  rfl

/-- The applications of a receipt. -/
def applicationsOf (txHash : Hash) (applied : List Application) : List Application :=
  applied.filter fun a => a.txHash = txHash

/-- The row of a receipt that was not applied before. -/
def Row.first (a : Application) : Row where
  toApplication := a
  duplicate := false
  firstApplicationBlock := a.destinationBlock
  applicationNumber := 1

/-- A row as it is numbered after earlier applications. -/
def carry (earlier : List Application) (row : Row) : Row :=
  { row with
    duplicate := (applicationsOf row.txHash earlier).head?.isSome || row.duplicate
    firstApplicationBlock := (applicationsOf row.txHash earlier).head?.elim
      row.firstApplicationBlock Application.destinationBlock
    applicationNumber := (applicationsOf row.txHash earlier).length + row.applicationNumber }

/-- The rows of applications after earlier ones. -/
def rowsFrom (earlier : List Application) : List Application → List Row
  | [] => []
  | a :: rest => carry earlier (Row.first a) :: rowsFrom (earlier ++ [a]) rest

def Event.application : Event → Option Application
  | .receipt a => some a
  | _ => none

def applications (events : List Event) : List Application := events.filterMap Event.application

theorem applications_append (first second : List Event) :
    applications (first ++ second) = applications first ++ applications second :=
  List.filterMap_append

theorem applicationsOf_append (txHash : Hash) (earlier later : List Application) :
    applicationsOf txHash (earlier ++ later) =
      applicationsOf txHash earlier ++ applicationsOf txHash later :=
  List.filter_append _ _

theorem carry_carry (earlier later : List Application) (row : Row) :
    carry earlier (carry later row) = carry (earlier ++ later) row := by
  simp only [carry, applicationsOf_append]
  cases applicationsOf row.txHash earlier with
  | nil => simp
  | cons a rest => simp [Nat.add_assoc, Nat.add_left_comm]

theorem rowsFrom_append (earlier first second : List Application) :
    rowsFrom earlier (first ++ second) =
      rowsFrom earlier first ++ rowsFrom (earlier ++ first) second := by
  induction first generalizing earlier with
  | nil => rw [List.append_nil]; rfl
  | cons a first ih =>
    rw [List.cons_append, rowsFrom, ih, rowsFrom, List.append_assoc]
    rfl

/-- Earlier applications only renumber the rows. -/
theorem rowsFrom_carry (earlier later applied : List Application) :
    rowsFrom (earlier ++ later) applied = (rowsFrom later applied).map (carry earlier) := by
  induction applied generalizing later with
  | nil => rfl
  | cons a applied ih =>
    rw [rowsFrom, rowsFrom, List.map_cons, carry_carry, List.append_assoc, ih]

theorem map_rowsFrom (earlier applied : List Application) :
    (rowsFrom earlier applied).map Row.toApplication = applied := by
  induction applied generalizing earlier with
  | nil => rfl
  | cons a applied ih => rw [rowsFrom, List.map_cons, ih]; rfl

/-- What the table holds of a receipt: the block of its first application and their
number. -/
def seenOf (txHash : Hash) (applied : List Application) : Option ReceiptSeen :=
  match applicationsOf txHash applied with
  | [] => none
  | a :: rest => some ⟨a.destinationBlock, rest.length + 1⟩

theorem seenOf_concat (txHash : Hash) (applied : List Application) (a : Application) :
    seenOf txHash (applied ++ [a]) =
      if txHash = a.txHash then
        let previous := (seenOf txHash applied).getD ⟨0, 0⟩
        some ⟨if previous.count ≠ 0 then previous.block else a.destinationBlock, previous.count + 1⟩
      else seenOf txHash applied := by
  rw [seenOf, seenOf, applicationsOf_append]
  by_cases hhash : txHash = a.txHash
  · have hone : applicationsOf txHash [a] = [a] := List.filter_cons_of_pos (by simp [hhash])
    rw [if_pos hhash, hone]
    cases applicationsOf txHash applied with
    | nil => rfl
    | cons b rest => simp
  · have hnone : applicationsOf txHash [a] = [] :=
      List.filter_cons_of_neg (by simpa using Ne.symm hhash)
    rw [if_neg hhash, hnone, List.append_nil]

theorem lookup_seen (events : List Event) (txHash : Hash) :
    (tally events).seen.lookup txHash = seenOf txHash (applications events) := by
  induction events using List.reverseRecOn generalizing txHash with
  | nil => rfl
  | append_singleton events event ih =>
    rw [tally_concat, applications_append]
    cases event with
    | block proofs => exact (ih txHash).trans (congrArg _ (List.append_nil _).symm)
    | proof mismatch => exact (ih txHash).trans (congrArg _ (List.append_nil _).symm)
    | receipt a =>
      change (KeyedTable.set (tally events).seen a.txHash _).lookup txHash =
        seenOf txHash (applications events ++ [a])
      rw [KeyedTable.lookup_set, seenOf_concat, ih txHash, ih a.txHash]
      by_cases hhash : txHash = a.txHash
      · rw [if_pos hhash, if_pos hhash, hhash]
      · rw [if_neg hhash, if_neg hhash]

/-- A receipt is written as numbered by the applications before it. -/
theorem apply_rows {state : ScanState} {a : Application} {earlier : List Application}
    (h : state.seen.lookup a.txHash = seenOf a.txHash earlier) :
    (apply state a).rows = state.rows ++ [carry earlier (Row.first a)] := by
  simp only [apply, carry, Row.first, h, seenOf]
  cases applicationsOf a.txHash earlier with
  | nil => simp
  | cons b rest => simp

theorem rows_tally (events : List Event) :
    (tally events).rows = rowsFrom [] (applications events) := by
  induction events using List.reverseRecOn with
  | nil => rfl
  | append_singleton events event ih =>
    rw [tally_concat, applications_append, rowsFrom_append, ← ih]
    cases event with
    | block proofs => exact (List.append_nil _).symm
    | proof mismatch => exact (List.append_nil _).symm
    | receipt a => exact apply_rows (lookup_seen events a.txHash)

theorem applications_tally (events : List Event) :
    (tally events).rows.map Row.toApplication = applications events := by
  rw [rows_tally, map_rowsFrom]

/-- The rows of a second range are renumbered by the applications of the first. -/
theorem rows_append (first second : List Event) :
    (tally (first ++ second)).rows =
      (tally first).rows ++ (tally second).rows.map (carry (applications first)) := by
  rw [rows_tally, rows_tally, rows_tally, applications_append, rowsFrom_append, ← rowsFrom_carry,
    List.nil_append, List.append_nil]

/-! ## The counters of a run -/

theorem duplicates_tally (events : List Event) :
    (tally events).duplicateApplications = ((tally events).rows.filter Row.duplicate).length := by
  induction events using List.reverseRecOn with
  | nil => rfl
  | append_singleton events event ih =>
    rw [tally_concat]
    cases event with
    | block proofs => exact ih
    | proof mismatch => exact ih
    | receipt a =>
      by_cases h : (((tally events).seen.lookup a.txHash).getD ⟨0, 0⟩).count = 0
      · simp [next, apply, ih, h]
      · simp [next, apply, ih, h]

theorem duplicateAmount_tally (events : List Event) :
    (tally events).duplicateAmount =
      (((tally events).rows.filter Row.duplicate).map fun row => row.amountAtto).sum := by
  induction events using List.reverseRecOn with
  | nil => rfl
  | append_singleton events event ih =>
    rw [tally_concat]
    cases event with
    | block proofs => exact ih
    | proof mismatch => exact ih
    | receipt a =>
      by_cases h : (((tally events).seen.lookup a.txHash).getD ⟨0, 0⟩).count = 0
      · simp [next, apply, ih, h]
      · simp [next, apply, ih, h]

/-- Every application is the first of its receipt or a duplicate. -/
theorem seen_add_duplicates (events : List Event) :
    (tally events).seen.length + (tally events).duplicateApplications =
      (tally events).receiptApplications := by
  induction events using List.reverseRecOn with
  | nil => rfl
  | append_singleton events event ih =>
    rw [tally_concat]
    cases event with
    | block proofs => exact ih
    | proof mismatch => exact ih
    | receipt a =>
      have hseen := lookup_seen events a.txHash
      simp only [next, apply, KeyedTable.length_set, ← ih]
      rw [hseen, seenOf]
      cases applicationsOf a.txHash (applications events) with
      | nil => simp; omega
      | cons b rest => simp; omega

/-- A total to which every event adds the same in every state adds over two ranges. -/
theorem total_append {M : Type*} [AddMonoid M] (total : ScanState → M) (hzero : total {} = 0)
    (hnext : ∀ state event, total (next state event) = total state + total (next {} event))
    (first second : List Event) :
    total (tally (first ++ second)) = total (tally first) + total (tally second) := by
  have htotal (events : List Event) :
      total (tally events) = (events.map fun event => total (next {} event)).sum := by
    rw [tally, foldl_total total hnext, hzero, zero_add]
  rw [htotal, htotal, htotal, List.map_append, List.sum_append]

/-! ## Reports of one receipt -/

def timesApplied (txHash : Hash) (rows : List Row) : Nat :=
  rows.countP fun row => row.txHash = txHash

def timesReported (txHash : Hash) (rows : List Row) : Nat :=
  rows.countP fun row => row.txHash = txHash ∧ row.duplicate

theorem timesApplied_rowsFrom (txHash : Hash) (earlier applied : List Application) :
    timesApplied txHash (rowsFrom earlier applied) = (applicationsOf txHash applied).length := by
  rw [applicationsOf, ← List.countP_eq_length_filter, ← map_rowsFrom earlier applied,
    List.countP_map, map_rowsFrom]
  rfl

/-- A run reports every application of a receipt but the first. -/
theorem timesReported_rowsFrom (txHash : Hash) (applied : List Application) :
    timesReported txHash (rowsFrom [] applied) = (applicationsOf txHash applied).length - 1 := by
  induction applied using List.reverseRecOn with
  | nil => rfl
  | append_singleton applied a ih =>
    rw [rowsFrom_append, timesReported, List.countP_append, ← timesReported, ih,
      applicationsOf_append, List.length_append, List.nil_append]
    change _ + [carry applied (Row.first a)].countP _ = _
    by_cases hhash : a.txHash = txHash
    · have hone : applicationsOf txHash [a] = [a] := List.filter_cons_of_pos (by simp [hhash])
      rw [hone]
      cases happlied : applicationsOf txHash applied with
      | nil => simp [carry, Row.first, hhash, happlied]
      | cons b rest => simp [carry, Row.first, hhash, happlied]
    · have hnone : applicationsOf txHash [a] = [] :=
        List.filter_cons_of_neg (by simpa using hhash)
      rw [hnone]
      simp [carry, Row.first, hhash]

theorem timesReported_tally (txHash : Hash) (events : List Event) :
    timesReported txHash (tally events).rows = timesApplied txHash (tally events).rows - 1 := by
  rw [rows_tally, timesReported_rowsFrom, timesApplied_rowsFrom]

/-! ## Two ranges and both at once -/

/-- What a run writes. -/
structure Output where
  rows : List Row
  summary : Summary

variable (lib db) in
def Writes (flags : Flags) (output : Output) : Prop :=
  Completes lib db flags output.rows output.summary

/-- The first applications of a range of receipts that were already applied before it. -/
def repeated (earlier : List Application) (rows : List Row) : List Row :=
  rows.filter fun row => (applicationsOf row.txHash earlier).head?.isSome && !row.duplicate

/-- A written amount is the sum of two, up to a further amount. -/
def AmountsAdd (extra : Int) (first second whole : String) : Prop :=
  ∃ m n : Int, first = toString m ∧ second = toString n ∧ whole = toString (m + n + extra)

/-- What the outputs of two consecutive ranges tell of the output of both at once. -/
structure Composes (first second whole : Output) : Prop where
  rows : whole.rows =
    first.rows ++ second.rows.map (carry (first.rows.map Row.toApplication))
  blocksScanned : whole.summary.blocksScanned =
    first.summary.blocksScanned + second.summary.blocksScanned
  blocksWithIncomingReceipts : whole.summary.blocksWithIncomingReceipts =
    first.summary.blocksWithIncomingReceipts + second.summary.blocksWithIncomingReceipts
  proofApplications : whole.summary.proofApplications =
    first.summary.proofApplications + second.summary.proofApplications
  receiptApplications : whole.summary.receiptApplications =
    first.summary.receiptApplications + second.summary.receiptApplications
  mismatchedProofs : whole.summary.mismatchedProofs =
    first.summary.mismatchedProofs + second.summary.mismatchedProofs
  mismatchedReceiptApps : whole.summary.mismatchedReceiptApps =
    first.summary.mismatchedReceiptApps + second.summary.mismatchedReceiptApps
  incomingAmountAtto : AmountsAdd 0 first.summary.incomingAmountAtto
    second.summary.incomingAmountAtto whole.summary.incomingAmountAtto
  mismatchedAmountAtto : AmountsAdd 0 first.summary.mismatchedAmountAtto
    second.summary.mismatchedAmountAtto whole.summary.mismatchedAmountAtto
  uniqueReceiptHashes : whole.summary.uniqueReceiptHashes +
      (repeated (first.rows.map Row.toApplication) second.rows).length =
    first.summary.uniqueReceiptHashes + second.summary.uniqueReceiptHashes
  duplicateReceiptApps : whole.summary.duplicateReceiptApps =
    first.summary.duplicateReceiptApps + second.summary.duplicateReceiptApps +
      (repeated (first.rows.map Row.toApplication) second.rows).length
  duplicateAmountAtto : AmountsAdd
    ((repeated (first.rows.map Row.toApplication) second.rows).map fun row => row.amountAtto).sum
    first.summary.duplicateAmountAtto second.summary.duplicateAmountAtto
    whole.summary.duplicateAmountAtto
  reported : ∀ txHash,
    timesReported txHash first.rows = timesApplied txHash first.rows - 1 ∧
      timesReported txHash second.rows = timesApplied txHash second.rows - 1 ∧
      timesReported txHash whole.rows =
        timesApplied txHash first.rows + timesApplied txHash second.rows - 1

/-- The rows and the duplicates of two ranges are those of both at once. -/
def Exact (first second whole : Output) : Prop :=
  whole.rows = first.rows ++ second.rows ∧
    whole.summary.duplicateReceiptApps =
      first.summary.duplicateReceiptApps + second.summary.duplicateReceiptApps ∧
    AmountsAdd 0 first.summary.duplicateAmountAtto second.summary.duplicateAmountAtto
      whole.summary.duplicateAmountAtto

/-- No receipt is applied in both ranges. -/
def Apart (first second : Output) : Prop :=
  ∀ row ∈ first.rows, ∀ row' ∈ second.rows, row.txHash ≠ row'.txHash

theorem duplicates_carry {M : Type*} [AddCommMonoid M] (earlier : List Application)
    (weight : Row → M) (hweight : ∀ row, weight (carry earlier row) = weight row)
    (rows : List Row) :
    ((((rows.map (carry earlier)).filter Row.duplicate)).map weight).sum =
      ((rows.filter Row.duplicate).map weight).sum + ((repeated earlier rows).map weight).sum := by
  rw [repeated, ← sum_filter_or, List.filter_map, List.map_map]
  exact congrArg List.sum (List.map_congr_left fun row _ => hweight row)

theorem duplicates_append (first second : List Event) :
    (tally (first ++ second)).duplicateApplications =
      (tally first).duplicateApplications + (tally second).duplicateApplications +
        (repeated (applications first) (tally second).rows).length := by
  have hcarried := duplicates_carry (applications first) (fun _ => 1) (fun _ => rfl)
    (tally second).rows
  simp only [List.map_const', List.sum_replicate_nat, Nat.mul_one] at hcarried
  rw [duplicates_tally, duplicates_tally, duplicates_tally, rows_append, List.filter_append,
    List.length_append, hcarried, Nat.add_assoc]

theorem duplicateAmount_append (first second : List Event) :
    (tally (first ++ second)).duplicateAmount =
      (tally first).duplicateAmount + (tally second).duplicateAmount +
        ((repeated (applications first) (tally second).rows).map fun row => row.amountAtto).sum := by
  have hcarried := duplicates_carry (applications first) (fun row => row.amountAtto)
    (fun _ => rfl) (tally second).rows
  rw [duplicateAmount_tally, duplicateAmount_tally, duplicateAmount_tally, rows_append,
    List.filter_append, List.map_append, List.sum_append, hcarried, add_assoc]

theorem timesApplied_append (txHash : Hash) (first second : List Event) :
    timesApplied txHash (tally (first ++ second)).rows =
      timesApplied txHash (tally first).rows + timesApplied txHash (tally second).rows := by
  rw [rows_tally, rows_tally, rows_tally, timesApplied_rowsFrom, timesApplied_rowsFrom,
    timesApplied_rowsFrom, applications_append, applicationsOf_append, List.length_append]

theorem composes_tally (first second : List Event) {flags flags' whole : Flags}
    (hstart : whole.start = flags.start) (hmiddle : flags'.start = flags.endBlock)
    (hend : whole.endBlock = flags'.endBlock) :
    Composes ⟨(tally first).rows, summarize flags (tally first)⟩
      ⟨(tally second).rows, summarize flags' (tally second)⟩
      ⟨(tally (first ++ second)).rows, summarize whole (tally (first ++ second))⟩ := by
  have hreceipts := total_append ScanState.receiptApplications rfl
    (fun state event => by cases event <;> rfl) first second
  have hduplicates := duplicates_append first second
  have hincoming := total_append ScanState.incomingAmount rfl
    (fun state event => by cases event <;> simp [next, openBlock, openProof, apply]) first second
  have hmismatched := total_append ScanState.mismatchedAmount rfl
    (fun state event => by cases event <;> simp [next, openBlock, openProof, apply]) first second
  constructor
  case rows => rw [applications_tally, rows_append]
  case blocksScanned =>
    change whole.endBlock - whole.start = flags.endBlock - flags.start +
      (flags'.endBlock - flags'.start)
    rw [hstart, hmiddle, hend]
    grind
  case blocksWithIncomingReceipts =>
    exact total_append ScanState.blocksWithIncoming rfl
      (fun state event => by cases event <;> simp [next, openBlock, openProof, apply]) first second
  case proofApplications =>
    exact total_append ScanState.proofApplications rfl
      (fun state event => by cases event <;> rfl) first second
  case receiptApplications => exact hreceipts
  case mismatchedProofs =>
    exact total_append ScanState.mismatchedProofs rfl
      (fun state event => by cases event <;> simp [next, openBlock, openProof, apply]) first second
  case mismatchedReceiptApps =>
    exact total_append ScanState.mismatchedApplications rfl
      (fun state event => by cases event <;> simp [next, openBlock, openProof, apply]) first second
  case incomingAmountAtto =>
    refine ⟨(tally first).incomingAmount, (tally second).incomingAmount, rfl, rfl, ?_⟩
    rw [add_zero, ← hincoming]
    rfl
  case mismatchedAmountAtto =>
    refine ⟨(tally first).mismatchedAmount, (tally second).mismatchedAmount, rfl, rfl, ?_⟩
    rw [add_zero, ← hmismatched]
    rfl
  case uniqueReceiptHashes =>
    have hfirst := seen_add_duplicates first
    have hsecond := seen_add_duplicates second
    have hwhole := seen_add_duplicates (first ++ second)
    rw [applications_tally]
    change (tally (first ++ second)).seen.length +
        (repeated (applications first) (tally second).rows).length =
      (tally first).seen.length + (tally second).seen.length
    omega
  case duplicateReceiptApps =>
    rw [applications_tally]
    exact hduplicates
  case duplicateAmountAtto =>
    rw [applications_tally]
    refine ⟨(tally first).duplicateAmount, (tally second).duplicateAmount, rfl, rfl, ?_⟩
    rw [← duplicateAmount_append]
    rfl
  case reported =>
    intro txHash
    refine ⟨timesReported_tally txHash first, timesReported_tally txHash second, ?_⟩
    rw [timesReported_tally, timesApplied_append]

theorem repeated_of_apart {first second : Output} (h : Apart first second) :
    ∀ row ∈ second.rows, applicationsOf row.txHash (first.rows.map Row.toApplication) = [] := by
  intro row hrow
  refine List.filter_eq_nil_iff.mpr fun a ha => ?_
  obtain ⟨earlier, hearlier, rfl⟩ := List.mem_map.mp ha
  simpa using h earlier hearlier row hrow

/-- Outputs that compose are exact when no receipt is applied in both ranges. -/
theorem Composes.exact_iff {first second whole : Output} (h : Composes first second whole) :
    Exact first second whole ↔ Apart first second := by
  constructor
  · rintro ⟨hrows, -⟩ row hrow row' hrow' hhash
    rw [h.rows] at hrows
    have hcarried := List.map_inj_left.mp
      ((List.append_cancel_left hrows).trans (List.map_id _).symm) row' hrow'
    have hnumber := congrArg Row.applicationNumber hcarried
    have hnone : (applicationsOf row'.txHash (first.rows.map Row.toApplication)).length = 0 :=
      Nat.add_right_cancel (hnumber.trans (Nat.zero_add _).symm)
    have hmem : row.toApplication ∈
        applicationsOf row'.txHash (first.rows.map Row.toApplication) :=
      List.mem_filter.mpr ⟨List.mem_map_of_mem hrow, by simpa using hhash⟩
    rw [List.length_eq_zero_iff.mp hnone] at hmem
    cases hmem
  · intro hapart
    have hnone := repeated_of_apart hapart
    have hrepeated : repeated (first.rows.map Row.toApplication) second.rows = [] :=
      List.filter_eq_nil_iff.mpr fun row hrow => by simp [hnone row hrow]
    have hduplicates := h.duplicateReceiptApps
    have hamount := h.duplicateAmountAtto
    rw [hrepeated] at hduplicates hamount
    refine ⟨?_, hduplicates, hamount⟩
    rw [h.rows]
    refine congrArg (first.rows ++ ·) ((List.map_congr_left fun row hrow => ?_).trans (List.map_id _))
    simp [carry, hnone row hrow]

/-- Two consecutive ranges can be scanned when both at once can, and their outputs
compose, exactly when no receipt is applied in both. -/
theorem replay_ranges_compose (lib : ReplayCodec) (db : Database) (flags flags' whole : Flags)
    (hflags : flags.Accepted) (hflags' : flags'.Accepted) (hwhole : whole.Accepted)
    (hstart : whole.start = flags.start) (hmiddle : flags'.start = flags.endBlock)
    (hend : whole.endBlock = flags'.endBlock) :
    ((∃ output, Writes lib db whole output) ↔
      (∃ first, Writes lib db flags first) ∧ ∃ second, Writes lib db flags' second) ∧
    ∀ first second output, Writes lib db flags first → Writes lib db flags' second →
      Writes lib db whole output →
      Composes first second output ∧ (Exact first second output ↔ Apart first second) := by
  have hread : readRange lib db whole.start whole.endBlock = (do
      let first ← readRange lib db flags.start flags.endBlock
      let second ← readRange lib db flags'.start flags'.endBlock
      .ok (first ++ second)) := by
    have hlt := hflags'.2.2
    rw [hmiddle] at hlt ⊢
    rw [hstart, hend]
    exact readRange_append hflags.2.2 hlt
  have hlast : flags.endBlock ≠ lastWord := by
    have hlt := hflags'.2.2
    rw [hmiddle] at hlt
    exact ne_lastWord_of_lt hlt
  constructor
  · constructor
    · rintro ⟨output, houtput⟩
      obtain ⟨-, hlastWhole, events, hevents, -⟩ := completes_iff.mp houtput
      rw [hread, bind_eq_ok] at hevents
      obtain ⟨first, hfirst, hevents⟩ := hevents
      rw [bind_eq_ok] at hevents
      obtain ⟨second, hsecond, -⟩ := hevents
      rw [hend] at hlastWhole
      exact ⟨⟨⟨_, _⟩, completes_iff.mpr ⟨hflags, hlast, first, hfirst, rfl, rfl⟩⟩,
        ⟨⟨_, _⟩, completes_iff.mpr ⟨hflags', hlastWhole, second, hsecond, rfl, rfl⟩⟩⟩
    · rintro ⟨⟨_, hfirst⟩, ⟨_, hsecond⟩⟩
      obtain ⟨-, -, first, hfirst, -⟩ := completes_iff.mp hfirst
      obtain ⟨-, hlastWhole, second, hsecond, -⟩ := completes_iff.mp hsecond
      rw [← hend] at hlastWhole
      refine ⟨⟨_, _⟩, completes_iff.mpr ⟨hwhole, hlastWhole, first ++ second, ?_, rfl, rfl⟩⟩
      rw [hread, hfirst, bind_ok, hsecond, bind_ok]
  · rintro ⟨rows, summary⟩ ⟨rows', summary'⟩ ⟨rowsWhole, summaryWhole⟩ hfirst hsecond houtput
    obtain ⟨-, -, first, hfirst, hrows, hsummary⟩ := completes_iff.mp hfirst
    obtain ⟨-, -, second, hsecond, hrows', hsummary'⟩ := completes_iff.mp hsecond
    obtain ⟨-, -, events, hevents, hrowsWhole, hsummaryWhole⟩ := completes_iff.mp houtput
    rw [hread, hfirst, bind_ok, hsecond, bind_ok] at hevents
    cases hevents
    dsimp only at hrows hsummary hrows' hsummary' hrowsWhole hsummaryWhole
    subst hrows hsummary hrows' hsummary' hrowsWhole hsummaryWhole
    have hcomposes := composes_tally first second hstart hmiddle hend
    exact ⟨hcomposes, hcomposes.exact_iff⟩

/-! ## A receipt applied twice -/

/-- The header `("HmnyTgd", "v3", fields)` of source block 7 of shard 1, its other fields
empty. -/
def headerFields : List Bytes :=
  List.replicate 8 ([0x80] : Bytes) ++ [[0x07]] ++ List.replicate 7 ([0x80] : Bytes) ++ [[0x01]]

def headerRaw : Bytes := 0xd1 :: headerFields.flatten

def envelopeHead : Bytes := 0x87 :: (ascii ['H', 'm', 'n', 'y', 'T', 'g', 'd'] ++ [0x82])

def headerBytes : Bytes := 0xdd :: (envelopeHead ++ ascii ['v', '3'] ++ headerRaw)

def headerHash : Hash where
  data := [0x07, 0x95, 0xc6, 0x43, 0x55, 0xc2, 0xc5, 0x68, 0xc5, 0xe2, 0xe0, 0x95, 0x2d, 0x0c, 0x1d,
    0xf5, 0x13, 0xdf, 0xaf, 0x0f, 0x3a, 0x53, 0x45, 0x22, 0x17, 0x3b, 0x7c, 0xe1, 0x49, 0x23, 0xf5,
    0x03]
  size := rfl

def replayedReceipt : OutgoingReceipt where
  txHash := .fill 32 9
  recipient := some (.fill 20 11)
  shardID := 1
  toShardID := 0
  amount := some 5
  sender := .fill 20 10

def receiptBytes : Bytes :=
  ([0xf8, 0x4e, 0xa0] : Bytes) ++ List.replicate 32 9 ++ 0x94 :: List.replicate 20 10 ++
    0x94 :: List.replicate 20 11 ++ [0x01, 0x80, 0x05]

def merkleBytes : Bytes :=
  ([0xf8, 0x68, 0x07, 0xa0] : Bytes) ++ headerHash.data ++ [0x01, 0xa0] ++ List.replicate 32 3 ++
    [0xc1, 0x80, 0xe1, 0xa0] ++ List.replicate 32 3

/-- One proof of one receipt, without signature. -/
def proofsBytes : Bytes :=
  ([0xf8, 0xde, 0xf8, 0xdc, 0xf8, 0x50] : Bytes) ++ receiptBytes ++ merkleBytes ++ headerBytes ++
    [0x80, 0x80]

def bodyRaw : Bytes := ([0xf8, 0xe3, 0xc0, 0xc0, 0xc0] : Bytes) ++ proofsBytes

def bodyBytes : Bytes := ([0xf8, 0xf0] : Bytes) ++ envelopeHead ++ ascii ['v', '2'] ++ bodyRaw

def replayedCodec : ReplayCodec where
  keccak256 bytes := if bytes = headerBytes then headerHash else .zero 32
  sha256 _ := List.replicate 32 0
  decodeEnvelope bytes :=
    if bytes = headerBytes then .ok ⟨"HmnyTgd", "v3", headerRaw⟩
    else if bytes = bodyBytes then .ok ⟨"HmnyTgd", "v2", bodyRaw⟩
    else .error "rlp: expected input list"
  decodeFields raw :=
    if raw = headerRaw then .ok headerFields
    else if raw = bodyRaw then .ok [[0xc0], [0xc0], [0xc0], proofsBytes]
    else .error "rlp: expected input list"
  decodeProofs bytes :=
    if bytes = proofsBytes then
      .ok [some ⟨[some replayedReceipt], some ⟨some 7, headerHash, 1⟩, headerBytes⟩]
    else .error "rlp: expected input list"
  decodeBig bytes :=
    if bytes = [0x07] then .ok 7 else .error "rlp: expected input string or byte"
  decodeUint32 bytes :=
    if bytes = [0x01] then .ok 1 else .error "rlp: expected input string or byte"

/-- Blocks 1 and 2, both with the body that applies the receipt. -/
def replayedBlocks : Database where
  get key :=
    if key = canonicalHashKey 1 then .ok (List.replicate 32 1)
    else if key = canonicalHashKey 2 then .ok (List.replicate 32 2)
    else if key = bodyKey 1 (.fill 32 1) ∨ key = bodyKey 2 (.fill 32 2) then .ok bodyBytes
    else .error "leveldb: not found"
  has _ := .ok true
  newIterator _ := ([], none)

def replayedFlags (start endBlock : UInt64) : Flags where
  dbPath := "archive"
  start := start
  endBlock := endBlock
  output := "cx-replay.csv"

def replayedApplication (number : UInt64) : Application where
  destinationBlock := number
  proofIndex := 0
  receiptIndex := 0
  txHash := .fill 32 9
  sender := .fill 20 10
  recipient := .fill 20 11
  amountAtto := 5
  signed := ⟨headerHash, 1, 7⟩
  claimed := ⟨headerHash, 1, 7⟩

def replayedEvents (number : UInt64) : List Event :=
  [.block 1, .proof false, .receipt (replayedApplication number)]

def replayedOutput (start endBlock : UInt64) (events : List Event) : Output where
  rows := (tally events).rows
  summary := summarize (replayedFlags start endBlock) (tally events)

theorem writes_replayed {start endBlock : UInt64} {events : List Event}
    (haccepted : (replayedFlags start endBlock).Accepted) (hlast : endBlock ≠ lastWord)
    (hread : readRange replayedCodec replayedBlocks start endBlock = .ok events) :
    Writes replayedCodec replayedBlocks (replayedFlags start endBlock)
      (replayedOutput start endBlock events) :=
  completes_iff.mpr ⟨haccepted, hlast, events, hread, rfl, rfl⟩

theorem writes_first : Writes replayedCodec replayedBlocks (replayedFlags 0 1)
    (replayedOutput 0 1 (replayedEvents 1)) :=
  writes_replayed (by decide) (by decide) (by decide +kernel)

theorem writes_second : Writes replayedCodec replayedBlocks (replayedFlags 1 2)
    (replayedOutput 1 2 (replayedEvents 2)) :=
  writes_replayed (by decide) (by decide) (by decide +kernel)

theorem writes_both : Writes replayedCodec replayedBlocks (replayedFlags 0 2)
    (replayedOutput 0 2 (replayedEvents 1 ++ replayedEvents 2)) :=
  writes_replayed (by decide) (by decide) (by decide +kernel)

theorem replay_ranges_compose_replayed :
    Composes (replayedOutput 0 1 (replayedEvents 1)) (replayedOutput 1 2 (replayedEvents 2))
      (replayedOutput 0 2 (replayedEvents 1 ++ replayedEvents 2)) :=
  ((replay_ranges_compose replayedCodec replayedBlocks (replayedFlags 0 1) (replayedFlags 1 2)
    (replayedFlags 0 2) (by decide) (by decide) (by decide) rfl rfl rfl).2 _ _ _ writes_first
    writes_second writes_both).1

/-- A receipt applied once in each of two ranges is reported by the run over both only. -/
theorem replayed_between_ranges : ∃ first second whole,
    Writes replayedCodec replayedBlocks (replayedFlags 0 1) first ∧
    Writes replayedCodec replayedBlocks (replayedFlags 1 2) second ∧
    Writes replayedCodec replayedBlocks (replayedFlags 0 2) whole ∧
    timesApplied (.fill 32 9) first.rows = 1 ∧ timesApplied (.fill 32 9) second.rows = 1 ∧
    first.summary.duplicateReceiptApps = 0 ∧ second.summary.duplicateReceiptApps = 0 ∧
    whole.summary.duplicateReceiptApps = 1 ∧ ¬ Exact first second whole := by
  have hfirst : (replayedOutput 0 1 (replayedEvents 1)).summary.duplicateReceiptApps = 0 := rfl
  have hsecond : (replayedOutput 1 2 (replayedEvents 2)).summary.duplicateReceiptApps = 0 := rfl
  have hboth : (replayedOutput 0 2
      (replayedEvents 1 ++ replayedEvents 2)).summary.duplicateReceiptApps = 1 := by
    decide +kernel
  refine ⟨_, _, _, writes_first, writes_second, writes_both, by decide +kernel, by decide +kernel,
    hfirst, hsecond, hboth, ?_⟩
  rintro ⟨-, hduplicates, -⟩
  rw [hfirst, hsecond, hboth] at hduplicates
  cases hduplicates

end ReplayRanges
