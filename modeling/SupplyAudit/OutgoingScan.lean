import SupplyAudit.KeyedTable
import SupplyAudit.PublishedTotals

/-!
# The outgoing receipt scan

`outgoing-cx-scan` walks the receipt groups of one source database, writes one
row for each receipt of a canonical group and totals them by destination. It
reads the canonical hash by the node's own accessor and has no cutoff.
-/

namespace OutgoingScan

open ByteWords ReceiptKeys ChainDatabase FallibleScan CrossShardSupply

/-- A stored receipt with its sender, which only this scan reads. -/
structure OutgoingReceipt extends CxReceipt where
  sender : Address
  deriving DecidableEq

/-- The library functions, with a receipt decoder that keeps the senders. -/
structure OutgoingCodec extends Codec where
  decodeOutgoing : Bytes → Except String (List (Option OutgoingReceipt))
  forgets : ∀ value, decodeReceipts value =
    (decodeOutgoing value).map (List.map (Option.map OutgoingReceipt.toCxReceipt))

/-- A row of the CSV output. -/
structure Row where
  sourceShard : UInt32
  destinationShard : UInt32
  sourceBlock : UInt64
  sourceBlockHash : Hash
  receiptIndex : Nat
  txHash : Hash
  sender : Address
  recipient : Address
  amountAtto : Int
  deriving DecidableEq

structure MutableDestination where
  groups : Nat := 0
  receipts : Nat := 0
  amount : Int := 0
  deriving DecidableEq

structure DestinationSummary where
  destinationShard : UInt32
  receiptGroups : Nat
  receiptCount : Nat
  amountAtto : String
  deriving DecidableEq

structure Summary where
  dbPath : String
  sourceShard : UInt32
  canonicalGroups : Nat
  noncanonicalGroups : Nat
  missingCanonicalHashGroup : Nat
  emptyGroups : Nat
  destinations : List DestinationSummary
  outputPath : String
  deriving DecidableEq

inductive Failure where
  | usage
  | decodeGroup (number : UInt64) (err : String)
  | invalidReceipt (number : UInt64) (index : Nat)
  | iterate (err : String)
  deriving DecidableEq

def Failure.text : Failure → String
  | .usage => ""
  | .decodeGroup number err =>
    "decode receipt group block " ++ toString number.toNat ++ ": " ++ err
  | .invalidReceipt number index =>
    "invalid receipt block " ++ toString number.toNat ++ " index " ++ toString index
  | .iterate err => "iterate outgoing receipts: " ++ err

/-- The variables of the loop over iterated records, with the rows written so far. -/
structure ScanState where
  rows : List Row := []
  destinations : List (UInt32 × MutableDestination) := []
  canonicalGroups : Nat := 0
  noncanonicalGroups : Nat := 0
  missingHashGroups : Nat := 0
  emptyGroups : Nat := 0
  deriving DecidableEq

/-- The row of one receipt, if it passes the checks on its group. -/
def receiptRow (sourceShard destination : UInt32) (number : UInt64) (hash : Hash)
    (indexed : Option OutgoingReceipt × Nat) : Except Failure Row :=
  match indexed with
  | (some ⟨⟨txHash, some recipient, shardID, toShardID, some amount⟩, sender⟩, index) =>
    if amount < 0 ∨ shardID ≠ sourceShard ∨ toShardID ≠ destination then
      .error (.invalidReceipt number index)
    else .ok
      { sourceShard := sourceShard
        destinationShard := destination
        sourceBlock := number
        sourceBlockHash := hash
        receiptIndex := index
        txHash := txHash
        sender := sender
        recipient := recipient
        amountAtto := amount }
  | (_, index) => .error (.invalidReceipt number index)

/-- One more receipt of a destination, and its row. -/
def countRow (acc : MutableDestination × List Row) (row : Row) : MutableDestination × List Row :=
  ({ acc.1 with
      receipts := acc.1.receipts + 1
      amount := acc.1.amount + row.amountAtto }, acc.2 ++ [row])

/-- The body of the loop over the receipts of a group. -/
def writeReceipt (sourceShard destination : UInt32) (number : UInt64) (hash : Hash)
    (acc : MutableDestination × List Row) (indexed : Option OutgoingReceipt × Nat) :
    Except Failure (MutableDestination × List Row) :=
  (receiptRow sourceShard destination number hash indexed).map (countRow acc)

/-- The body of the loop over iterated records. -/
def scanRecord (lib : OutgoingCodec) (sourceShard : UInt32) (db : Database) (state : ScanState)
    (record : Record) : Except Failure ScanState :=
  match receiptKeyParts record.1 with
  | none => .ok state
  | some (destination, number, hash) =>
    let canonicalHash := rawdbReadCanonicalHash db number
    if canonicalHash = FixedBytes.zero 32 then
      .ok { state with missingHashGroups := state.missingHashGroups + 1 }
    else if canonicalHash ≠ hash then
      .ok { state with noncanonicalGroups := state.noncanonicalGroups + 1 }
    else if record.2 = [0xc0] then .ok { state with emptyGroups := state.emptyGroups + 1 }
    else match lib.decodeOutgoing record.2 with
      | .error err => .error (.decodeGroup number err)
      | .ok receipts =>
        let totals := (state.destinations.lookup destination).getD {}
        let totals := { totals with groups := totals.groups + 1 }
        match receipts.zipIdx.foldlM (writeReceipt sourceShard destination number hash)
            (totals, state.rows) with
        | .error err => .error err
        | .ok (totals, rows) => .ok { state with
            canonicalGroups := state.canonicalGroups + 1
            destinations := KeyedTable.set state.destinations destination totals
            rows := rows }

/-- The loop that publishes the totals of shards 0 to 3. -/
def publishedDestinations (destinations : List (UInt32 × MutableDestination)) :
    List DestinationSummary :=
  ([0, 1, 2, 3] : List UInt32).filterMap fun destination =>
    (destinations.lookup destination).map fun totals =>
      { destinationShard := destination
        receiptGroups := totals.groups
        receiptCount := totals.receipts
        amountAtto := toString totals.amount }

structure Flags where
  db : String
  sourceShard : UInt64
  output : String

/-- The loop over the records that the iterator serves, and the check at its end. -/
def scan (lib : OutgoingCodec) (sourceShard : UInt32) (db : Database) : Except Failure ScanState :=
  let iterator := db.newIterator receiptPrefix
  match iterator.1.foldlM (scanRecord lib sourceShard db) {} with
  | .error err => .error err
  | .ok state =>
    match iterator.2 with
    | some err => .error (.iterate err)
    | none => .ok state

/-- The rows that are published, and the summary. -/
def main (lib : OutgoingCodec) (flags : Flags) (db : Database) :
    Except Failure (List Row × Summary) :=
  if flags.db = "" ∨ flags.output = "" ∨ flags.sourceShard > 0xffffffff then .error .usage
  else match scan lib flags.sourceShard.toUInt32 db with
    | .error err => .error err
    | .ok state => .ok (state.rows,
      { dbPath := flags.db
        sourceShard := flags.sourceShard.toUInt32
        canonicalGroups := state.canonicalGroups
        noncanonicalGroups := state.noncanonicalGroups
        missingCanonicalHashGroup := state.missingHashGroups
        emptyGroups := state.emptyGroups
        destinations := publishedDestinations state.destinations
        outputPath := flags.output })

/-! ## What the scan decides about one record -/

inductive Outcome where
  | skipped
  | missingHash
  | noncanonical
  | empty
  | canonical (destination : UInt32) (rows : List Row)
  deriving DecidableEq

/-- The rows of the receipts of one group. -/
def groupRows (sourceShard destination : UInt32) (number : UInt64) (hash : Hash)
    (receipts : List (Option OutgoingReceipt)) : Except Failure (List Row) :=
  receipts.zipIdx.mapM (receiptRow sourceShard destination number hash)

def verdict (lib : OutgoingCodec) (sourceShard : UInt32) (db : Database) (record : Record) :
    Except Failure Outcome :=
  match receiptKeyParts record.1 with
  | none => .ok .skipped
  | some (destination, number, hash) =>
    if rawdbReadCanonicalHash db number = FixedBytes.zero 32 then .ok .missingHash
    else if rawdbReadCanonicalHash db number ≠ hash then .ok .noncanonical
    else if record.2 = [0xc0] then .ok .empty
    else match lib.decodeOutgoing record.2 with
      | .error err => .error (.decodeGroup number err)
      | .ok receipts =>
        (groupRows sourceShard destination number hash receipts).map (.canonical destination)

/-- The totals of a destination after one more group with these rows. -/
def addGroup (totals : MutableDestination) (rows : List Row) : MutableDestination where
  groups := totals.groups + 1
  receipts := totals.receipts + rows.length
  amount := totals.amount + (rows.map Row.amountAtto).sum

/-- The effect of a verdict on the loop's variables. -/
def tally (state : ScanState) : Outcome → ScanState
  | .skipped => state
  | .missingHash => { state with missingHashGroups := state.missingHashGroups + 1 }
  | .noncanonical => { state with noncanonicalGroups := state.noncanonicalGroups + 1 }
  | .empty => { state with emptyGroups := state.emptyGroups + 1 }
  | .canonical destination rows => { state with
      canonicalGroups := state.canonicalGroups + 1
      destinations := KeyedTable.update state.destinations destination {}
        fun totals => addGroup totals rows
      rows := state.rows ++ rows }

theorem foldl_countRow (rows : List Row) (acc : MutableDestination × List Row) :
    rows.foldl countRow acc =
      ({ acc.1 with
          receipts := acc.1.receipts + rows.length
          amount := acc.1.amount + (rows.map Row.amountAtto).sum }, acc.2 ++ rows) := by
  induction rows generalizing acc with
  | nil => simp
  | cons row rows ih =>
    rw [List.foldl_cons, ih]
    simp only [countRow, List.length_cons, List.map_cons, List.sum_cons, List.append_assoc,
      List.singleton_append]
    rw [Nat.add_assoc, Nat.add_comm 1, Int.add_assoc]

/-- The receipt loop appends the rows of the group and adds them to the totals. -/
theorem foldlM_writeReceipt (sourceShard destination : UInt32) (number : UInt64) (hash : Hash)
    (receipts : List (Option OutgoingReceipt)) (acc : MutableDestination × List Row) :
    receipts.zipIdx.foldlM (writeReceipt sourceShard destination number hash) acc =
      (groupRows sourceShard destination number hash receipts).map fun rows =>
        ({ acc.1 with
            receipts := acc.1.receipts + rows.length
            amount := acc.1.amount + (rows.map Row.amountAtto).sum }, acc.2 ++ rows) := by
  have hstep : ∀ acc indexed, writeReceipt sourceShard destination number hash acc indexed =
      (receiptRow sourceShard destination number hash indexed).map (countRow acc) :=
    fun _ _ => rfl
  rw [foldlM_eq_mapM hstep, groupRows]
  simp only [foldl_countRow]

theorem scanRecord_eq (lib : OutgoingCodec) (sourceShard : UInt32) (db : Database)
    (state : ScanState) (record : Record) :
    scanRecord lib sourceShard db state record =
      (verdict lib sourceShard db record).map (tally state) := by
  rw [scanRecord, verdict]
  cases receiptKeyParts record.1 with
  | none => rfl
  | some parts =>
    obtain ⟨destination, number, hash⟩ := parts
    dsimp only
    by_cases hmissing : rawdbReadCanonicalHash db number = FixedBytes.zero 32
    · simp only [if_pos hmissing]
      rfl
    simp only [if_neg hmissing]
    by_cases hne : rawdbReadCanonicalHash db number ≠ hash
    · simp only [if_pos hne]
      rfl
    simp only [if_neg hne]
    by_cases hempty : record.2 = [0xc0]
    · simp only [if_pos hempty]
      rfl
    simp only [if_neg hempty]
    cases lib.decodeOutgoing record.2 with
    | error err => rfl
    | ok receipts =>
      dsimp only
      rw [foldlM_writeReceipt]
      cases groupRows sourceShard destination number hash receipts with
      | error err => rfl
      | ok rows =>
        rfl

/-- The scan is the list of its verdicts, followed by their effects. -/
theorem scan_ok_iff (lib : OutgoingCodec) (sourceShard : UInt32) (db : Database)
    (state : ScanState) :
    scan lib sourceShard db = .ok state ↔
      (db.newIterator receiptPrefix).2 = none ∧
        ∃ os, (db.newIterator receiptPrefix).1.mapM (verdict lib sourceShard db) = .ok os ∧
          os.foldl tally {} = state := by
  have hfold := foldlM_eq_mapM (scanRecord_eq lib sourceShard db)
    (db.newIterator receiptPrefix).1 {}
  simp only [scan, hfold]
  cases (db.newIterator receiptPrefix).1.mapM (verdict lib sourceShard db) with
  | error err => simp [Except.map]
  | ok os => cases (db.newIterator receiptPrefix).2 <;> simp [Except.map]

/-- The rows that an outcome adds. -/
def rowsOf : Outcome → List Row
  | .canonical _ rows => rows
  | _ => []

theorem rows_tally (state : ScanState) (o : Outcome) :
    (tally state o).rows = state.rows ++ rowsOf o := by
  cases o <;> simp [tally, rowsOf]

/-- The rows written are those of the outcomes, in scan order. -/
theorem rows_tallied (os : List Outcome) : (os.foldl tally {}).rows = os.flatMap rowsOf := by
  have h := foldl_listed (fun state : ScanState => state.rows) rows_tally os {}
  simpa using h

end OutgoingScan
