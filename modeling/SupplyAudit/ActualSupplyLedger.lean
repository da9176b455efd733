import Mathlib.Data.String.Basic
import Mathlib.Data.List.Sort
import SupplyAudit.FallibleScan
import SupplyAudit.KeyedTable
import SupplyAudit.ScriptValues

/-!
# The claim ledger

`actual-supply-ledger.py` merges two balance files, a staking file and the
pending receipts of a report by secure key. The three files are read lazily, one
row ahead, and each reader checks the order of its keys as it goes.
-/

namespace ActualSupplyLedger

open ScriptValues FallibleScan

/-- A row as a reader yields it: the key is in lower case. -/
structure KeyedRow where
  secureKey : String
  fields : Row
  deriving DecidableEq

/-- The state of one suspended reader. -/
structure RowStream where
  path : String
  rest : List Row
  previous : Option String := none
  line : Nat := 2

/-- Resume a reader until its next row. -/
def RowStream.next (py : PyText) (s : RowStream) :
    Except PyError (Option KeyedRow × RowStream) :=
  match s.rest with
  | [] => .ok (none, s)
  | row :: rest => do
    let value ← row.get "secure_key"
    let key ← py.lowered value
    if ∃ p ∈ s.previous, key ≤ p then .error (.notIncreasing s.path s.line)
    else .ok (some ⟨key, row⟩,
      { s with rest := rest, previous := some key, line := s.line + 1 })

/-- A reader together with the row it is ahead by. -/
structure Cursor where
  head : Option KeyedRow
  stream : RowStream

def Cursor.start (py : PyText) (path : String) (rows : List Row) : Except PyError Cursor := do
  let (head, stream) ← RowStream.next py { path := path, rest := rows }
  .ok ⟨head, stream⟩

/-- The row of this key, if the cursor is on it; the cursor then moves on. -/
def Cursor.take (py : PyText) (c : Cursor) (key : String) :
    Except PyError (Option KeyedRow × Cursor) :=
  match c.head.filter (fun r => r.secureKey = key) with
  | none => .ok (none, c)
  | some row => do
    let (head, stream) ← c.stream.next py
    .ok (some row, ⟨head, stream⟩)

/-! ## Pending receipts -/

structure ReportGroup where
  receipts : Option (List Row)

structure ReportDirection where
  pendingGroups : Option (List ReportGroup)

structure ReceiptReport where
  directions : List ReportDirection
  pendingActiveAtto : String
  unsupportedPendingAtto : String

/-- The receipts in the order of the three nested loops. -/
def ReceiptReport.receipts (report : ReceiptReport) : List Row :=
  report.directions.flatMap fun direction =>
    (direction.pendingGroups.getD []).flatMap fun group => group.receipts.getD []

structure PendingClaim where
  address : String
  amount : Int
  deriving DecidableEq

abbrev PendingClaims := List (String × PendingClaim)

/-- The loop body over receipts, with the claims and the total so far. -/
def addReceipt (py : PyText) (acc : PendingClaims × Int) (receipt : Row) :
    Except PyError (PendingClaims × Int) := do
  let keyValue ← receipt.get "secure_key"
  let key ← py.lowered keyValue
  let address ← receipt.get "to"
  let amountValue ← receipt.get "amount_atto"
  let amount ← py.parsed amountValue
  if amount < 0 then .error (.negativeReceipt key)
  else match address with
    | none => .error .attributeError
    | some address =>
      let entry := (acc.1.lookup key).getD ⟨address, 0⟩
      if py.lower entry.address ≠ py.lower address then .error (.receiptAddressMismatch key)
      else .ok (KeyedTable.set acc.1 key { entry with amount := entry.amount + amount },
        acc.2 + amount)

def loadPendingReceipts (py : PyText) (report : ReceiptReport) :
    Except PyError PendingClaims := do
  let (pending, total) ← report.receipts.foldlM (addReceipt py) ([], 0)
  let reported ← py.parsed (some report.pendingActiveAtto)
  if total ≠ reported then .error (.receiptSumMismatch total report.pendingActiveAtto)
  else .ok pending

/-! ## The merge -/

def intField (py : PyText) (row : Option KeyedRow) (field : String) : Except PyError Int :=
  match row with
  | none => .ok 0
  | some row => do
    let text ← row.fields.get field
    let value ← py.parsed text
    if value < 0 then .error (.negativeField field row.secureKey) else .ok value

/-- `row and row[field]` -/
def optionalField (row : Option KeyedRow) (field : String) : Except PyError (Option String) :=
  match row with
  | none => .ok none
  | some row => row.fields.get field

/-- One row of the ledger; cells that a file lacks are empty. -/
structure LedgerRow where
  secureKey : String
  address : String
  liquidShard0 : Int
  liquidShard1 : Int
  liquidTotal : Int
  activeDelegation : Int
  pendingUndelegation : Int
  unclaimedReward : Int
  pendingCrossShard : Int
  totalClaim : Int
  nonceShard0 : Option String
  nonceShard1 : Option String
  codeHashShard0 : Option String
  codeHashShard1 : Option String
  deriving DecidableEq

def header : List String :=
  ["secure_key", "address", "liquid_shard0_atto", "liquid_shard1_atto", "liquid_total_atto",
    "active_delegation_atto", "pending_undelegation_atto", "unclaimed_reward_atto",
    "pending_cross_shard_atto", "total_claim_atto", "nonce_shard0", "nonce_shard1",
    "code_hash_shard0", "code_hash_shard1"]

def LedgerRow.cells (row : LedgerRow) : List String :=
  [row.secureKey, row.address, toString row.liquidShard0, toString row.liquidShard1,
    toString row.liquidTotal, toString row.activeDelegation, toString row.pendingUndelegation,
    toString row.unclaimedReward, toString row.pendingCrossShard, toString row.totalClaim,
    row.nonceShard0.getD "", row.nonceShard1.getD "", row.codeHashShard0.getD "",
    row.codeHashShard1.getD ""]

/-- The nonempty addresses named for one key. -/
def namedAddresses (candidates : List (Option String)) : List String :=
  candidates.filterMap (fun a => a.filter (fun text => text ≠ ""))

/-- The row of one key from what the four inputs hold for it. -/
def mergedRow (py : PyText) (key : String) (current0 current1 currentStake : Option KeyedRow)
    (currentReceipt : Option PendingClaim) : Except PyError LedgerRow := do
  let address0 ← optionalField current0 "address"
  let address1 ← optionalField current1 "address"
  let addressStake ← optionalField currentStake "address"
  let addresses := namedAddresses
    [address0, address1, addressStake, currentReceipt.map PendingClaim.address]
  if ∃ first ∈ addresses.head?, ∃ a ∈ addresses.tail, py.lower a ≠ py.lower first then
    .error (.addressMismatch key addresses)
  else
    let liquid0 ← intField py current0 "balance_atto"
    let liquid1 ← intField py current1 "balance_atto"
    let active ← intField py currentStake "active_delegation_atto"
    let undelegation ← intField py currentStake "pending_undelegation_atto"
    let reward ← intField py currentStake "unclaimed_reward_atto"
    let pendingReceipt := (currentReceipt.map PendingClaim.amount).getD 0
    let liquid := liquid0 + liquid1
    let total := liquid + active + undelegation + reward + pendingReceipt
    if total ≤ 0 then .error (.nonPositiveClaim key)
    else
      let nonce0 ← optionalField current0 "nonce"
      let nonce1 ← optionalField current1 "nonce"
      let codeHash0 ← optionalField current0 "code_hash"
      let codeHash1 ← optionalField current1 "code_hash"
      .ok
        { secureKey := key
          address := addresses.head?.getD ""
          liquidShard0 := liquid0
          liquidShard1 := liquid1
          liquidTotal := liquid
          activeDelegation := active
          pendingUndelegation := undelegation
          unclaimedReward := reward
          pendingCrossShard := pendingReceipt
          totalClaim := total
          nonceShard0 := nonce0
          nonceShard1 := nonce1
          codeHashShard0 := codeHash0
          codeHashShard1 := codeHash1 }

/-- The running totals of the summary. -/
@[ext]
structure Totals where
  rows : Nat := 0
  rowsWithoutAddress : Nat := 0
  liquidShard0 : Int := 0
  liquidShard1 : Int := 0
  activeDelegation : Int := 0
  pendingUndelegation : Int := 0
  unclaimedReward : Int := 0
  pendingCrossShard : Int := 0
  totalClaim : Int := 0
  deriving DecidableEq

def Totals.add (t : Totals) (row : LedgerRow) : Totals where
  rows := t.rows + 1
  rowsWithoutAddress := t.rowsWithoutAddress + if row.address = "" then 1 else 0
  liquidShard0 := t.liquidShard0 + row.liquidShard0
  liquidShard1 := t.liquidShard1 + row.liquidShard1
  activeDelegation := t.activeDelegation + row.activeDelegation
  pendingUndelegation := t.pendingUndelegation + row.pendingUndelegation
  unclaimedReward := t.unclaimedReward + row.unclaimedReward
  pendingCrossShard := t.pendingCrossShard + row.pendingCrossShard
  totalClaim := t.totalClaim + row.totalClaim

structure MergeState where
  liquid0 : Cursor
  liquid1 : Cursor
  staking : Cursor
  receiptKeys : List String
  written : List LedgerRow := []
  totals : Totals := {}

/-- The least key in sight; none when every input is exhausted. -/
def MergeState.key (st : MergeState) : Option String :=
  List.min? ([st.liquid0.head.map KeyedRow.secureKey, st.liquid1.head.map KeyedRow.secureKey,
    st.staking.head.map KeyedRow.secureKey, st.receiptKeys.head?].filterMap id)

/-- The body of the merge loop for one key. -/
def mergeStep (py : PyText) (claims : PendingClaims) (st : MergeState) (key : String) :
    Except PyError MergeState := do
  let (current0, liquid0) ← st.liquid0.take py key
  let (current1, liquid1) ← st.liquid1.take py key
  let (currentStake, staking) ← st.staking.take py key
  let receiptKeys := if st.receiptKeys.head? = some key then st.receiptKeys.tail else st.receiptKeys
  let row ← mergedRow py key current0 current1 currentStake (claims.lookup key)
  .ok
    { liquid0 := liquid0
      liquid1 := liquid1
      staking := staking
      receiptKeys := receiptKeys
      written := st.written ++ [row]
      totals := st.totals.add row }

/-- The rows a cursor has not given out. -/
def Cursor.left (c : Cursor) : Nat := c.head.toList.length + c.stream.rest.length

def MergeState.left (st : MergeState) : Nat :=
  st.liquid0.left + st.liquid1.left + st.staking.left + st.receiptKeys.length

/-- The merge loop. Every step gives out a row, so `st.left` steps end it. -/
def mergeLoop (py : PyText) (claims : PendingClaims) :
    Nat → MergeState → Except PyError MergeState
  | 0, st => .ok st
  | fuel + 1, st =>
    match st.key with
    | none => .ok st
    | some key => do
      let next ← mergeStep py claims st key
      mergeLoop py claims fuel next

structure InputFiles where
  shard0Liquid : List Row
  shard1Liquid : List Row
  staking : List Row
  receipts : ReceiptReport

structure Args where
  shard0Liquid : String
  shard1Liquid : String
  staking : String
  receipts : String
  output : String
  summaryOutput : String

structure LedgerSummary where
  inputSha256 : List (String × String)
  rows : Nat
  rowsWithoutAddress : Nat
  liquidShard0Atto : String
  liquidShard1Atto : String
  activeDelegationAtto : String
  pendingUndelegationAtto : String
  unclaimedRewardAtto : String
  pendingCrossShardAtto : String
  totalClaimAtto : String
  retiredShardReceiptStatusUnknownAtto : String
  outputPath : String
  outputSha256 : String
  deriving DecidableEq

/-- The file system around a run: what exists, and the digests of files. -/
structure Files where
  exist : String → Bool
  sha256 : String → String
  sha256Written : List (List String) → String

def mergeStart (py : PyText) (args : Args) (inputs : InputFiles) (claims : PendingClaims) :
    Except PyError MergeState := do
  let liquid0 ← Cursor.start py args.shard0Liquid inputs.shard0Liquid
  let liquid1 ← Cursor.start py args.shard1Liquid inputs.shard1Liquid
  let staking ← Cursor.start py args.staking inputs.staking
  .ok
    { liquid0 := liquid0
      liquid1 := liquid1
      staking := staking
      receiptKeys := (claims.map Prod.fst).insertionSort (· ≤ ·) }

def Files.taken (files : Files) (path : String) : Bool :=
  files.exist path || files.exist (path ++ ".partial")

/-- The rows written below the header, and the summary. -/
def merge (py : PyText) (files : Files) (args : Args) (inputs : InputFiles) :
    Except PyError (List LedgerRow × LedgerSummary) :=
  match [args.output, args.summaryOutput].find? files.taken with
  | some path => .error (.fileExists path)
  | none => do
    let claims ← loadPendingReceipts py inputs.receipts
    let start ← mergeStart py args inputs claims
    let st ← mergeLoop py claims start.left start
    .ok (st.written,
      { inputSha256 := [("shard0_liquid", files.sha256 args.shard0Liquid),
          ("shard1_liquid", files.sha256 args.shard1Liquid),
          ("staking", files.sha256 args.staking), ("receipts", files.sha256 args.receipts)]
        rows := st.totals.rows
        rowsWithoutAddress := st.totals.rowsWithoutAddress
        liquidShard0Atto := toString st.totals.liquidShard0
        liquidShard1Atto := toString st.totals.liquidShard1
        activeDelegationAtto := toString st.totals.activeDelegation
        pendingUndelegationAtto := toString st.totals.pendingUndelegation
        unclaimedRewardAtto := toString st.totals.unclaimedReward
        pendingCrossShardAtto := toString st.totals.pendingCrossShard
        totalClaimAtto := toString st.totals.totalClaim
        retiredShardReceiptStatusUnknownAtto := inputs.receipts.unsupportedPendingAtto
        outputPath := args.output
        outputSha256 := files.sha256Written (header :: st.written.map LedgerRow.cells) })

end ActualSupplyLedger
