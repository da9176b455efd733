import SupplyAudit.BatchReplies
import SupplyAudit.FileStore
import SupplyAudit.RpcQuantities
import SupplyAudit.WoneScan
import SupplyAudit.WoneSupply

/-!
# The WONE holder export

`wone-holders` checks the cutoff block and the code of the contract, bisects for
the block that deployed it, replays the events since then, and writes the holders
and a summary. Every call to the node is tried up to five times.
-/

namespace WoneHolders

open ByteWords NumeralText HexText FallibleScan FileStore BatchReplies WoneEvents WoneScan
open WoneSupply RpcQuantities

/-! ## Calls -/

structure RpcError where
  code : Int
  message : String

def RpcError.text (err : RpcError) : String :=
  "JSON-RPC error " ++ toString err.code ++ ": " ++ err.message

/-- What the client looks at in a response; `status` is one other than 200 OK. -/
structure Response where
  status : Option String := none
  decodeError : Option String := none
  closeError : Option String := none
  error : Option RpcError := none
  result : String := "null"

/-- What an attempt comes to: an error that is tried again, or what the call returns. -/
def attemptCall {α : Type} (method : String) (unmarshal : String → Except String α)
    (sent : Except String Response) : Except String (Except String α) := do
  let response ← sent
  match response.status, response.decodeError, response.closeError, response.error with
  | some status, _, _, _ => .error (method ++ " returned HTTP " ++ status)
  | none, some err, _, _ => .error ("decode " ++ method ++ " response: " ++ err)
  | none, none, some err, _ => .error ("close " ++ method ++ " response: " ++ err)
  | none, none, none, some err => .ok (.error err.text)
  | none, none, none, none =>
    .ok (context ("decode " ++ method ++ " result") (unmarshal response.result))

/-- `rpcClient.call`; a context that is never cancelled. -/
def call {α : Type} (method : String) (unmarshal : String → Except String α)
    (sent : Nat → Except String Response) : Except String α :=
  match retryFrom (fun i => attemptCall method unmarshal (sent i)) 0 4 with
  | .error err => .error (method ++ " failed after retries: " ++ err)
  | .ok outcome => outcome

structure RpcBlock where
  number : String
  hash : String
  stateRoot : String

/-- What comes of each attempt of the calls of a run, and how results are decoded. -/
structure Node where
  unmarshalText : String → Except String String
  unmarshalBlock : String → Except String RpcBlock
  block : Nat → Except String Response
  cutoffCode : Nat → Except String Response
  code : UInt64 → Nat → Except String Response
  totalSupply : Nat → Except String Response
  reserve : Nat → Except String Response

def contractCodeAt (node : Node) (sent : Nat → Except String Response) : Except String Bytes := do
  let result ← call "eth_getCode" node.unmarshalText sent
  parseHexBytes result

/-! ## The deployment -/

theorem middle_halves {low high : UInt64} (h : low < high) :
    high.toNat - (middle low high + 1).toNat < high.toNat - low.toNat ∧
      (middle low high).toNat - low.toNat < high.toNat - low.toNat := by
  obtain ⟨hmiddle, hnext, hlow, hhigh⟩ := middle_bounds h
  have hlt := UInt64.lt_iff_toNat_lt.mp h
  omega

/-- The loop of `findDeploymentBlock`. -/
def searchCode (codeAt : UInt64 → Except String Bytes) (low high : UInt64) :
    Except String UInt64 :=
  if _ : low < high then
    match codeAt (middle low high) with
    | .error err =>
      .error ("read contract code at block " ++ toString (middle low high).toNat ++ ": " ++ err)
    | .ok code =>
      if code.length = 0 then searchCode codeAt (middle low high + 1) high
      else searchCode codeAt low (middle low high)
  else .ok low
termination_by high.toNat - low.toNat
decreasing_by
  · exact (middle_halves ‹low < high›).1
  · exact (middle_halves ‹low < high›).2

def findDeploymentBlock (codeAt : UInt64 → Except String Bytes) (cutoff : UInt64) :
    Except String UInt64 := do
  let code ← context "read cutoff contract code" (codeAt cutoff)
  if code.length = 0 then .error "contract has no code at cutoff"
  else do
    let code ← context "read genesis contract code" (codeAt 0)
    if code.length ≠ 0 then .ok 0 else searchCode codeAt 1 cutoff

/-! ## The export -/

structure Flags where
  rpcURL : String
  contract : WoneEvents.Address
  cutoff : UInt64
  expectedHash : String
  expectedRoot : String
  expectedCodeHash : String
  rangeSize : UInt64 := 1024
  workers : Int := 32
  output : String
  summary : String

/-- The flags that must be given. -/
def Flags.complete (flags : Flags) : Bool :=
  flags.rpcURL ≠ "" ∧ flags.cutoff ≠ 0 ∧ flags.expectedHash ≠ "" ∧ flags.expectedRoot ≠ "" ∧
    flags.expectedCodeHash ≠ "" ∧ flags.rangeSize ≠ 0 ∧ 0 < flags.workers ∧ flags.output ≠ "" ∧
    flags.summary ≠ ""

structure Summary where
  contractAddress : String
  contractCodeHash : String
  cutoffBlock : UInt64
  cutoffBlockHash : String
  cutoffStateRoot : String
  deploymentBlock : UInt64
  rangeSize : UInt64
  initialRanges : UInt64
  counts : EventCounts
  holderCount : Nat
  totalHolderBalanceAtto : String
  contractTotalSupplyAtto : String
  contractNativeReserveAtto : String
  reserveMinusSupplyAtto : String
  outputPath : String

inductive File where
  | csv (lines : List (List String))
  | summary (record : Summary)
  | other (text : String)

def holderHeader : List String := ["address", "wone_balance_atto", "wone_balance"]

def HolderRow.cells (row : HolderRow) : List String := [row.address, row.balanceAtto, row.balance]

/-- The order in which a map is iterated, and the faults of the two files. -/
structure System where
  keccak256 : Bytes → Bytes
  order : List (WoneEvents.Address × Int) → List (WoneEvents.Address × Int)
  order_perm : ∀ l, (order l).Perm l
  csvFaults : StageFaults String
  csvWrite : Option (String × File)
  summaryFaults : StageFaults String
  summaryWrite : Option (String × File)

/-- Text compared without regard to case; the texts are hexadecimal. -/
def equalFold (a b : String) : Bool := a.toLower = b.toLower

variable (sys : System) (flags : Flags) (node : Node)

/-- The cutoff block, once it is the expected one. -/
def readBlock : Except String RpcBlock := do
  let block ← context "read cutoff block"
    (call "eth_getBlockByNumber" node.unmarshalBlock node.block)
  let number ← context "decode cutoff block number" (parseUint64Quantity block.number)
  if number ≠ flags.cutoff then
    .error ("RPC returned block " ++ toString number.toNat ++ ", expected " ++
      toString flags.cutoff.toNat)
  else if ¬ equalFold block.hash flags.expectedHash then
    .error ("cutoff block hash mismatch: got " ++ block.hash ++ " want " ++ flags.expectedHash)
  else if ¬ equalFold block.stateRoot flags.expectedRoot then
    .error ("cutoff state root mismatch: got " ++ block.stateRoot ++ " want " ++
      flags.expectedRoot)
  else .ok block

/-- The hash of the code at the cutoff, once it is the expected one. -/
def readCodeHash : Except String String := do
  let code ← context "read cutoff contract code" (contractCodeAt node node.cutoffCode)
  let codeHash := prefixedHex (sys.keccak256 code)
  if ¬ equalFold codeHash flags.expectedCodeHash then
    .error ("WONE code hash mismatch: got " ++ codeHash ++ " want " ++ flags.expectedCodeHash)
  else .ok codeHash

def readSupply : Except String Int := do
  let text ← context "read WONE totalSupply" (call "eth_call" node.unmarshalText node.totalSupply)
  context "decode WONE totalSupply" (parseBigQuantity text)

def readReserve : Except String Int := do
  let text ← context "read WONE native reserve"
    (call "eth_getBalance" node.unmarshalText node.reserve)
  context "decode WONE native reserve" (parseBigQuantity text)

/-- `writeCSV`: the checks come before the file is made. -/
def publishHolders (balances : List (WoneEvents.Address × Int)) (expectedTotal : Int) :
    Action File String Holders := do
  let holders ← lift (writeCSV sys.keccak256 (sys.order balances) expectedTotal)
  stagedOrGone sys.csvFaults (flags.output ++ ".partial") flags.output (.other "")
    (writeTo (flags.output ++ ".partial")
      (.csv (holderHeader :: holders.rows.map HolderRow.cells)) sys.csvWrite)
  pure holders

/-- `writeJSON` -/
def publishSummary (record : Summary) : Action File String PUnit :=
  stagedOrGone sys.summaryFaults (flags.summary ++ ".partial") flags.summary (.other "")
    (writeTo (flags.summary ++ ".partial") (.summary record) sys.summaryWrite)

/-- The run after the scan, which returned `replay`. -/
def finish (block : RpcBlock) (codeHash : String) (deployment : UInt64) (replay : Replay) :
    Action File String Summary := do
  let totalSupply ← lift (readSupply node)
  let reserve ← lift (readReserve node)
  let holders ← publishHolders sys flags replay.deltas.entries totalSupply
  let reserveMinusSupply := reserve - totalSupply
  raiseIf (if reserveMinusSupply ≠ 0 then
    some ("native reserve " ++ toString reserve ++ " does not equal totalSupply " ++
      toString totalSupply) else none)
  let record : Summary :=
    { contractAddress := checksumHex sys.keccak256 flags.contract.data
      contractCodeHash := codeHash
      cutoffBlock := flags.cutoff
      cutoffBlockHash := block.hash
      cutoffStateRoot := block.stateRoot
      deploymentBlock := deployment
      rangeSize := flags.rangeSize
      initialRanges := initialRanges deployment flags.cutoff flags.rangeSize
      counts := replay.counts
      holderCount := holders.rows.length
      totalHolderBalanceAtto := toString holders.total
      contractTotalSupplyAtto := toString totalSupply
      contractNativeReserveAtto := toString reserve
      reserveMinusSupplyAtto := toString reserveMinusSupply
      outputPath := flags.output }
  publishSummary sys flags record
  pure record

/-- `scan` is what `scanRanges` returns from a deployment block on. -/
def main (scan : UInt64 → Except String Replay) : Action File String Summary := do
  raiseIf (if flags.complete then none else some "usage")
  let block ← lift (readBlock flags node)
  let codeHash ← lift (readCodeHash sys flags node)
  let deployment ← lift (context "find WONE deployment block"
    (findDeploymentBlock (fun number => contractCodeAt node (node.code number)) flags.cutoff))
  let replay ← lift (context "scan WONE events" (scan deployment))
  finish sys flags node block codeHash deployment replay

end WoneHolders
