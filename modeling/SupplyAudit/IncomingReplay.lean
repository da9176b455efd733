import SupplyAudit.BlockBodies
import SupplyAudit.OutgoingScan
import SupplyAudit.WordLoops

/-!
# The replay scan

`cx-replay-scan` walks the bodies of a block range of shard 0 and writes one row for
each receipt that a block applies. It compares the header that a proof carries with
the identity that the proof claims, and remembers the receipts it has seen.
-/

namespace IncomingReplay

open ByteWords ReceiptKeys ChainDatabase BlockBodies WordLoops
open OutgoingScan (OutgoingReceipt)
open RecoveryIssuance (envelopeSignature field)

structure MerkleProof where
  blockNum : Option Int
  blockHash : Hash
  shardID : UInt32

structure ReceiptsProof where
  receipts : List (Option OutgoingReceipt)
  merkleProof : Option MerkleProof
  header : Bytes

structure ReplayCodec extends BodyCodec where
  decodeProofs : Bytes → Except String (List (Option ReceiptsProof))
  decodeBig : Bytes → Except String Int
  decodeUint32 : Bytes → Except String UInt32

inductive Failure where
  | usage
  | openDatabase (err : String)
  | missingHash (number : UInt64)
  | missingBody (number : UInt64) (hash : Hash)
  | decodeEnvelope (number : UInt64) (err : String)
  | decodeFields (number : UInt64) (err : String)
  | unsupportedTag (number : UInt64) (tag : String)
  | shortBody (tag : String) (number : UInt64) (fields : Nat)
  | decodeProofs (number : UInt64) (err : String)
  | incompleteProof (number : UInt64) (index : Nat)
  | headerEnvelope (number : UInt64) (index : Nat) (err : String)
  | headerSignature (number : UInt64) (index : Nat) (signature : String)
  | headerFields (number : UInt64) (index : Nat) (err : String)
  | shortHeader (number : UInt64) (index fields : Nat)
  | headerNumber (number : UInt64) (index : Nat) (err : String)
  | headerShard (number : UInt64) (index : Nat) (err : String)
  | nilSourceNumber (number : UInt64) (index : Nat)
  | invalidReceipt (number : UInt64) (proof receipt : Nat)
  deriving DecidableEq

/-- The identity of a source block. -/
structure SourceBlock where
  hash : Hash
  shardID : UInt32
  number : Int
  deriving DecidableEq

/-- What a row says of a receipt, wherever the scan started. -/
structure Application where
  destinationBlock : UInt64
  proofIndex : Nat
  receiptIndex : Nat
  txHash : Hash
  sender : Address
  recipient : Address
  amountAtto : Int
  signed : SourceBlock
  claimed : SourceBlock
  deriving DecidableEq

/-- The proof claims another source block than the header that it carries. -/
def Application.mismatch (a : Application) : Bool := a.signed ≠ a.claimed

/-- A row of the CSV output. -/
structure Row extends Application where
  duplicate : Bool
  firstApplicationBlock : UInt64
  applicationNumber : Nat
  deriving DecidableEq

structure ReceiptSeen where
  block : UInt64
  count : Nat
  deriving DecidableEq

/-- The variables of the loop over the blocks, with the rows written so far. -/
structure ScanState where
  rows : List Row := []
  seen : List (Hash × ReceiptSeen) := []
  incomingAmount : Int := 0
  duplicateAmount : Int := 0
  mismatchedAmount : Int := 0
  blocksWithIncoming : Nat := 0
  proofApplications : Nat := 0
  receiptApplications : Nat := 0
  duplicateApplications : Nat := 0
  mismatchedProofs : Nat := 0
  mismatchedApplications : Nat := 0
  deriving DecidableEq

variable (lib : ReplayCodec) (db : Database)

/-! ## Bodies and proofs -/

/-- A body of two fields is a legacy body without receipts. -/
def isLegacyBody (body : Bytes) : Bool :=
  match lib.decodeFields body with
  | .ok fields => fields.length = 2
  | .error _ => false

/-- The field of a body that holds its incoming receipts. -/
def incomingIndex (tag : String) (number : UInt64) : Except Failure Nat :=
  if tag = "v1" then .ok 2
  else if tag = "v2" then .ok 3
  else .error (.unsupportedTag number tag)

def decodeIncomingReceipts (body : Bytes) (number : UInt64) :
    Except Failure (List (Option ReceiptsProof)) :=
  match lib.decodeEnvelope body with
  | .error err => if isLegacyBody lib body then .ok [] else .error (.decodeEnvelope number err)
  | .ok envelope =>
    if envelope.signature ≠ envelopeSignature then .ok []
    else do
      let fields ← (lib.decodeFields envelope.raw).mapError (.decodeFields number)
      let index ← incomingIndex envelope.tag number
      if fields.length ≤ index then .error (.shortBody envelope.tag number fields.length)
      else (lib.decodeProofs (field fields index)).mapError (.decodeProofs number)

def decodeSignedHeader (raw : Bytes) (destinationBlock : UInt64) (proofIndex : Nat) :
    Except Failure SourceBlock := do
  let envelope ← (lib.decodeEnvelope raw).mapError (.headerEnvelope destinationBlock proofIndex)
  if envelope.signature ≠ envelopeSignature then
    .error (.headerSignature destinationBlock proofIndex envelope.signature)
  else
    let fields ←
      (lib.decodeFields envelope.raw).mapError (.headerFields destinationBlock proofIndex)
    if fields.length ≤ 16 then .error (.shortHeader destinationBlock proofIndex fields.length)
    else
      let number ←
        (lib.decodeBig (field fields 8)).mapError (.headerNumber destinationBlock proofIndex)
      let shardID ←
        (lib.decodeUint32 (field fields 16)).mapError (.headerShard destinationBlock proofIndex)
      .ok ⟨lib.keccak256 raw, shardID, number⟩

def readIncoming (number : UInt64) : Except Failure (List (Option ReceiptsProof)) :=
  match db.get (canonicalHashKey number) with
  | .error _ => .error (.missingHash number)
  | .ok hashBytes =>
    if hashBytes.length ≠ hashLength then .error (.missingHash number)
    else
      let hash : Hash := .ofBytes 32 hashBytes
      match db.get (bodyKey number hash) with
      | .error _ => .error (.missingBody number hash)
      | .ok body =>
        if body.length = 0 then .error (.missingBody number hash)
        else decodeIncomingReceipts lib body number

/-- The signed and the claimed source block of a proof, and its receipts. -/
def checkProof (number : UInt64) (indexed : Option ReceiptsProof × Nat) :
    Except Failure (SourceBlock × SourceBlock × List (Option OutgoingReceipt)) :=
  match indexed with
  | (some ⟨receipts, some merkleProof, header⟩, proofIndex) =>
    if header.length = 0 then .error (.incompleteProof number proofIndex)
    else do
      let signed ← decodeSignedHeader lib header number proofIndex
      match merkleProof.blockNum with
      | none => .error (.nilSourceNumber number proofIndex)
      | some claimedNumber =>
        .ok (signed, ⟨merkleProof.blockHash, merkleProof.shardID, claimedNumber⟩, receipts)
  | (_, proofIndex) => .error (.incompleteProof number proofIndex)

/-- What is said of a receipt, if it passes its checks. -/
def checkReceipt (number : UInt64) (proofIndex : Nat) (signed claimed : SourceBlock)
    (indexed : Option OutgoingReceipt × Nat) : Except Failure Application :=
  match indexed with
  | (some ⟨⟨txHash, some recipient, _, _, some amount⟩, sender⟩, receiptIndex) =>
    if amount < 0 then .error (.invalidReceipt number proofIndex receiptIndex)
    else .ok
      { destinationBlock := number
        proofIndex := proofIndex
        receiptIndex := receiptIndex
        txHash := txHash
        sender := sender
        recipient := recipient
        amountAtto := amount
        signed := signed
        claimed := claimed }
  | (_, receiptIndex) => .error (.invalidReceipt number proofIndex receiptIndex)

/-! ## The scan -/

/-- Counts and writes a receipt that has passed its checks. -/
def apply (state : ScanState) (a : Application) : ScanState :=
  let previous := (state.seen.lookup a.txHash).getD ⟨0, 0⟩
  let duplicate := previous.count ≠ 0
  let current : ReceiptSeen :=
    { block := if duplicate then previous.block else a.destinationBlock
      count := previous.count + 1 }
  { state with
    receiptApplications := state.receiptApplications + 1
    incomingAmount := state.incomingAmount + a.amountAtto
    duplicateApplications := state.duplicateApplications + if duplicate then 1 else 0
    duplicateAmount := state.duplicateAmount + if duplicate then a.amountAtto else 0
    seen := KeyedTable.set state.seen a.txHash current
    mismatchedApplications := state.mismatchedApplications + if a.mismatch then 1 else 0
    mismatchedAmount := state.mismatchedAmount + if a.mismatch then a.amountAtto else 0
    rows := state.rows ++
      [{ toApplication := a
         duplicate := duplicate
         firstApplicationBlock := current.block
         applicationNumber := current.count }] }

/-- The body of the loop over the receipts of a proof. -/
def scanReceipt (number : UInt64) (proofIndex : Nat) (signed claimed : SourceBlock)
    (state : ScanState) (indexed : Option OutgoingReceipt × Nat) : Except Failure ScanState := do
  let a ← checkReceipt number proofIndex signed claimed indexed
  .ok (apply state a)

/-- A proof counted, before its receipts. -/
def openProof (mismatch : Bool) (state : ScanState) : ScanState :=
  { state with
    proofApplications := state.proofApplications + 1
    mismatchedProofs := state.mismatchedProofs + if mismatch then 1 else 0 }

/-- The body of the loop over the proofs of a block. -/
def scanProof (number : UInt64) (state : ScanState) (indexed : Option ReceiptsProof × Nat) :
    Except Failure ScanState := do
  let (signed, claimed, receipts) ← checkProof lib number indexed
  receipts.zipIdx.foldlM (scanReceipt number indexed.2 signed claimed)
    (openProof (signed ≠ claimed) state)

/-- A block counted, before its proofs. -/
def openBlock (proofs : Nat) (state : ScanState) : ScanState :=
  { state with
    blocksWithIncoming := state.blocksWithIncoming + if proofs ≠ 0 then 1 else 0 }

/-- The body of the loop over the blocks. -/
def scanBlock (state : ScanState) (number : UInt64) : Except Failure ScanState := do
  let proofs ← readIncoming lib db number
  proofs.zipIdx.foldlM (scanProof lib number) (openBlock proofs.length state)

/-- The loop over the blocks, which never breaks. -/
def blockLoop (endBlock : UInt64) : Loop Failure ScanState :=
  .byOne endBlock (fun _ => false) (scanBlock lib db)

/-! ## The command -/

structure Summary where
  dbPath : String
  startBlockExclusive : UInt64
  endBlockInclusive : UInt64
  blocksScanned : UInt64
  blocksWithIncomingReceipts : Nat
  proofApplications : Nat
  receiptApplications : Nat
  uniqueReceiptHashes : Nat
  duplicateReceiptApps : Nat
  mismatchedProofs : Nat
  mismatchedReceiptApps : Nat
  incomingAmountAtto : String
  duplicateAmountAtto : String
  mismatchedAmountAtto : String
  outputPath : String
  deriving DecidableEq

def summarize (flags : Flags) (state : ScanState) : Summary where
  dbPath := flags.dbPath
  startBlockExclusive := flags.start
  endBlockInclusive := flags.endBlock
  blocksScanned := flags.endBlock - flags.start
  blocksWithIncomingReceipts := state.blocksWithIncoming
  proofApplications := state.proofApplications
  receiptApplications := state.receiptApplications
  uniqueReceiptHashes := state.seen.length
  duplicateReceiptApps := state.duplicateApplications
  mismatchedProofs := state.mismatchedProofs
  mismatchedReceiptApps := state.mismatchedApplications
  incomingAmountAtto := toString state.incomingAmount
  duplicateAmountAtto := toString state.duplicateAmount
  mismatchedAmountAtto := toString state.mismatchedAmount
  outputPath := flags.output

/-- A run of the command that completes, with its rows and its summary. -/
def Completes (flags : Flags) (rows : List Row) (summary : Summary) : Prop :=
  flags.Accepted ∧ ∃ visited state,
    Ends (blockLoop lib db flags.endBlock) (flags.start + 1) {} visited (.ok state) ∧
    rows = state.rows ∧ summary = summarize flags state

end IncomingReplay
