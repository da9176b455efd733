import SupplyAudit.NumeralText
import SupplyAudit.ChainDatabase

/-!
# The cross-shard receipt scan

`sumReceipts` walks the receipt groups of a source database and decides for
each one, by the lookups of the destination database, whether it was spent or
is pending at the cutoffs. `main` runs it in both directions and adds up.

The RLP decoder and Keccak-256 are library code and stay parameters. Counters
are natural numbers: one would need 2^64 database records to wrap.
-/

namespace CrossShardSupply

open ByteWords NumeralText ReceiptKeys ChainDatabase

structure TxLookupEntry where
  blockHash : Hash
  blockIndex : UInt64
  deriving DecidableEq

structure CxReceipt where
  txHash : Hash
  recipient : Option Address
  shardID : UInt32
  toShardID : UInt32
  amount : Option Int
  deriving DecidableEq

/-- The library functions the scan calls. An RLP list has one encoding, so only
the byte `0xc0` decodes to an empty receipt list; no bytes decode to no entry. -/
structure Codec where
  keccak256 : Bytes → Hash
  decodeReceipts : Bytes → Except String (List (Option CxReceipt))
  decodeLookup : Bytes → Except String TxLookupEntry
  emptyList : ∀ value, decodeReceipts value = .ok [] → value = [0xc0]
  noEntry : ∀ entry, decodeLookup [] ≠ .ok entry

/-- The library functions on finitely many known encodings; others are refused. -/
def Codec.ofTables (digests : List (Bytes × Hash))
    (groups : List (Bytes × List (Option CxReceipt))) (lookups : List (Bytes × TxLookupEntry)) :
    Codec where
  keccak256 bs := ((digests.find? (fun d => d.1 == bs)).map Prod.snd).getD (FixedBytes.zero 32)
  decodeReceipts value :=
    if value = [0xc0] then .ok []
    else match groups.find? (fun g => g.1 == value) with
      | some (_, receipt :: rest) => .ok (receipt :: rest)
      | _ => .error "rlp: expected input list"
  decodeLookup value :=
    if value = [] then .error "EOF"
    else match lookups.find? (fun l => l.1 == value) with
      | some (_, entry) => .ok entry
      | none => .error "rlp: expected input list"
  emptyList value h := by
    by_contra hne
    rw [if_neg hne] at h
    split at h <;> cases h
  noEntry entry h := by
    rw [if_pos rfl] at h
    cases h

structure ReceiptDetail where
  transactionHash : Hash
  recipient : Address
  secureKey : Hash
  amountAtto : String
  deriving DecidableEq

structure ReceiptGroup where
  destinationShard : UInt32
  blockNumber : UInt64
  blockHash : Hash
  receiptCount : Nat
  amountAtto : String
  transactionHashes : List Hash
  receipts : List ReceiptDetail
  deriving DecidableEq

structure DirectionTotals where
  sourceShard : UInt32 := 0
  emptyReceiptGroups : Nat := 0
  canonicalReceiptGroups : Nat := 0
  nonCanonicalReceiptGroups : Nat := 0
  missingCanonicalHashGroups : Nat := 0
  afterCutoffGroups : Nat := 0
  spentReceiptGroups : Nat := 0
  spentReceiptCount : Nat := 0
  spentAmountAtto : String := ""
  pendingReceiptGroups : Nat := 0
  pendingReceiptCount : Nat := 0
  pendingAmountAtto : String := ""
  unsupportedReceiptGroups : Nat := 0
  unsupportedReceiptCount : Nat := 0
  unsupportedAmountAtto : String := ""
  pendingGroups : List ReceiptGroup := []
  unsupportedGroups : List ReceiptGroup := []
  deriving DecidableEq

structure MutableDirectionTotals extends DirectionTotals where
  spentAmount : Int := 0
  pendingAmount : Int := 0
  unsupportedAmount : Int := 0
  deriving DecidableEq

/-- One constructor for each error return of `sumReceipts`. -/
inductive ScanError where
  | readSourceHash (sourceShard : UInt32) (blockNumber : UInt64) (err : ReadError)
  | missingSourceHash (sourceShard : UInt32) (blockNumber : UInt64)
  | decodeGroup (sourceShard : UInt32) (blockNumber : UInt64) (err : String)
  | invalidReceipt (sourceShard : UInt32) (blockNumber : UInt64) (index : Nat)
  | identityMismatch (sourceShard : UInt32) (blockNumber : UInt64)
  | negativeAmount (sourceShard : UInt32) (blockNumber : UInt64)
  | readLookup (destination : UInt32) (txHash : Hash) (err : ReadError)
  | readMarker (destination sourceShard : UInt32) (blockNumber : UInt64) (txHash : Hash)
      (err : ReadError)
  | invalidMarker (destination : UInt32) (marker : Bytes) (sourceShard : UInt32)
      (blockNumber : UInt64) (txHash : Hash)
  | incompleteIndex (destination : UInt32) (txHash : Hash) (sourceShard : UInt32)
      (blockNumber : UInt64)
  | emptyLookup (destination : UInt32) (txHash : Hash)
  | decodeLookup (txHash : Hash) (err : String)
  | missingCutoff (destination : UInt32) (txHash : Hash)
  | readDestinationHash (destination : UInt32) (block : UInt64) (txHash : Hash) (err : ReadError)
  | missingDestinationHash (destination : UInt32) (block : UInt64) (txHash : Hash)
  | splitGroup (sourceShard : UInt32) (blockNumber : UInt64)
  | iterate (sourceShard : UInt32) (err : String)
  deriving DecidableEq

namespace ScanError

def shardText (shard : UInt32) : String := toString shard.toNat

def blockText (block : UInt64) : String := toString block.toNat

def hashText (hash : Hash) : String := prefixedHex hash.data

def text : ScanError → String
  | .readSourceHash s n err => "read source shard " ++ shardText s ++ " canonical hash at block " ++
      blockText n ++ ": " ++ err.text
  | .missingSourceHash s n => "missing source shard " ++ shardText s ++
      " canonical hash at block " ++ blockText n
  | .decodeGroup s n err => "decode source shard " ++ shardText s ++ " block " ++ blockText n ++
      " receipt group: " ++ err
  | .invalidReceipt s n i => "invalid source shard " ++ shardText s ++ " block " ++ blockText n ++
      " receipt " ++ toString i
  | .identityMismatch s n => "receipt identity mismatch at source shard " ++ shardText s ++
      " block " ++ blockText n
  | .negativeAmount s n => "negative receipt amount at source shard " ++ shardText s ++
      " block " ++ blockText n
  | .readLookup d tx err => "read destination shard " ++ shardText d ++ " CX lookup " ++
      hashText tx ++ ": " ++ err.text
  | .readMarker d s n tx err => "read destination shard " ++ shardText d ++
      " spent marker for source shard " ++ shardText s ++ " block " ++ blockText n ++
      " after missing CX lookup " ++ hashText tx ++ ": " ++ err.text
  | .invalidMarker d marker s n tx => "invalid destination shard " ++ shardText d ++
      " spent marker " ++ hexText marker ++ " for source shard " ++ shardText s ++ " block " ++
      blockText n ++ " after missing CX lookup " ++ hashText tx
  | .incompleteIndex d tx s n => "destination shard " ++ shardText d ++ " CX lookup " ++
      hashText tx ++ " is missing despite a spent marker for source shard " ++ shardText s ++
      " block " ++ blockText n ++ "; destination lookup index is incomplete"
  | .emptyLookup d tx => "empty destination shard " ++ shardText d ++ " CX lookup " ++ hashText tx
  | .decodeLookup tx err => "decode CX lookup " ++ hashText tx ++ ": " ++ err
  | .missingCutoff d tx => "missing cutoff for destination shard " ++ shardText d ++
      " while checking CX lookup " ++ hashText tx
  | .readDestinationHash d n tx err => "read destination shard " ++ shardText d ++
      " canonical hash at block " ++ blockText n ++ " for CX lookup " ++ hashText tx ++ ": " ++
      err.text
  | .missingDestinationHash d n tx => "missing destination shard " ++ shardText d ++
      " canonical hash at block " ++ blockText n ++ " for CX lookup " ++ hashText tx
  | .splitGroup s n => "receipt group source shard " ++ shardText s ++ " block " ++ blockText n ++
      " was split across destination blocks"
  | .iterate s err => "iterate source shard " ++ shardText s ++ " receipts: " ++ err

end ScanError

/-- A receipt that passed the checks on its group. -/
structure Receipt where
  txHash : Hash
  recipient : Address
  amount : Int
  nonneg : 0 ≤ amount
  deriving DecidableEq

/-- The checks on the receipts of one decoded group, in order. -/
def checkReceipts (sourceShard destination : UInt32) (blockNumber : UInt64) :
    Nat → List (Option CxReceipt) → Except ScanError (List Receipt)
  | _, [] => .ok []
  | i, some ⟨txHash, some recipient, shardID, toShardID, some amount⟩ :: rest =>
    if shardID ≠ sourceShard ∨ toShardID ≠ destination then
      .error (.identityMismatch sourceShard blockNumber)
    else if h : amount < 0 then .error (.negativeAmount sourceShard blockNumber)
    else match checkReceipts sourceShard destination blockNumber (i + 1) rest with
      | .error err => .error err
      | .ok receipts => .ok (⟨txHash, recipient, amount, Int.not_lt.mp h⟩ :: receipts)
  | i, _ :: _ => .error (.invalidReceipt sourceShard blockNumber i)

def groupAmount (receipts : List Receipt) : Int := (receipts.map Receipt.amount).sum

def makeReceiptGroup (lib : Codec) (destination : UInt32) (blockNumber : UInt64)
    (blockHash : Hash) (receipts : List Receipt) (amount : Int) : ReceiptGroup where
  destinationShard := destination
  blockNumber := blockNumber
  blockHash := blockHash
  receiptCount := receipts.length
  amountAtto := toString amount
  transactionHashes := receipts.map Receipt.txHash
  receipts := receipts.map fun receipt =>
    { transactionHash := receipt.txHash
      recipient := receipt.recipient
      secureKey := lib.keccak256 receipt.recipient.data
      amountAtto := toString receipt.amount }

/-- The arguments of `sumReceipts`. -/
structure ScanInput where
  sourceShard : UInt32
  source : Database
  destinations : UInt32 → Option Database
  sourceCutoff : UInt64
  destinationCutoffs : UInt32 → Option UInt64

/-- The loop over the receipts of one supported group. `destinationBlock` is the
block of the last application seen, and zero before the first one. -/
def destinationLoop (lib : Codec) (input : ScanInput) (destination : UInt32)
    (destinationDB : Database) (blockNumber : UInt64) :
    List Receipt → UInt64 → Except ScanError Bool
  | [], _ => .ok true
  | receipt :: rest, destinationBlock =>
    match readOptional destinationDB (cxLookupKey receipt.txHash) with
    | .error err => .error (.readLookup destination receipt.txHash err)
    | .ok none =>
      match readOptional destinationDB (spentKey input.sourceShard blockNumber) with
      | .error err =>
        .error (.readMarker destination input.sourceShard blockNumber receipt.txHash err)
      | .ok (some marker) =>
        if marker ≠ [0] then
          .error (.invalidMarker destination marker input.sourceShard blockNumber receipt.txHash)
        else .error (.incompleteIndex destination receipt.txHash input.sourceShard blockNumber)
      | .ok none => .ok false
    | .ok (some encoded) =>
      if encoded.length = 0 then .error (.emptyLookup destination receipt.txHash)
      else match lib.decodeLookup encoded with
        | .error err => .error (.decodeLookup receipt.txHash err)
        | .ok entry =>
          match input.destinationCutoffs destination with
          | none => .error (.missingCutoff destination receipt.txHash)
          | some cutoff =>
            if entry.blockIndex > cutoff then .ok false
            else match readCanonicalHash destinationDB entry.blockIndex with
              | .error err => .error
                  (.readDestinationHash destination entry.blockIndex receipt.txHash err)
              | .ok none =>
                .error (.missingDestinationHash destination entry.blockIndex receipt.txHash)
              | .ok (some canonicalHash) =>
                if canonicalHash ≠ entry.blockHash then .ok false
                else if destinationBlock ≠ 0 ∧ destinationBlock ≠ entry.blockIndex then
                  .error (.splitGroup input.sourceShard blockNumber)
                else destinationLoop lib input destination destinationDB blockNumber rest
                  entry.blockIndex

/-- The body of the scan's loop over iterated records. -/
def scanRecord (lib : Codec) (input : ScanInput) (result : MutableDirectionTotals)
    (record : Record) : Except ScanError MutableDirectionTotals :=
  match receiptKeyParts record.1 with
  | none => .ok result
  | some (destination, blockNumber, blockHash) =>
    if record.2 = [0xc0] then
      .ok { result with emptyReceiptGroups := result.emptyReceiptGroups + 1 }
    else if blockNumber > input.sourceCutoff then
      .ok { result with afterCutoffGroups := result.afterCutoffGroups + 1 }
    else match readCanonicalHash input.source blockNumber with
      | .error err => .error (.readSourceHash input.sourceShard blockNumber err)
      | .ok none => .error (.missingSourceHash input.sourceShard blockNumber)
      | .ok (some canonicalHash) =>
        if canonicalHash ≠ blockHash then
          .ok { result with nonCanonicalReceiptGroups := result.nonCanonicalReceiptGroups + 1 }
        else match lib.decodeReceipts record.2 with
          | .error err => .error (.decodeGroup input.sourceShard blockNumber err)
          | .ok decoded =>
            match checkReceipts input.sourceShard destination blockNumber 0 decoded with
            | .error err => .error err
            | .ok receipts =>
              let amount := groupAmount receipts
              let group := makeReceiptGroup lib destination blockNumber blockHash receipts amount
              match input.destinations destination with
              | none => .ok { result with
                  unsupportedReceiptGroups := result.unsupportedReceiptGroups + 1
                  unsupportedReceiptCount := result.unsupportedReceiptCount + receipts.length
                  unsupportedAmount := result.unsupportedAmount + amount
                  unsupportedGroups := result.unsupportedGroups ++ [group] }
              | some destinationDB =>
                let result := { result with
                  canonicalReceiptGroups := result.canonicalReceiptGroups + 1 }
                match destinationLoop lib input destination destinationDB blockNumber receipts 0
                with
                | .error err => .error err
                | .ok true => .ok { result with
                    spentReceiptGroups := result.spentReceiptGroups + 1
                    spentReceiptCount := result.spentReceiptCount + receipts.length
                    spentAmount := result.spentAmount + amount }
                | .ok false => .ok { result with
                    pendingReceiptGroups := result.pendingReceiptGroups + 1
                    pendingReceiptCount := result.pendingReceiptCount + receipts.length
                    pendingAmount := result.pendingAmount + amount
                    pendingGroups := result.pendingGroups ++ [group] }

/-- The totals as they are published: amounts become decimal strings. -/
def MutableDirectionTotals.finish (result : MutableDirectionTotals) : DirectionTotals :=
  { result.toDirectionTotals with
    spentAmountAtto := toString result.spentAmount
    pendingAmountAtto := toString result.pendingAmount
    unsupportedAmountAtto := toString result.unsupportedAmount }

/-- Go's pair of results: every error return carries the zero totals. -/
def sumReceipts (lib : Codec) (input : ScanInput) : DirectionTotals × Option ScanError :=
  let iterator := input.source.newIterator receiptPrefix
  let result : MutableDirectionTotals := { sourceShard := input.sourceShard }
  match iterator.1.foldlM (scanRecord lib input) result with
  | .error err => ({}, some err)
  | .ok result =>
    match iterator.2 with
    | some err => ({}, some (.iterate input.sourceShard err))
    | none => (result.finish, none)

structure Summary where
  shard0DB : String
  shard1DB : String
  shard0Cutoff : UInt64
  shard1Cutoff : UInt64
  directions : List DirectionTotals
  pendingActiveAtto : String
  unsupportedPendingAtto : String
  deriving DecidableEq

structure Flags where
  shard0Path : String
  shard1Path : String
  shard0Cutoff : UInt64
  shard1Cutoff : UInt64
  output : String

/-- A required flag was left out; block zero counts as left out. -/
def Flags.Missing (flags : Flags) : Prop :=
  flags.shard0Path = "" ∨ flags.shard1Path = "" ∨ flags.shard0Cutoff = 0 ∨
    flags.shard1Cutoff = 0 ∨ flags.output = ""

instance (flags : Flags) : Decidable flags.Missing := inferInstanceAs (Decidable (_ ∨ _))

inductive MainError where
  | usage
  | scan (err : ScanError)
  | invalidPendingAmount
  | invalidUnsupportedAmount
  deriving DecidableEq

/-- The loop that adds the published strings of both directions. -/
def addDirections : List DirectionTotals → Int → Int → Except MainError (Int × Int)
  | [], pending, unsupported => .ok (pending, unsupported)
  | direction :: rest, pending, unsupported =>
    match readInt direction.pendingAmountAtto with
    | none => .error .invalidPendingAmount
    | some value =>
      match readInt direction.unsupportedAmountAtto with
      | none => .error .invalidUnsupportedAmount
      | some value' => addDirections rest (pending + value) (unsupported + value')

/-- The input of the scan of one direction in `main`. -/
def directionInput (flags : Flags) (shard0 shard1 : Database) (sourceShard : UInt32) :
    ScanInput where
  sourceShard := sourceShard
  source := if sourceShard = 0 then shard0 else shard1
  destinations shard :=
    if sourceShard = 0 then (if shard = 1 then some shard1 else none)
    else if shard = 0 then some shard0 else none
  sourceCutoff := if sourceShard = 0 then flags.shard0Cutoff else flags.shard1Cutoff
  destinationCutoffs shard :=
    if shard = 0 then some flags.shard0Cutoff
    else if shard = 1 then some flags.shard1Cutoff else none

/-- The command up to the summary it publishes. -/
def main (lib : Codec) (flags : Flags) (shard0 shard1 : Database) : Except MainError Summary :=
  if flags.Missing then .error .usage
  else match sumReceipts lib (directionInput flags shard0 shard1 0) with
    | (_, some err) => .error (.scan err)
    | (direction0, none) =>
      match sumReceipts lib (directionInput flags shard0 shard1 1) with
      | (_, some err) => .error (.scan err)
      | (direction1, none) =>
        match addDirections [direction0, direction1] 0 0 with
        | .error err => .error err
        | .ok (pending, unsupported) => .ok
          { shard0DB := flags.shard0Path
            shard1DB := flags.shard1Path
            shard0Cutoff := flags.shard0Cutoff
            shard1Cutoff := flags.shard1Cutoff
            directions := [direction0, direction1]
            pendingActiveAtto := toString pending
            unsupportedPendingAtto := toString unsupported }

/-! ## A small receipt group, as RLP encodes it -/

/-- A receipt of 100 atto from shard 0 to shard 1. -/
def sampleReceipt (tx : UInt8) : CxReceipt where
  txHash := .fill 32 tx
  recipient := some (.fill 20 0xbb)
  shardID := 0
  toShardID := 1
  amount := some 100

def sampleReceiptBytes (tx : UInt8) : Bytes :=
  [0xf8, 0x4e, 0xa0] ++ List.replicate 32 tx ++ [0x94] ++ List.replicate 20 0xaa ++ [0x94] ++
    List.replicate 20 0xbb ++ [0x80, 0x01, 0x64]

/-- Two receipts in one group. -/
def sampleGroupBytes : Bytes := [0xf8, 0xa0] ++ sampleReceiptBytes 1 ++ sampleReceiptBytes 2

/-- One receipt alone in its group. -/
def sampleSingleBytes : Bytes := [0xf8, 0x50] ++ sampleReceiptBytes 1

def sampleLookup (block : UInt8) : TxLookupEntry where
  blockHash := .fill 32 block
  blockIndex := UInt64.ofNat block.toNat

def sampleLookupBytes (block : UInt8) : Bytes :=
  [0xe3, 0xa0] ++ List.replicate 32 block ++ [block, 0x80]

/-- Keccak-256 of the sample recipient. -/
def sampleSecureKey : Hash where
  data := [0xeb, 0x27, 0x9a, 0xac, 0x74, 0xf4, 0xf3, 0x34, 0x2e, 0xf7, 0x1c, 0xc0, 0xa5, 0x32,
    0x1a, 0xa3, 0x6b, 0x38, 0x3c, 0x52, 0x5c, 0x72, 0x60, 0xe7, 0x61, 0xee, 0x23, 0x29, 0x9c, 0x5f,
    0x2f, 0x1f]
  size := rfl

def sampleCodec : Codec :=
  .ofTables [(List.replicate 20 0xbb, sampleSecureKey)]
    [(sampleGroupBytes, [some (sampleReceipt 1), some (sampleReceipt 2)]),
      (sampleSingleBytes, [some (sampleReceipt 1)])]
    [(sampleLookupBytes 20, sampleLookup 20)]

end CrossShardSupply
