import Mathlib.Data.List.Sort
import Mathlib.Data.UInt
import SupplyAudit.ChainDatabase
import SupplyAudit.NumeralText
import SupplyAudit.KeyedTable

/-!
# The HIP-30 recovery issuance

`hip30-recovery-issuance` reads the canonical beacon headers of a window in
groups of 64. The last header of a group pays out for the crosslinks of all of
them, and for one synthetic crosslink a header. From epoch 2964 on, crosslinks
of shard 0 do not count.

The RLP decoder and the digests are library code and stay parameters; a decoded
crosslink keeps only the shard that the command reads. `Uint64` of a number is
its low 64 bits. Block numbers wrap; the counters are natural numbers, as one
would need 2^64 crosslinks in a database to wrap.
-/

namespace RecoveryIssuance

open ByteWords NumeralText ReceiptKeys ChainDatabase KeyedTable

def rewardFrequency : UInt64 := 64

def envelopeSignature : String := "HmnyTgd"

def hip30Epoch : UInt64 := 1673

def rejectShard0Crosslink : UInt64 := 2964

def hip30RecoveryAttoPerCrosslink : Int := 35 * 100000000000000000

/-- `^uint64(0)` -/
def lastUint64 : UInt64 := 18446744073709551615

structure TaggedEnvelope where
  signature : String
  tag : String
  raw : Bytes

structure Crosslink where
  shardID : UInt32

structure DecodedHeader where
  number : Nat
  epoch : Nat
  shardID : UInt32
  crosslinks : List Crosslink

/-- The library functions that the command calls. -/
structure HeaderCodec where
  keccak256 : Bytes → Hash
  sha256 : Bytes → Bytes
  decodeEnvelope : Bytes → Except String TaggedEnvelope
  decodeFields : Bytes → Except String (List Bytes)
  decodeBig : Bytes → Except String Nat
  decodeUint32 : Bytes → Except String UInt32
  decodeBytes : Bytes → Except String Bytes
  decodeCrosslinks : Bytes → Except String (List Crosslink)

variable (lib : HeaderCodec) (db : Database)

/-! ## Reward blocks -/

def nextRewardBlock (number : UInt64) : UInt64 :=
  let remainder := number % rewardFrequency
  number + (rewardFrequency - 1 - remainder)

def previousRewardBlock (number : UInt64) : UInt64 :=
  let remainder := number % rewardFrequency
  if remainder ≥ rewardFrequency - 1 then number - (remainder - (rewardFrequency - 1))
  else number - (remainder + 1)

/-! ## Headers -/

def storedHeaderKey (number : UInt64) (hash : Hash) : Bytes :=
  ascii ['h'] ++ (ofNat 8 number.toNat ++ hash.data)

/-- One constructor for each text of `readCanonicalHeader`. -/
inductive HeaderError where
  | readHash (number : UInt64) (err : String)
  | hashLength (number : UInt64) (length : Nat)
  | readHeader (number : UInt64) (hash : Hash) (err : String)
  | hashMismatch (number : UInt64)
  | decodeEnvelope (number : UInt64) (err : String)
  | signature (number : UInt64) (signature : String)
  | decodeFields (tag : String) (number : UInt64) (err : String)
  | short (tag : String) (number : UInt64) (fields : Nat)
  | decodeNumber (number : UInt64) (err : String)
  | decodeEpoch (number : UInt64) (err : String)
  | decodeShard (number : UInt64) (err : String)
  | unsupportedTag (number : UInt64) (tag : String)
  | decodeCrosslinkBytes (number : UInt64) (err : String)
  | decodeCrosslinks (number : UInt64) (err : String)
  deriving DecidableEq

/-- The field of a header that holds its crosslinks. -/
def crosslinkIndex (number : UInt64) (tag : String) : Except HeaderError Nat :=
  if tag = "v2" then .ok 23
  else if tag = "v3" then .ok 22
  else .error (.unsupportedTag number tag)

/-- `fields[index]`, of which the length is checked before. -/
def field (fields : List Bytes) (index : Nat) : Bytes := fields.getD index []

def decodeHeader (number : UInt64) (encoded : Bytes) : Except HeaderError DecodedHeader := do
  let envelope ← (lib.decodeEnvelope encoded).mapError (.decodeEnvelope number)
  if envelope.signature ≠ envelopeSignature then .error (.signature number envelope.signature)
  else
    let fields ← (lib.decodeFields envelope.raw).mapError (.decodeFields envelope.tag number)
    if fields.length ≤ 16 then .error (.short envelope.tag number fields.length)
    else
      let headerNumber ← (lib.decodeBig (field fields 8)).mapError (.decodeNumber number)
      let epoch ← (lib.decodeBig (field fields 15)).mapError (.decodeEpoch number)
      let shardID ← (lib.decodeUint32 (field fields 16)).mapError (.decodeShard number)
      let index ← crosslinkIndex number envelope.tag
      if fields.length ≤ index then .error (.short envelope.tag number fields.length)
      else
        let encodedCrosslinks ← (lib.decodeBytes (field fields index)).mapError
          (.decodeCrosslinkBytes number)
        if encodedCrosslinks.length = 0 then .ok ⟨headerNumber, epoch, shardID, []⟩
        else
          let crosslinks ← (lib.decodeCrosslinks encodedCrosslinks).mapError
            (.decodeCrosslinks number)
          .ok ⟨headerNumber, epoch, shardID, crosslinks⟩

def readCanonicalHeader (number : UInt64) : Except HeaderError (Hash × DecodedHeader) := do
  let hashBytes ← (db.get (canonicalHashKey number)).mapError (.readHash number)
  if hashBytes.length ≠ hashLength then .error (.hashLength number hashBytes.length)
  else
    let hash : Hash := .ofBytes 32 hashBytes
    let encoded ← (db.get (storedHeaderKey number hash)).mapError (.readHeader number hash)
    if lib.keccak256 encoded ≠ hash then .error (.hashMismatch number)
    else
      let header ← decodeHeader lib number encoded
      .ok (hash, header)

/-! ## Groups -/

structure Totals where
  rewardGroups : Nat := 0
  coveredHeaders : Nat := 0
  syntheticCrosslinks : Nat := 0
  encodedCrosslinks : Nat := 0
  filteredShardZeroCrosslinks : Nat := 0
  includedHeaderCrosslinks : Nat := 0
  totalRecoveryCrosslinks : Nat := 0
  recoveryIssuance : Int := 0
  includedByShard : List (UInt32 × Nat) := []
  digest : Bytes := []
  firstHash : Hash := .zero 32
  lastHash : Hash := .zero 32
  firstRewardEpoch : Nat := 0
  lastRewardEpoch : Nat := 0

/-- The totals within a group and the crosslinks of the group so far. -/
structure GroupState where
  totals : Totals
  groupCrosslinks : Nat

inductive Failure where
  | usage
  | underflow
  | noGroup
  | misaligned (startBlock firstCovered : UInt64)
  | openDatabase (err : String)
  | header (err : HeaderError)
  | rewardIdentity (rewardBlock : UInt64)
  | beforeHip30 (rewardBlock : UInt64) (epoch : Nat)
  | headerIdentity (number : UInt64)
  | endless
  deriving DecidableEq

/-- A crosslink of shard 0 that no longer counts. -/
def Filtered (epoch : Nat) (link : Crosslink) : Prop :=
  epoch < 2 ^ 64 ∧ rejectShard0Crosslink ≤ UInt64.ofNat epoch ∧ link.shardID = 0

instance (epoch : Nat) (link : Crosslink) : Decidable (Filtered epoch link) :=
  inferInstanceAs (Decidable (_ ∧ _))

/-- The body of the loop over the crosslinks of a header. -/
def addCrosslink (epoch : Nat) (st : GroupState) (link : Crosslink) : GroupState :=
  let totals := st.totals
  if Filtered epoch link then
    { st with totals := { totals with
        filteredShardZeroCrosslinks := totals.filteredShardZeroCrosslinks + 1 } }
  else
    { totals := { totals with
        includedHeaderCrosslinks := totals.includedHeaderCrosslinks + 1
        includedByShard := update totals.includedByShard link.shardID 0 (· + 1) }
      groupCrosslinks := st.groupCrosslinks + 1 }

def addReadHeader (st : GroupState) (number : UInt64) (hash : Hash) (header : DecodedHeader) :
    GroupState :=
  let totals := st.totals
  header.crosslinks.foldl (addCrosslink header.epoch)
    { totals := { totals with
        firstHash := if totals.coveredHeaders = 0 then hash else totals.firstHash
        lastHash := hash
        digest := totals.digest ++ (ofNat 8 number.toNat ++ hash.data)
        coveredHeaders := totals.coveredHeaders + 1
        syntheticCrosslinks := totals.syntheticCrosslinks + 1
        encodedCrosslinks := totals.encodedCrosslinks + header.crosslinks.length }
      groupCrosslinks := st.groupCrosslinks + 1 }

/-- The body of the loop over the headers of a group. -/
def addHeader (st : GroupState) (number : UInt64) : Except Failure GroupState := do
  let (hash, header) ← (readCanonicalHeader lib db number).mapError .header
  if UInt64.ofNat header.number ≠ number ∨ header.shardID ≠ 0 then .error (.headerIdentity number)
  else .ok (addReadHeader st number hash header)

theorem lt_add_one {number : UInt64} (h : number ≠ lastUint64) :
    (number + 1).toNat = number.toNat + 1 := by
  have hne : number.toNat ≠ lastUint64.toNat := fun heq => h (UInt64.toNat_inj.mp heq)
  have hlt := number.toNat_lt
  have hlast : lastUint64.toNat = 2 ^ 64 - 1 := rfl
  have hone : (1 : UInt64).toNat = 1 := rfl
  rw [UInt64.toNat_add, hone]
  omega

/-- The numbers from one on that the inner loop visits, until they wrap. -/
def headerNumbers (rewardBlock number : UInt64) : List UInt64 :=
  if number ≤ rewardBlock then
    number :: if h : number = lastUint64 then [] else headerNumbers rewardBlock (number + 1)
  else []
termination_by 2 ^ 64 - number.toNat
decreasing_by
  have hnext := lt_add_one h
  have hlt := number.toNat_lt
  omega

/-- The body of the loop over the reward blocks. No number exceeds the last of
all, so below that reward block the inner loop has no end. -/
def addGroup (totals : Totals) (rewardBlock : UInt64) : Except Failure Totals := do
  let (_, rewardHeader) ← (readCanonicalHeader lib db rewardBlock).mapError .header
  if UInt64.ofNat rewardHeader.number ≠ rewardBlock ∨ rewardHeader.shardID ≠ 0 then
    .error (.rewardIdentity rewardBlock)
  else if ¬ rewardHeader.epoch < 2 ^ 64 ∨ UInt64.ofNat rewardHeader.epoch < hip30Epoch then
    .error (.beforeHip30 rewardBlock rewardHeader.epoch)
  else
    let opened : Totals := { totals with
      firstRewardEpoch :=
        if totals.rewardGroups = 0 then rewardHeader.epoch else totals.firstRewardEpoch
      lastRewardEpoch := rewardHeader.epoch
      rewardGroups := totals.rewardGroups + 1 }
    let groupStart := rewardBlock - (rewardFrequency - 1)
    let st ← (headerNumbers rewardBlock groupStart).foldlM (addHeader lib db) ⟨opened, 0⟩
    if rewardBlock = lastUint64 then
      let _ ← (headerNumbers rewardBlock 0).foldlM (addHeader lib db) st
      .error .endless
    else
      .ok { st.totals with
        totalRecoveryCrosslinks := st.totals.totalRecoveryCrosslinks + st.groupCrosslinks
        recoveryIssuance := st.totals.recoveryIssuance +
          st.groupCrosslinks * hip30RecoveryAttoPerCrosslink }

theorem toNat_add_frequency {rewardBlock : UInt64}
    (h : ¬ lastUint64 - rewardFrequency < rewardBlock) :
    (rewardBlock + rewardFrequency).toNat = rewardBlock.toNat + 64 := by
  have hle : rewardBlock.toNat ≤ (lastUint64 - rewardFrequency).toNat :=
    UInt64.le_iff_toNat_le.mp (UInt64.not_lt.mp h)
  have hlast : (lastUint64 - rewardFrequency).toNat = 2 ^ 64 - 65 := rfl
  have hfrequency : rewardFrequency.toNat = 64 := rfl
  rw [UInt64.toNat_add, hfrequency]
  omega

/-- The reward blocks of the outer loop, from one on. -/
def rewardBlocks (lastReward rewardBlock : UInt64) : List UInt64 :=
  if rewardBlock ≤ lastReward then
    rewardBlock ::
      if _h : lastUint64 - rewardFrequency < rewardBlock then []
      else rewardBlocks lastReward (rewardBlock + rewardFrequency)
  else []
termination_by 2 ^ 64 - rewardBlock.toNat
decreasing_by
  have hnext := toNat_add_frequency ‹_›
  have hlt := rewardBlock.toNat_lt
  omega

/-! ## The command -/

structure Flags where
  dbPath : String
  startBlock : UInt64
  endBlock : UInt64

structure ShardCount where
  shardID : UInt32
  count : Nat
  deriving DecidableEq

structure Summary where
  dbPath : String
  requestedStartBlock : UInt64
  requestedEndBlock : UInt64
  firstRewardBlock : UInt64
  lastRewardBlock : UInt64
  firstCoveredHeader : UInt64
  lastCoveredHeader : UInt64
  unrewardedTailHeaders : UInt64
  rewardGroups : Nat
  coveredBeaconHeaders : Nat
  syntheticBeaconCrosslinks : Nat
  encodedHeaderCrosslinks : Nat
  filteredShardZeroCrosslinks : Nat
  includedHeaderCrosslinks : Nat
  includedHeaderLinksByShard : List ShardCount
  totalRecoveryCrosslinks : Nat
  recoveryIssuanceAtto : String
  canonicalHeaderDigestSHA256 : String
  firstCoveredHeaderHash : Hash
  lastCoveredHeaderHash : Hash
  firstRewardEpoch : String
  lastRewardEpoch : String

def shardCounts (includedByShard : List (UInt32 × Nat)) : List ShardCount :=
  let shards := (includedByShard.map Prod.fst).insertionSort (· ≤ ·)
  shards.map fun shardID => ⟨shardID, (includedByShard.lookup shardID).getD 0⟩

/-- The checks of a window, before the database is opened. -/
def checkWindow (flags : Flags) : Except Failure Unit :=
  let firstReward := nextRewardBlock flags.startBlock
  let lastReward := previousRewardBlock flags.endBlock
  let firstCovered := firstReward - (rewardFrequency - 1)
  if flags.dbPath = "" ∨ flags.startBlock = 0 ∨ flags.endBlock < flags.startBlock then
    .error .usage
  else if firstReward < rewardFrequency - 1 then .error .underflow
  else if lastReward < firstReward then .error .noGroup
  else if firstCovered ≠ flags.startBlock then
    .error (.misaligned flags.startBlock firstCovered)
  else .ok ()

def summarize (flags : Flags) (totals : Totals) : Summary :=
  let firstReward := nextRewardBlock flags.startBlock
  let lastReward := previousRewardBlock flags.endBlock
  { dbPath := flags.dbPath
    requestedStartBlock := flags.startBlock
    requestedEndBlock := flags.endBlock
    firstRewardBlock := firstReward
    lastRewardBlock := lastReward
    firstCoveredHeader := firstReward - (rewardFrequency - 1)
    lastCoveredHeader := lastReward
    unrewardedTailHeaders := flags.endBlock - lastReward
    rewardGroups := totals.rewardGroups
    coveredBeaconHeaders := totals.coveredHeaders
    syntheticBeaconCrosslinks := totals.syntheticCrosslinks
    encodedHeaderCrosslinks := totals.encodedCrosslinks
    filteredShardZeroCrosslinks := totals.filteredShardZeroCrosslinks
    includedHeaderCrosslinks := totals.includedHeaderCrosslinks
    includedHeaderLinksByShard := shardCounts totals.includedByShard
    totalRecoveryCrosslinks := totals.totalRecoveryCrosslinks
    recoveryIssuanceAtto := toString totals.recoveryIssuance
    canonicalHeaderDigestSHA256 := hexText (lib.sha256 totals.digest)
    firstCoveredHeaderHash := totals.firstHash
    lastCoveredHeaderHash := totals.lastHash
    firstRewardEpoch := toString totals.firstRewardEpoch
    lastRewardEpoch := toString totals.lastRewardEpoch }

/-- The command up to the summary it prints. -/
def main (flags : Flags) (disk : Except String Database) : Except Failure Summary := do
  checkWindow flags
  let db ← disk.mapError .openDatabase
  let totals ← (rewardBlocks (previousRewardBlock flags.endBlock)
    (nextRewardBlock flags.startBlock)).foldlM (addGroup lib db) {}
  .ok (summarize lib flags totals)

example : [0, 1, 62, 63, 64, 127].map nextRewardBlock = [63, 63, 63, 63, 127, 127] ∧
    [0, 1, 62, 63, 64, 127].map previousRewardBlock =
      [lastUint64, lastUint64, lastUint64, 63, 63, 127] := by decide

end RecoveryIssuance
