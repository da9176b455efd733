import SupplyAudit.BlockBodies
import SupplyAudit.WordLoops

/-!
# The staking target audit

`staking-target-audit` lists the staking transactions of a block range with the
validators they name, and collects the targets that are neither in the current
validator list nor created in the range.
-/

namespace StakingTargets

open ByteWords ReceiptKeys ChainDatabase BlockBodies WordLoops
open RecoveryIssuance (field)

/-- The fields of a staking transaction that the audit reads. -/
structure RawStakingTransaction where
  directive : UInt8
  stakeMsg : Bytes

structure StakingCodec extends BodyCodec where
  decodeAddresses : Bytes → Except String (List Address)
  decodeStakingTransaction : Bytes → Except String RawStakingTransaction
  decodeAddress : Bytes → Except String Address
  decodeBig : Bytes → Except String Int

inductive Failure where
  | usage
  | openDatabase (err : String)
  | readValidators (err : String)
  | decodeValidators (err : String)
  | body (err : BodyError)
  | decodeTransaction (number : UInt64) (index : Nat) (err : String)
  | unknownDirective (directive : UInt8)
  | decodeMessage (number : UInt64) (index : Nat) (err : String)
  | fieldCount (message : String) (number : UInt64) (index length : Nat)
  | decodeAddress (field : String) (number : UInt64) (index : Nat) (err : String)
  | decodeAmount (number : UInt64) (index : Nat) (err : String)
  | negativeAmount (number : UInt64) (index : Nat)
  deriving DecidableEq

/-- A row of the CSV output. -/
structure Row where
  blockNumber : UInt64
  blockHash : Hash
  stakingTransactionIndex : Nat
  stakingTransactionHash : Hash
  directive : String
  actor : Address
  target : Address
  amountAtto : Int
  targetKnown : Bool
  deriving DecidableEq

/-- The variables of the loop over the blocks, with the rows written so far. -/
structure AuditState where
  rows : List Row := []
  blockDigest : Bytes := []
  directives : List (String × Nat) := []
  knownValidators : List Address
  createdInRange : List Address := []
  unknownTargets : List (Address × MutableUnknownTarget) := []
  blocksScanned : Nat := 0
  blocksWithStaking : Nat := 0
  stakingTransactions : Nat := 0
  unknownTransactions : Nat := 0
  deriving DecidableEq

variable (lib : StakingCodec) (db : Database)

def directiveName (directive : UInt8) : Except Failure String :=
  match directive.toNat with
  | 0 => .ok "CreateValidator"
  | 1 => .ok "EditValidator"
  | 2 => .ok "Delegate"
  | 3 => .ok "Undelegate"
  | 4 => .ok "CollectRewards"
  | _ => .error (.unknownDirective directive)

def decodeAddress (raw : Bytes) (number : UInt64) (index : Nat) (name : String) :
    Except Failure Address :=
  (lib.decodeAddress raw).mapError (.decodeAddress name number index)

def decodeAmount (raw : Bytes) (number : UInt64) (index : Nat) : Except Failure Int := do
  let amount ← (lib.decodeBig raw).mapError (.decodeAmount number index)
  if amount < 0 then .error (.negativeAmount number index) else .ok amount

/-- What a message says: who acts, on which validator, with which amount. -/
structure Message where
  actor : Address := .zero 20
  target : Address := .zero 20
  amount : Int := 0

/-- The cases of the `switch` over the directive, after the message was split. -/
def readMessage (directive : UInt8) (message : List Bytes) (number : UInt64) (index : Nat) :
    Except Failure Message :=
  match directive.toNat with
  | 0 =>
    if message.length ≠ 8 then
      .error (.fieldCount "CreateValidator" number index message.length)
    else do
      let target ← decodeAddress lib (field message 0) number index "validator address"
      let amount ← decodeAmount lib (field message 7) number index
      .ok ⟨target, target, amount⟩
  | 1 =>
    if message.length ≠ 9 then .error (.fieldCount "EditValidator" number index message.length)
    else do
      let target ← decodeAddress lib (field message 0) number index "validator address"
      .ok ⟨target, target, 0⟩
  | 2 | 3 =>
    if message.length ≠ 3 then .error (.fieldCount "delegate" number index message.length)
    else do
      let actor ← decodeAddress lib (field message 0) number index "delegator address"
      let target ← decodeAddress lib (field message 1) number index "validator address"
      let amount ← decodeAmount lib (field message 2) number index
      .ok ⟨actor, target, amount⟩
  | 4 =>
    if message.length ≠ 1 then .error (.fieldCount "CollectRewards" number index message.length)
    else do
      let actor ← decodeAddress lib (field message 0) number index "delegator address"
      .ok ⟨actor, .zero 20, 0⟩
  | _ => .ok {}

/-- The row and the tables of a decoded transaction. -/
def record (number : UInt64) (hash : Hash) (index : Nat) (raw : Bytes) (directive : UInt8)
    (name : String) (message : Message) (state : AuditState) : AuditState :=
  let created := directive = 0
  let knownValidators :=
    if created then state.knownValidators.insert message.target else state.knownValidators
  let targetKnown := message.target ∈ knownValidators
  let isUnknown := message.target ≠ .zero 20 ∧ ¬ targetKnown
  { state with
    directives := KeyedTable.update state.directives name 0 (· + 1)
    stakingTransactions := state.stakingTransactions + 1
    knownValidators := knownValidators
    createdInRange :=
      if created then state.createdInRange.insert message.target else state.createdInRange
    unknownTransactions := state.unknownTransactions + if isUnknown then 1 else 0
    unknownTargets :=
      if isUnknown then
        addUnknownTarget state.unknownTargets message.target number
          (if directive = 2 then message.amount else 0) (if directive = 3 then message.amount else 0)
      else state.unknownTargets
    rows := state.rows ++
      [{ blockNumber := number
         blockHash := hash
         stakingTransactionIndex := index
         stakingTransactionHash := lib.keccak256 raw
         directive := name
         actor := message.actor
         target := message.target
         amountAtto := message.amount
         targetKnown := message.target = .zero 20 ∨ targetKnown }] }

/-- The body of the loop over the transactions of a block. -/
def scanTransaction (number : UInt64) (hash : Hash) (state : AuditState) (indexed : Bytes × Nat) :
    Except Failure AuditState := do
  let (raw, index) := indexed
  let transaction ← (lib.decodeStakingTransaction raw).mapError (.decodeTransaction number index)
  let name ← directiveName transaction.directive
  let fields ← (lib.decodeFields transaction.stakeMsg).mapError (.decodeMessage number index)
  let message ← readMessage lib transaction.directive fields number index
  .ok (record lib number hash index raw transaction.directive name message state)

/-- The body of the loop over the blocks. -/
def scanBlock (state : AuditState) (number : UInt64) : Except Failure AuditState := do
  let (hash, body) ← (readBody db number).mapError .body
  let rawTransactions ← (decodeBodyStakingTransactions lib.toBodyCodec body number).mapError .body
  let state :=
    { state with
      blockDigest := state.blockDigest ++ (ofNat 8 number.toNat ++ hash.data)
      blocksScanned := state.blocksScanned + 1
      blocksWithStaking := state.blocksWithStaking + if 0 < rawTransactions.length then 1 else 0 }
  rawTransactions.zipIdx.foldlM (scanTransaction lib number hash) state

/-- The loop over the blocks, which breaks at the greatest number. -/
def blockLoop (endBlock : UInt64) : Loop Failure AuditState :=
  .byOne endBlock (fun number => number = lastWord) (scanBlock lib db)

/-! ## The command -/

structure Summary where
  dbPath : String
  startBlockExclusive : UInt64
  endBlockInclusive : UInt64
  blocksScanned : Nat
  blocksWithStakingTx : Nat
  stakingTransactions : Nat
  directiveCounts : List (String × Nat)
  currentValidatorListCount : Nat
  createdValidatorsInRange : Nat
  unknownTargetTransactions : Nat
  unknownTargets : List UnknownTarget
  canonicalBlockDigest : Bytes
  outputPath : String
  deriving DecidableEq

/-- The current validators, before the scan. -/
def readValidators : Except Failure (List Address) := do
  let validatorBytes ← (db.get StateTrie.validatorListKey).mapError .readValidators
  (lib.decodeAddresses validatorBytes).mapError .decodeValidators

def summarize (flags : Flags) (validators : List Address) (state : AuditState) : Summary where
  dbPath := flags.dbPath
  startBlockExclusive := flags.start
  endBlockInclusive := flags.endBlock
  blocksScanned := state.blocksScanned
  blocksWithStakingTx := state.blocksWithStaking
  stakingTransactions := state.stakingTransactions
  directiveCounts := publishedCounts state.directives
  currentValidatorListCount := validators.length
  createdValidatorsInRange := state.createdInRange.length
  unknownTargetTransactions := state.unknownTransactions
  unknownTargets := publishedTargets state.unknownTargets
  canonicalBlockDigest := lib.sha256 state.blockDigest
  outputPath := flags.output

/-- A run of the command that completes, with its rows and its summary. -/
def Completes (flags : Flags) (rows : List Row) (summary : Summary) : Prop :=
  flags.Accepted ∧ ∃ validators visited state, readValidators lib db = .ok validators ∧
    Ends (blockLoop lib db flags.endBlock) (flags.start + 1) { knownValidators := validators.dedup }
      visited (.ok state) ∧
    rows = state.rows ∧ summary = summarize lib flags validators state

end StakingTargets
