import SupplyAudit.BlockBodies
import SupplyAudit.NumeralText
import SupplyAudit.WordLoops

/-!
# The staking precompile audit

`staking-precompile-target-audit` lists the transactions of a block range that call
the staking precompile, decodes their calldata and collects the targets that are not
in the current validator list.
-/

namespace StakingCalls

open ByteWords NumeralText ReceiptKeys ChainDatabase BlockBodies WordLoops

/-- The address that ends in `0xfc`. -/
def stakingPrecompile : Address := .ofBytes 20 [252]

def delegateSelector : Bytes := [0x51, 0x0b, 0x11, 0xbb]

def undelegateSelector : Bytes := [0xbd, 0xa8, 0xc0, 0xe9]

def rewardsSelector : Bytes := [0x6d, 0x6b, 0x2f, 0x77]

/-- The fields of a transaction that the audit reads. -/
structure RawTransaction where
  recipient : Option Address
  payload : Bytes

structure CallCodec extends BodyCodec where
  decodeAddresses : Bytes → Except String (List Address)
  decodeTransaction : Bytes → Except String RawTransaction

structure StakingCall where
  method : String
  delegator : Address := .zero 20
  target : Address := .zero 20
  amount : Nat := 0
  valid : Bool
  deriving DecidableEq

/-- The method that a selector names. -/
def methodOf (selector : Bytes) : Option String :=
  if selector = delegateSelector then some "Delegate"
  else if selector = undelegateSelector then some "Undelegate"
  else if selector = rewardsSelector then some "CollectRewards"
  else none

/-- `input[start:stop]` -/
def slice (input : Bytes) (start stop : Nat) : Bytes := (input.drop start).take (stop - start)

def decodeStakingCall (input : Bytes) : StakingCall :=
  if input.length < 4 then { method := "invalid", valid := false }
  else
    match methodOf (input.take 4) with
    | none => { method := "unknown-selector-" ++ hexText (input.take 4), valid := false }
    | some method =>
      if method = "CollectRewards" then
        if input.length ≠ 36 ∨ slice input 4 16 ≠ List.replicate 12 0 then
          { method := method, valid := false }
        else
          { method := method, delegator := .ofBytes 20 (slice input 16 36), valid := true }
      else if input.length ≠ 100 ∨ slice input 4 16 ≠ List.replicate 12 0 ∨
          slice input 36 48 ≠ List.replicate 12 0 then
        { method := method, valid := false }
      else
        { method := method
          delegator := .ofBytes 20 (slice input 16 36)
          target := .ofBytes 20 (slice input 48 68)
          amount := toNat (slice input 68 100)
          valid := true }

inductive Failure where
  | usage
  | openDatabase (err : String)
  | readValidators (err : String)
  | decodeValidators (err : String)
  | body (err : BodyError)
  | decodeTransaction (number : UInt64) (index : Nat) (err : String)
  deriving DecidableEq

/-- A row of the CSV output. -/
structure Row where
  blockNumber : UInt64
  blockHash : Hash
  transactionIndex : Nat
  transactionHash : Hash
  method : String
  delegator : Address
  target : Address
  amountAtto : Nat
  targetKnown : Bool
  calldataValid : Bool
  deriving DecidableEq

/-- The variables of the loop over the blocks, with the rows written so far. -/
structure AuditState where
  rows : List Row := []
  blockDigest : Bytes := []
  methods : List (String × Nat) := []
  unknownTargets : List (Address × MutableUnknownTarget) := []
  blocksScanned : Nat := 0
  regularTransactions : Nat := 0
  topLevelCalls : Nat := 0
  validCalls : Nat := 0
  invalidCalls : Nat := 0
  unknownTransactions : Nat := 0
  deriving DecidableEq

variable (lib : CallCodec) (db : Database) (knownValidators : List Address)

/-- The row and the tables of a call. -/
def record (number : UInt64) (hash : Hash) (index : Nat) (raw : Bytes) (call : StakingCall)
    (state : AuditState) : AuditState :=
  let targetKnown := call.target ∈ knownValidators
  let isUnknown := call.valid ∧ call.target ≠ .zero 20 ∧ ¬ targetKnown
  { state with
    topLevelCalls := state.topLevelCalls + 1
    methods := KeyedTable.update state.methods call.method 0 (· + 1)
    validCalls := state.validCalls + if call.valid then 1 else 0
    invalidCalls := state.invalidCalls + if call.valid then 0 else 1
    unknownTransactions := state.unknownTransactions + if isUnknown then 1 else 0
    unknownTargets :=
      if isUnknown then
        addUnknownTarget state.unknownTargets call.target number
          (if call.method = "Delegate" then call.amount else 0)
          (if call.method = "Undelegate" then call.amount else 0)
      else state.unknownTargets
    rows := state.rows ++
      [{ blockNumber := number
         blockHash := hash
         transactionIndex := index
         transactionHash := lib.keccak256 raw
         method := call.method
         delegator := call.delegator
         target := call.target
         amountAtto := call.amount
         targetKnown := call.target = .zero 20 ∨ targetKnown
         calldataValid := call.valid }] }

/-- The body of the loop over the transactions of a block. -/
def scanTransaction (number : UInt64) (hash : Hash) (state : AuditState) (indexed : Bytes × Nat) :
    Except Failure AuditState := do
  let (raw, index) := indexed
  let transaction ← (lib.decodeTransaction raw).mapError (.decodeTransaction number index)
  if transaction.recipient ≠ some stakingPrecompile then .ok state
  else
    .ok (record lib knownValidators number hash index raw (decodeStakingCall transaction.payload)
      state)

/-- The body of the loop over the blocks. -/
def scanBlock (state : AuditState) (number : UInt64) : Except Failure AuditState := do
  let (hash, body) ← (readBody db number).mapError .body
  let rawTransactions ← (decodeBodyTransactions lib.toBodyCodec body number).mapError .body
  let state :=
    { state with
      blockDigest := state.blockDigest ++ (ofNat 8 number.toNat ++ hash.data)
      blocksScanned := state.blocksScanned + 1
      regularTransactions := state.regularTransactions + rawTransactions.length }
  rawTransactions.zipIdx.foldlM (scanTransaction lib knownValidators number hash) state

/-- The loop over the blocks, which breaks at the greatest number. -/
def blockLoop (endBlock : UInt64) : Loop Failure AuditState :=
  .byOne endBlock (fun number => number = lastWord) (scanBlock lib db knownValidators)

/-! ## The command -/

structure Summary where
  dbPath : String
  startBlockExclusive : UInt64
  endBlockInclusive : UInt64
  blocksScanned : Nat
  regularTransactions : Nat
  topLevelPrecompileCalls : Nat
  validStakingCalls : Nat
  invalidCalldataCalls : Nat
  methodCounts : List (String × Nat)
  currentValidatorListCount : Nat
  unknownTargetTransactions : Nat
  unknownTargets : List UnknownTarget
  canonicalBlockDigest : Bytes
  outputPath : String
  deriving DecidableEq

/-- The current validators, before the scan. -/
def readValidators : Except Failure (List Address) := do
  let validatorBytes ← (db.get StateTrie.validatorListKey).mapError .readValidators
  (lib.decodeAddresses validatorBytes).mapError .decodeValidators

def summarize (flags : Flags) (validators : List Address) (state : AuditState) : Summary where
  dbPath := flags.dbPath
  startBlockExclusive := flags.start
  endBlockInclusive := flags.endBlock
  blocksScanned := state.blocksScanned
  regularTransactions := state.regularTransactions
  topLevelPrecompileCalls := state.topLevelCalls
  validStakingCalls := state.validCalls
  invalidCalldataCalls := state.invalidCalls
  methodCounts := publishedCounts state.methods
  currentValidatorListCount := validators.length
  unknownTargetTransactions := state.unknownTransactions
  unknownTargets := publishedTargets state.unknownTargets
  canonicalBlockDigest := lib.sha256 state.blockDigest
  outputPath := flags.output

/-- A run of the command that completes, with its rows and its summary. -/
def Completes (flags : Flags) (rows : List Row) (summary : Summary) : Prop :=
  flags.Accepted ∧ ∃ validators visited state, readValidators lib db = .ok validators ∧
    Ends (blockLoop lib db validators flags.endBlock) (flags.start + 1) {} visited (.ok state) ∧
    rows = state.rows ∧ summary = summarize lib flags validators state

end StakingCalls
