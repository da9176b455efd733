import Mathlib.Data.List.Sort
import SupplyAudit.RecoveryIssuance
import SupplyAudit.StateTrie

/-!
# Canonical block bodies

The block scans read the canonical hash of a number and the body stored under
both. The two staking audits decode a body in the same way up to the list that
each of them reads, and keep the same table of unknown targets.
-/

namespace BlockBodies

open ByteWords ReceiptKeys ChainDatabase
open RecoveryIssuance (TaggedEnvelope envelopeSignature field)

def bodyKey (number : UInt64) (hash : Hash) : Bytes :=
  ascii ['b'] ++ (ofNat 8 number.toNat ++ hash.data)

/-- The library functions that all block scans call. -/
structure BodyCodec where
  keccak256 : Bytes → Hash
  sha256 : Bytes → Bytes
  decodeEnvelope : Bytes → Except String TaggedEnvelope
  decodeFields : Bytes → Except String (List Bytes)

/-- The failures of the staking audits before the transactions of a block. -/
inductive BodyError where
  | readHash (number : UInt64) (err : String)
  | hashLength (number : UInt64) (length : Nat)
  | readBody (number : UInt64) (hash : Hash) (err : String)
  | decodeEnvelope (number : UInt64) (err : String)
  | signature (number : UInt64) (signature : String)
  | decodeFields (tag : String) (number : UInt64) (err : String)
  | unsupportedTag (number : UInt64) (tag : String)
  | fieldCount (number : UInt64) (length : Nat)
  | decodeList (kind : String) (number : UInt64) (err : String)
  deriving DecidableEq

variable (lib : BodyCodec) (db : Database)

def readBody (number : UInt64) : Except BodyError (Hash × Bytes) := do
  let hashBytes ← (db.get (canonicalHashKey number)).mapError (.readHash number)
  if hashBytes.length ≠ hashLength then .error (.hashLength number hashBytes.length)
  else
    let hash : Hash := .ofBytes 32 hashBytes
    let body ← (db.get (bodyKey number hash)).mapError (.readBody number hash)
    .ok (hash, body)

/-- The list in one field of a `v2` body. -/
def decodeBodyList (index : Nat) (kind : String) (encoded : Bytes) (number : UInt64) :
    Except BodyError (List Bytes) := do
  let envelope ← (lib.decodeEnvelope encoded).mapError (.decodeEnvelope number)
  if envelope.signature ≠ envelopeSignature then .error (.signature number envelope.signature)
  else
    let fields ← (lib.decodeFields envelope.raw).mapError (.decodeFields envelope.tag number)
    if envelope.tag ≠ "v2" then .error (.unsupportedTag number envelope.tag)
    else if fields.length ≠ 4 then .error (.fieldCount number fields.length)
    else (lib.decodeFields (field fields index)).mapError (.decodeList kind number)

def decodeBodyStakingTransactions : Bytes → UInt64 → Except BodyError (List Bytes) :=
  decodeBodyList lib 1 "staking"

def decodeBodyTransactions : Bytes → UInt64 → Except BodyError (List Bytes) :=
  decodeBodyList lib 0 "regular"

/-! ## Arguments -/

/-- The arguments of a scan of the blocks after `start` up to `endBlock`. -/
structure Flags where
  dbPath : String
  start : UInt64
  endBlock : UInt64
  output : String

/-- The arguments pass the check of the command. -/
def Flags.Accepted (flags : Flags) : Prop :=
  flags.dbPath ≠ "" ∧ flags.output ≠ "" ∧ flags.start < flags.endBlock

instance (flags : Flags) : Decidable flags.Accepted :=
  inferInstanceAs (Decidable (_ ∧ _))

/-! ## Unknown targets -/

structure MutableUnknownTarget where
  firstBlock : UInt64
  lastBlock : UInt64 := 0
  transactions : Nat := 0
  delegateAtto : Int := 0
  undelegateAtto : Int := 0
  deriving DecidableEq

structure UnknownTarget where
  address : Address
  firstBlock : UInt64
  lastBlock : UInt64
  transactions : Nat
  delegateAtto : String
  undelegateAtto : String
  deriving DecidableEq

/-- One more transaction to a target; `delegated` and `undelegated` are its amount
where it is of that kind. -/
def MutableUnknownTarget.add (number : UInt64) (delegated undelegated : Int)
    (entry : MutableUnknownTarget) : MutableUnknownTarget :=
  { entry with
    lastBlock := number
    transactions := entry.transactions + 1
    delegateAtto := entry.delegateAtto + delegated
    undelegateAtto := entry.undelegateAtto + undelegated }

def addUnknownTarget (unknownTargets : List (Address × MutableUnknownTarget)) (target : Address)
    (number : UInt64) (delegated undelegated : Int) : List (Address × MutableUnknownTarget) :=
  KeyedTable.update unknownTargets target { firstBlock := number }
    (MutableUnknownTarget.add number delegated undelegated)

def unknownTarget (entry : Address × MutableUnknownTarget) : UnknownTarget where
  address := entry.1
  firstBlock := entry.2.firstBlock
  lastBlock := entry.2.lastBlock
  transactions := entry.2.transactions
  delegateAtto := toString entry.2.delegateAtto
  undelegateAtto := toString entry.2.undelegateAtto

/-- The table in the order of the address bytes. -/
def publishedTargets (unknownTargets : List (Address × MutableUnknownTarget)) :
    List UnknownTarget :=
  (unknownTargets.insertionSort fun a b => a.1.data ≤ b.1.data).map unknownTarget

/-- Counts by name in the order of the names. -/
def publishedCounts (counts : List (String × Nat)) : List (String × Nat) :=
  counts.insertionSort fun a b => a.1 ≤ b.1

end BlockBodies
