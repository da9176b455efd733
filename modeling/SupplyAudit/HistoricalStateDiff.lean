import SupplyAudit.StateTrie

/-!
# The difference of two account states

`historical-state-diff` compares the account tries of two roots. A forward pass
reports created and changed accounts, a reverse pass the deleted ones. The
iterator over the difference of two tries is library code and stays a parameter.
-/

namespace HistoricalStateDiff

open ByteWords NumeralText ReceiptKeys ChainDatabase StateTrie

/-- The accounts under a root. A lookup can fail at a missing node but never
answers wrongly, and no account has an empty encoding. -/
structure AccountTrie where
  leaves : List (Hash × Bytes)
  increasing : leaves.Pairwise (fun a b => a.1.data < b.1.data)
  nonempty : ∀ leaf ∈ leaves, leaf.2 ≠ []
  tryGet : Hash → Except String (Option Bytes)
  truthful : ∀ key found, tryGet key = .ok found → found = leaves.lookup key

/-- An iteration over the leaves of a difference, as far as it came. -/
structure Difference where
  leaves : List (Hash × Bytes)
  nodesScanned : Nat
  err : Option String

structure AccountValue where
  balance : Int
  nonce : UInt64
  codeHash : Bytes
  deriving DecidableEq

/-- The value of an account that is not there. -/
def AccountValue.absent : AccountValue := ⟨0, 0, emptyCodeHash.data⟩

inductive ChangeType where
  | created
  | changed
  | deleted
  deriving DecidableEq

def ChangeType.text : ChangeType → String
  | .created => "created"
  | .changed => "changed"
  | .deleted => "deleted"

structure ChangeRow where
  key : Hash
  address : String
  changeType : ChangeType
  oldValue : AccountValue
  newValue : AccountValue
  deriving DecidableEq

def ChangeRow.delta (row : ChangeRow) : Int := row.newValue.balance - row.oldValue.balance

def header : List String :=
  ["secure_key", "address", "change_type", "old_balance_atto", "new_balance_atto",
    "balance_delta_atto", "old_nonce", "new_nonce", "old_code_hash", "new_code_hash"]

def ChangeRow.cells (row : ChangeRow) : List String :=
  [prefixedHex row.key.data, row.address, row.changeType.text, toString row.oldValue.balance,
    toString row.newValue.balance, toString row.delta, toString row.oldValue.nonce.toNat,
    toString row.newValue.nonce.toNat, prefixedHex row.oldValue.codeHash,
    prefixedHex row.newValue.codeHash]

structure Progress where
  rows : List ChangeRow := []
  positiveDelta : Int := 0
  negativeDelta : Int := 0
  netDelta : Int := 0
  created : Nat := 0
  changed : Nat := 0
  deleted : Nat := 0
  missingPreimages : Nat := 0

structure Summary where
  oldRoot : String
  newRoot : String
  createdAccounts : Nat
  changedAccounts : Nat
  deletedAccounts : Nat
  missingPreimages : Nat
  positiveDeltaAtto : String
  negativeDeltaAtto : String
  netLiquidDeltaAtto : String
  forwardNodesScanned : Nat
  reverseNodesScanned : Nat

structure Output where
  rows : List ChangeRow
  summary : Summary

def Output.csv (output : Output) : List (List String) := header :: output.rows.map ChangeRow.cells

variable (codec : StateCodec) (db : Database)

def decodeAccount (encoded : Bytes) (key : Hash) : Except String AccountValue :=
  if encoded.length = 0 then .ok .absent
  else match codec.decodeAccount encoded with
    | .error err => .error ("decode account " ++ hexText key.data ++ ": " ++ err)
    | .ok account =>
      match account.balance with
      | none => .error ("invalid account balance " ++ hexText key.data)
      | some balance =>
        if balance < 0 then .error ("invalid account balance " ++ hexText key.data)
        else .ok ⟨balance, account.nonce, account.codeHash⟩

theorem length_of_not_ne {bs : Bytes} (h : ¬ bs.length ≠ 20) : bs.length = 20 := not_not.mp h

/-- The address of a changed account; empty when its preimage is not stored. -/
def changeAddress (key : Hash) : Except String String :=
  let preimage := readPreimage db key
  if preimage.length = 0 then .ok ""
  else if h : preimage.length ≠ 20 then
    .error ("invalid preimage for account " ++ hexText key.data)
  else if codec.keccak256 preimage ≠ key then
    .error ("invalid preimage for account " ++ hexText key.data)
  else .ok (addressHex codec ⟨preimage, length_of_not_ne h⟩)

def writeChange (key : Hash) (oldValue newValue : AccountValue) (changeType : ChangeType)
    (p : Progress) : Except String Progress := do
  let delta := newValue.balance - oldValue.balance
  let address ← changeAddress codec db key
  .ok { p with
    positiveDelta := p.positiveDelta + if 0 < delta then delta else 0
    negativeDelta := p.negativeDelta + if delta < 0 then -delta else 0
    netDelta := p.netDelta + delta
    missingPreimages := p.missingPreimages + if (readPreimage db key).length = 0 then 1 else 0
    rows := p.rows ++ [⟨key, address, changeType, oldValue, newValue⟩] }

/-- The body of the loop over the leaves that only the new trie has. -/
def forwardLeaf (old : AccountTrie) (p : Progress) (leaf : Hash × Bytes) :
    Except String Progress :=
  match old.tryGet leaf.1 with
  | .error err => .error ("read old account " ++ hexText leaf.1.data ++ ": " ++ err)
  | .ok found => do
    let oldEncoded := found.getD []
    let oldValue ← decodeAccount codec oldEncoded leaf.1
    let newValue ← decodeAccount codec leaf.2 leaf.1
    if oldEncoded.length = 0 then
      writeChange codec db leaf.1 oldValue newValue .created { p with created := p.created + 1 }
    else writeChange codec db leaf.1 oldValue newValue .changed { p with changed := p.changed + 1 }

/-- The body of the loop over the leaves that only the old trie has. -/
def reverseLeaf (new : AccountTrie) (p : Progress) (leaf : Hash × Bytes) :
    Except String Progress :=
  match new.tryGet leaf.1 with
  | .error err => .error ("read new account " ++ hexText leaf.1.data ++ ": " ++ err)
  | .ok found =>
    let newEncoded := found.getD []
    if newEncoded.length ≠ 0 then .ok p
    else do
      let oldValue ← decodeAccount codec leaf.2 leaf.1
      let newValue ← decodeAccount codec [] leaf.1
      writeChange codec db leaf.1 oldValue newValue .deleted { p with deleted := p.deleted + 1 }

/-- The check after an iteration. -/
def checkIteration (direction : String) (iteration : Difference) : Except String Unit :=
  match iteration.err with
  | some err => .error (direction ++ " difference iteration: " ++ err)
  | none => .ok ()

/-- Both passes. -/
def collect (forward reverse : Difference) (old new : AccountTrie) : Except String Progress := do
  let p ← forward.leaves.foldlM (forwardLeaf codec db old) {}
  checkIteration "forward" forward
  let p ← reverse.leaves.foldlM (reverseLeaf codec db new) p
  checkIteration "reverse" reverse
  .ok p

/-- `difference a b` iterates over what `b` has beyond `a`. -/
def main (difference : AccountTrie → AccountTrie → Difference) (oldRoot newRoot : Hash)
    (old new : AccountTrie) : Except String Output := do
  let forward := difference old new
  let reverse := difference new old
  let p ← collect codec db forward reverse old new
  .ok
    { rows := p.rows
      summary :=
        { oldRoot := prefixedHex oldRoot.data
          newRoot := prefixedHex newRoot.data
          createdAccounts := p.created
          changedAccounts := p.changed
          deletedAccounts := p.deleted
          missingPreimages := p.missingPreimages
          positiveDeltaAtto := toString p.positiveDelta
          negativeDeltaAtto := toString p.negativeDelta
          netLiquidDeltaAtto := toString p.netDelta
          forwardNodesScanned := forward.nodesScanned
          reverseNodesScanned := reverse.nodesScanned } }

end HistoricalStateDiff
