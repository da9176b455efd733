import SupplyAudit.StateTrie

/-!
# The account snapshot

`account-snapshot` iterates over a state trie, writes a CSV record for every
account with a positive balance, and counts all accounts. Opening files and
printing progress are left out.
-/

namespace AccountSnapshot

open ByteWords NumeralText ReceiptKeys ChainDatabase StateTrie

variable (codec : StateCodec) (db : Database)

def header : List String := ["secure_key", "address", "balance_atto", "nonce", "code_hash"]

structure Progress where
  records : List (List String) := []
  accounts : Nat := 0
  positiveAccounts : Nat := 0
  missingPreimages : Nat := 0
  qualifyingAccounts : Nat := 0
  qualifyingCodeLess : Nat := 0
  qualifyingCodeBearing : Nat := 0
  totalBalance : Int := 0
  qualifyingBalance : Int := 0

/-- The address of a secure key; empty when its preimage is not stored. -/
def preimageAddress (key : Hash) : Except String String :=
  let addrBytes := readPreimage db key
  if addrBytes.length = 0 then .ok ""
  else if h : addrBytes.length ≠ 20 then
    .error ("invalid preimage length " ++ toString addrBytes.length ++ " at secure key " ++
      hexText key.data)
  else if codec.keccak256 addrBytes ≠ key then
    .error ("preimage hash mismatch at secure key " ++ hexText key.data)
  else .ok (addressHex codec ⟨addrBytes, not_not.mp h⟩)

/-- An account with a positive balance gets a record. -/
def writeAccount (key : Hash) (account : StateAccount) (balance : Int) (p : Progress) :
    Except String Progress :=
  if 0 < balance then do
    let address ← preimageAddress codec db key
    .ok { p with
      positiveAccounts := p.positiveAccounts + 1
      missingPreimages := p.missingPreimages + if (readPreimage db key).length = 0 then 1 else 0
      records := p.records ++ [[prefixedHex key.data, address, toString balance,
        toString account.nonce.toNat, prefixedHex account.codeHash]] }
  else .ok p

def qualify (threshold : Int) (account : StateAccount) (balance : Int) (p : Progress) : Progress :=
  if threshold < balance then
    { p with
      qualifyingAccounts := p.qualifyingAccounts + 1
      qualifyingBalance := p.qualifyingBalance + balance
      qualifyingCodeLess :=
        p.qualifyingCodeLess + if account.codeHash = emptyCodeHash.data then 1 else 0
      qualifyingCodeBearing :=
        p.qualifyingCodeBearing + if account.codeHash = emptyCodeHash.data then 0 else 1 }
  else p

/-- The body of the loop over the trie's leaves. -/
def snapshotLeaf (threshold : Int) (p : Progress) (leaf : Hash × Bytes) :
    Except String Progress := do
  let account ← decodedAccount codec leaf.1 leaf.2
  let balance ← checkedBalance leaf.1 account
  let p ← writeAccount codec db leaf.1 account balance
    { p with accounts := p.accounts + 1, totalBalance := p.totalBalance + balance }
  .ok (qualify threshold account balance p)

structure Summary where
  stateRoot : String
  thresholdAtto : String
  accounts : Nat
  positiveAccounts : Nat
  missingPreimages : Nat
  qualifyingAccounts : Nat
  qualifyingCodeLess : Nat
  qualifyingCodeBearing : Nat
  totalBalanceAtto : String
  qualifyingBalanceAtto : String

/-- What the command leaves behind: the CSV, the printed summary and the exit
status, which is 3 when preimages are required and some are missing. -/
structure Output where
  csv : List (List String)
  summary : Summary
  exitCode : Nat

def main (trie : Trie) (root : Hash) (threshold : Int) (requirePreimages : Bool) :
    Except String Output :=
  if trie.hash ≠ root then
    .error ("opened trie root mismatch: got " ++ prefixedHex trie.hash.data ++ " want " ++
      prefixedHex root.data)
  else do
    let p ← trie.leaves.foldlM (snapshotLeaf codec db threshold) {}
    match trie.iterErr with
    | some err => .error ("state trie iteration: " ++ err)
    | none =>
      .ok
        { csv := header :: p.records
          summary :=
            { stateRoot := prefixedHex root.data
              thresholdAtto := toString threshold
              accounts := p.accounts
              positiveAccounts := p.positiveAccounts
              missingPreimages := p.missingPreimages
              qualifyingAccounts := p.qualifyingAccounts
              qualifyingCodeLess := p.qualifyingCodeLess
              qualifyingCodeBearing := p.qualifyingCodeBearing
              totalBalanceAtto := toString p.totalBalance
              qualifyingBalanceAtto := toString p.qualifyingBalance }
          exitCode := if requirePreimages ∧ p.missingPreimages ≠ 0 then 3 else 0 }

end AccountSnapshot
