import Mathlib.Data.List.Sort
import Mathlib.Data.Nat.Digits.Defs
import SupplyAudit.AuditFiles
import SupplyAudit.Bisection
import SupplyAudit.KeyedTable

/-!
# The blocks that created accounts

`verify-created-accounts.py` bisects, for all accounts that a state difference
calls created at once, for the block at which each came to exist. An account
exists when it has a balance, a nonce or code; an account of the trie may have
none of them.
-/

namespace CreatedAccounts

open NumeralText ByteWords ScriptValues FallibleScan AuditFiles Bisection

/-! ## Accounts as the node gives them -/

/-- A quantity of the node: hexadecimal after `0x`, without leading zeros. -/
def quantity (n : Nat) : String :=
  "0x" ++ String.ofList (if n = 0 then ['0'] else (Nat.digits 16 n).reverse.map Nat.digitChar)

/-- `int(text, 16)` next to the other texts. -/
structure AccountText extends PyText where
  hexInt : String → Option Int
  hexInt_quantity : ∀ n : Nat, hexInt (quantity n) = some (n : Int)

inductive Method where
  | getBalance
  | getTransactionCount
  | getCode
  deriving DecidableEq

def Method.name : Method → String
  | .getBalance => "eth_getBalance"
  | .getTransactionCount => "eth_getTransactionCount"
  | .getCode => "eth_getCode"

structure Call where
  method : Method
  address : String
  block : Int
  deriving DecidableEq

/-- A decoded JSON value of a trace. -/
inductive Json where
  | null
  | bool (b : Bool)
  | number (n : Int)
  | text (s : String)
  | array (items : List Json)
  | object (fields : List (String × Json))

/-- What the script reads of a block's transaction. -/
structure BlockTransaction where
  sender : Option String
  recipient : Option String
  hash : Option String

/-- The calls of the script, after its retries. -/
structure Node where
  batch : List Call → Except AuditError (List String)
  traceBlock : Int → Except AuditError (List Json)
  blockTransactions : Int → Except AuditError (List BlockTransaction)

variable (txt : AccountText)

def parseHex (text : String) : Except AuditError Int :=
  match txt.hexInt text with
  | none => .error (.python (.invalidInteger text))
  | some n => .ok n

/-- `exists`: a later value is read only when the ones before are zero. -/
def accountExists (balance nonce code : String) : Except AuditError Bool := do
  let balanceValue ← parseHex txt balance
  if balanceValue ≠ 0 then .ok true
  else do
    let nonceValue ← parseHex txt nonce
    .ok (nonceValue ≠ 0 ∨ ¬ (code = "0x" ∨ code = "0x0"))

/-! ## The bisection -/

abbrev Bounds := List (String × Window)

def lowerAddress (row : Row) : Except AuditError String := do
  let cell ← raisePython (row.get "address")
  raisePython (txt.lowered cell)

def createdRows (rows : List Row) : Except AuditError (List Row) := do
  let kinds ← rows.mapM fun row => raisePython (row.get "change_type")
  .ok (((rows.zip kinds).filter fun entry => entry.2 = some "created").map Prod.fst)

def startBounds (oldBlock newBlock : Int) (created : List Row) : Except AuditError Bounds :=
  created.foldlM (fun bounds row => do
    let address ← lowerAddress txt row
    .ok (KeyedTable.set bounds address ⟨oldBlock + 1, newBlock⟩)) []

/-- The open windows, each with the block in its middle. -/
def active (bounds : Bounds) : List (String × Window) :=
  bounds.filter fun entry => entry.2.isOpen

def callsOf (entry : String × Window) : List Call :=
  [⟨.getBalance, entry.1, entry.2.middle⟩, ⟨.getTransactionCount, entry.1, entry.2.middle⟩,
    ⟨.getCode, entry.1, entry.2.middle⟩]

def valueAt (values : List String) (i : Nat) : Except AuditError String :=
  match values[i]? with
  | none => .error .indexError
  | some value => .ok value

/-- The body of the loop over the active accounts. -/
def applyAnswer (values : List String) (bounds : Bounds) (numbered : (String × Window) × Nat) :
    Except AuditError Bounds := do
  let balance ← valueAt values (numbered.2 * 3)
  let nonce ← valueAt values (numbered.2 * 3 + 1)
  let code ← valueAt values (numbered.2 * 3 + 2)
  let present ← accountExists txt balance nonce code
  .ok (KeyedTable.set bounds numbered.1.1 (numbered.1.2.narrow present))

/-- One round: one batch for all open windows. -/
def round (node : Node) (bounds : Bounds) : Except AuditError Bounds := do
  let values ← node.batch ((active bounds).flatMap callsOf)
  (active bounds).zipIdx.foldlM (applyAnswer txt values) bounds

/-- The loop; `rounds` bounds their number. -/
def bisect (node : Node) : Nat → Bounds → Except AuditError Bounds
  | 0, bounds => .ok bounds
  | rounds + 1, bounds =>
    if (active bounds) = [] then .ok bounds
    else do
      let next ← round txt node bounds
      bisect node rounds next

/-! ## Evidence -/

def addressKeys : List String :=
  ["from", "to", "address", "refundaddress", "author", "beneficiary"]

/-- The address that a field names by itself. -/
def namedAddress (field : String × Json) : List String :=
  match field.2 with
  | .text s =>
    if txt.lower field.1 ∈ addressKeys ∧ s.length = 42 ∧ s.toList.take 2 = ['0', 'x'] then
      [txt.lower s]
    else []
  | _ => []

mutual

/-- `address_values` -/
def addressValues : Json → List String
  | .object fields => fieldAddresses fields
  | .array items => itemAddresses items
  | _ => []

def fieldAddresses : List (String × Json) → List String
  | [] => []
  | (key, item) :: rest => namedAddress txt (key, item) ++ addressValues item ++ fieldAddresses rest

def itemAddresses : List Json → List String
  | [] => []
  | item :: rest => addressValues item ++ itemAddresses rest

end

/-- `bool(value)` -/
def Json.truth : Json → Bool
  | .null => false
  | .bool b => b
  | .number n => n ≠ 0
  | .text s => s ≠ ""
  | .array items => !items.isEmpty
  | .object fields => !fields.isEmpty

/-- `trace.get("transactionHash") or ""` -/
def traceHash : Json → Except AuditError Json
  | .object fields =>
    .ok (((fields.lookup "transactionHash").filter Json.truth).getD (.text ""))
  | _ => .error (.attributeError "object has no attribute 'get'")

/-- The hash of the first trace that names the address. -/
def transactionHashForAddress (traces : List Json) (address : String) :
    Except AuditError (Option Json) :=
  match traces.find? fun trace => address ∈ addressValues txt trace with
  | none => .ok none
  | some trace => (traceHash trace).map some

inductive Evidence where
  | trace
  | blockTransaction
  | protocolStateTransition
  deriving DecidableEq

def Evidence.text : Evidence → String
  | .trace => "trace"
  | .blockTransaction => "block_transaction"
  | .protocolStateTransition => "protocol_state_transition"

structure ReportRow where
  secureKey : Option String
  address : Option String
  transitionBlock : Int
  transactionHash : Json
  evidence : Evidence
  newBalanceAtto : Option String
  newNonce : Option String
  newCodeHash : Option String

def findEvidence (node : Node) (address : String) (block : Int) :
    Except AuditError (Json × Evidence) := do
  let traces ← node.traceBlock block
  let traced ← transactionHashForAddress txt traces (txt.lower address)
  match traced with
  | some hash => .ok (hash, .trace)
  | none => do
    let transactions ← node.blockTransactions block
    match transactions.find? fun t =>
        address = txt.lower (t.sender.getD "") ∨ address = txt.lower (t.recipient.getD "") with
    | some t => .ok (.text (t.hash.getD ""), .blockTransaction)
    | none => .ok (.text "", .protocolStateTransition)

def reportRow (node : Node) (byAddress : List (String × Row)) (entry : String × Window) :
    Except AuditError ReportRow := do
  let (hash, evidence) ← findEvidence txt node entry.1 entry.2.low
  match byAddress.lookup entry.1 with
  | none => .error (.keyError ("'" ++ entry.1 ++ "'"))
  | some row => do
    let secureKey ← raisePython (row.get "secure_key")
    let address ← raisePython (row.get "address")
    let balance ← raisePython (row.get "new_balance_atto")
    let nonce ← raisePython (row.get "new_nonce")
    let codeHash ← raisePython (row.get "new_code_hash")
    .ok ⟨secureKey, address, entry.2.low, hash, evidence, balance, nonce, codeHash⟩

structure Report where
  rows : List ReportRow
  createdAccounts : Nat
  traceMatches : Nat
  blockTransactionMatches : Nat
  protocolStateTransitions : Nat

structure Args where
  output : String
  summary : String
  oldBlock : Int
  newBlock : Int

/-- The bounds of the created accounts after the loop. -/
def transitions (node : Node) (args : Args) (rows : List Row) : Except AuditError Bounds := do
  let created ← createdRows rows
  let bounds ← startBounds txt args.oldBlock args.newBlock created
  bisect txt node (args.newBlock - args.oldBlock).toNat bounds

def indexByAddress (created : List Row) : Except AuditError (List (String × Row)) :=
  created.foldlM (fun table row => do
    let address ← lowerAddress txt row
    .ok (KeyedTable.set table address row)) []

def main (node : Node) (args : Args) (taken : String → Bool) (rows : List Row) :
    Except AuditError Report := do
  match [args.output, args.summary].find? fun p => taken p || taken (p ++ ".partial") with
  | some p => .error (.fileExists p)
  | none => do
    let created ← createdRows rows
    let byAddress ← indexByAddress txt created
    let bounds ← transitions txt node args rows
    let report ← (bounds.insertionSort fun a b => a.1 ≤ b.1).mapM (reportRow txt node byAddress)
    require (report.isEmpty = false) .indexError
    .ok
      { rows := report
        createdAccounts := created.length
        traceMatches := report.countP fun row => row.evidence = .trace
        blockTransactionMatches := report.countP fun row => row.evidence = .blockTransaction
        protocolStateTransitions :=
          report.countP fun row => row.evidence = .protocolStateTransition }

end CreatedAccounts
