import SupplyAudit.BatchReplies
import SupplyAudit.TransitionBlocks

/-!
# The state difference against a node

`verify-state-diff-rpc.py` asks an archival node for the balances and nonces of
every row of a state difference at both blocks, in batches, and adds up the
deltas of the rows that agree.
-/

namespace StateDiffRpc

open ScriptValues FallibleScan AuditFiles CreatedAccounts BatchReplies

/-! ## The batch call -/

/-- A reply of a batch; `null` is `none`. -/
abbrev Item := Reply AuditError (Option String)

/-- What comes of sending the batch that starts at a row, at each attempt. -/
structure Transport where
  attempt : Int → List Call → Nat → Except AuditError (List Item)

def requestIds (calls : List Call) : List Int := (List.range calls.length).map fun i : Nat => (i : Int)

def missingItem (id : Int) : AuditError := .keyError (toString id)

/-- The body of an attempt after the response is decoded. -/
def readBatch (calls : List Call) (items : List Item) : Except AuditError (List (Option String)) :=
  if (byId items).length ≠ calls.length then .error (.runtimeError "incomplete batch response")
  else answersAt missingItem (requestIds calls) items

def rpcBatch (attempts : Nat → Except AuditError (List Item)) (calls : List Call) :
    Except AuditError (List (Option String)) :=
  match retryFrom (fun i => attempts i >>= readBatch calls) 0 5 with
  | .error err => .error (.runtimeError ("RPC batch failed: " ++ err.text))
  | .ok values => .ok values

/-! ## Rows -/

structure Args where
  output : String
  oldBlock : Int
  newBlock : Int
  batchSize : Int := 100

/-- The four calls of a row. -/
def rowCalls (args : Args) (row : Row) : Except AuditError (List Call) := do
  let cell ← raisePython (row.get "address")
  let address := cell.getD ""
  if address = "" then do
    let key ← raisePython (row.get "secure_key")
    .error (.valueError ("missing address for " ++ key.getD "None"))
  else
    .ok [⟨.getBalance, address, args.oldBlock⟩, ⟨.getBalance, address, args.newBlock⟩,
      ⟨.getTransactionCount, address, args.oldBlock⟩,
      ⟨.getTransactionCount, address, args.newBlock⟩]

@[ext] structure Progress where
  created : Nat := 0
  changed : Nat := 0
  deleted : Nat := 0
  positiveDelta : Int := 0
  negativeDelta : Int := 0
  deriving DecidableEq

variable (txt : AccountText)

/-- `int(values[i], 16)` -/
def hexAt (values : List (Option String)) (i : Nat) : Except AuditError Int :=
  match values[i]? with
  | none => .error .indexError
  | some none => .error (.typeError "int() can't convert non-string with explicit base")
  | some (some text) => parseHex txt text

/-- `if found != int(row[field]): raise ValueError(...)` -/
def checkField (row : Row) (field what : String) (found : Int) : Except AuditError Unit := do
  let listed ← intField txt.toPyText row field
  require (found = listed)
    (.valueError (what ++ " mismatch for " ++ (((row.lookup "address").join).getD "None")))

/-- `counts[row["change_type"]] += 1` -/
def countChange (p : Progress) (row : Row) : Except AuditError Progress := do
  let kind ← raisePython (row.get "change_type")
  if kind = some "created" then .ok { p with created := p.created + 1 }
  else if kind = some "changed" then .ok { p with changed := p.changed + 1 }
  else if kind = some "deleted" then .ok { p with deleted := p.deleted + 1 }
  else .error (.keyError ("'" ++ kind.getD "None" ++ "'"))

/-- The body of the loop over the rows of a batch. -/
def checkRow (values : List (Option String)) (p : Progress) (numbered : Row × Nat) :
    Except AuditError Progress := do
  let (row, index) := numbered
  let oldBalance ← hexAt txt values (index * 4 + 0)
  let newBalance ← hexAt txt values (index * 4 + 1)
  let oldNonce ← hexAt txt values (index * 4 + 2)
  let newNonce ← hexAt txt values (index * 4 + 3)
  checkField txt row "old_balance_atto" "old balance" oldBalance
  checkField txt row "new_balance_atto" "new balance" newBalance
  checkField txt row "old_nonce" "old nonce" oldNonce
  checkField txt row "new_nonce" "new nonce" newNonce
  let delta := newBalance - oldBalance
  checkField txt row "balance_delta_atto" "delta" delta
  countChange
    { p with
      positiveDelta := p.positiveDelta + if 0 < delta then delta else 0
      negativeDelta := p.negativeDelta + if delta < 0 then -delta else 0 } row

/-! ## Batches -/

def checkBatch (transport : Transport) (args : Args) (start : Int) (batch : List Row)
    (p : Progress) : Except AuditError Progress := do
  let calls ← batch.mapM (rowCalls args)
  let values ← rpcBatch (transport.attempt start calls.flatten) calls.flatten
  batch.zipIdx.foldlM (checkRow txt values) p

/-- The loop over batches; every batch has at least one row. -/
def checkBatches (transport : Transport) (args : Args) :
    Nat → Int → List Row → Progress → Except AuditError Progress
  | 0, _, _, p => .ok p
  | fuel + 1, start, rows, p =>
    if rows.isEmpty then .ok p
    else do
      let next ← checkBatch txt transport args start (rows.take args.batchSize.toNat) p
      checkBatches transport args fuel (start + args.batchSize) (rows.drop args.batchSize.toNat)
        next

structure Report where
  oldBlock : Int
  newBlock : Int
  rows : Nat
  created : Nat
  changed : Nat
  deleted : Nat
  positiveDeltaAtto : String
  negativeDeltaAtto : String
  netDeltaAtto : String
  balanceChecks : Nat
  nonceChecks : Nat
  deriving DecidableEq

def Progress.report (p : Progress) (args : Args) (rows : List Row) : Report where
  oldBlock := args.oldBlock
  newBlock := args.newBlock
  rows := rows.length
  created := p.created
  changed := p.changed
  deleted := p.deleted
  positiveDeltaAtto := toString p.positiveDelta
  negativeDeltaAtto := toString p.negativeDelta
  netDeltaAtto := toString (p.positiveDelta - p.negativeDelta)
  balanceChecks := rows.length * 2
  nonceChecks := rows.length * 2

/-- A negative batch size leaves `range` empty, so that no row is looked at. -/
def main (transport : Transport) (args : Args) (taken : String → Bool) (rows : List Row) :
    Except AuditError Report :=
  if taken args.output ∨ taken (args.output ++ ".partial") then .error (.fileExists args.output)
  else if args.batchSize = 0 then .error (.valueError "range() arg 3 must not be zero")
  else if args.batchSize < 0 then .ok (Progress.report {} args rows)
  else do
    let p ← checkBatches txt transport args rows.length 0 rows {}
    .ok (p.report args rows)

end StateDiffRpc
