import SupplyAudit.LabelledTrees
import SupplyAudit.ScriptValues

/-!
# Call traces and their classification

`cx-source-audit.py` looks for the cross-shard precompile call that produced a
receipt in the replayed call tree of its source transaction. `inspect_trace`
counts calls in one visit; `classify_replay` decides from the counts and the
outcome of the root.
-/

namespace TraceInspection

open ByteWords NumeralText ScriptValues LabelledTrees

/-! ## Values of the trace -/

/-- ASCII whitespace. -/
def isSpace (c : Char) : Bool := c = ' ' ∨ ('\t' ≤ c ∧ c ≤ '\r')

/-- Text functions that the audit scripts use besides `lower` and `int`. -/
structure AuditText extends PyText where
  upper : String → String
  strip : String → String
  lower_lower : ∀ text, lower (lower text) = lower text

theorem toLower_toLower (c : Char) : c.toLower.toLower = c.toLower := by
  by_cases h : c.val ≥ 'A'.val ∧ c.val ≤ 'Z'.val
  · have hval : c.toLower.val = c.val + ('a'.val - 'A'.val) := congrArg Char.val (dif_pos h)
    have hnot : ¬ (c.toLower.val ≥ 'A'.val ∧ c.toLower.val ≤ 'Z'.val) := by
      rw [hval]
      simp only [ge_iff_le, UInt32.le_iff_toNat_le] at h ⊢
      simp at h ⊢
      omega
    exact dif_neg hnot
  · have hlower : c.toLower = c := dif_neg h
    rw [hlower, hlower]

/-- Both on ASCII letters and whitespace only. -/
def AuditText.ascii : AuditText where
  toPyText := PyText.ascii
  upper text := String.ofList (text.toList.map Char.toUpper)
  strip text := String.ofList
    ((text.toList.dropWhile isSpace).reverse.dropWhile isSpace).reverse
  lower_lower text := by
    simp only [PyText.ascii, String.toList_ofList, List.map_map]
    congr 2
    funext c
    exact toLower_toLower c

/-- A decoded JSON value. Floats, arrays and objects are known by what `str` and
`bool` make of them. -/
inductive JsonValue where
  | null
  | bool (b : Bool)
  | int (n : Int)
  | str (text : String)
  | other (text : String) (truth : Bool)
  deriving DecidableEq

/-- `str(value)` -/
def JsonValue.text : JsonValue → String
  | .null => "None"
  | .bool b => if b then "True" else "False"
  | .int n => toString n
  | .str text => text
  | .other text _ => text

/-- `bool(value)` -/
def JsonValue.truth : JsonValue → Bool
  | .null => false
  | .bool b => b
  | .int n => n ≠ 0
  | .str text => text ≠ ""
  | .other _ truth => truth

/-- One frame of the call tracer without its nested `calls`. -/
structure CallFrame where
  type : Option JsonValue := none
  sender : Option JsonValue := none
  recipient : Option JsonValue := none
  input : Option JsonValue := none
  error : Option JsonValue := none
  deriving DecidableEq

/-- `str(node.get(field, ""))` -/
def fieldText (value : Option JsonValue) : String := (value.map JsonValue.text).getD ""

/-- `bool(node.get("error"))` -/
def CallFrame.failed (node : CallFrame) : Bool := (node.error.map JsonValue.truth).getD false

abbrev Trace := LabelledTrees.Tree CallFrame

/-! ## The precompile's input -/

def hexValue (c : Char) : Option UInt8 :=
  if '0' ≤ c ∧ c ≤ '9' then some (UInt8.ofNat (c.toNat - 48))
  else if 'a' ≤ c ∧ c ≤ 'f' then some (UInt8.ofNat (c.toNat - 87))
  else if 'A' ≤ c ∧ c ≤ 'F' then some (UInt8.ofNat (c.toNat - 55))
  else none

/-- `bytes.fromhex`; whitespace may stand between two bytes. -/
def fromHex : List Char → Option Bytes
  | [] => some []
  | [c] => if isSpace c then some [] else none
  | c :: d :: rest =>
    if isSpace c then fromHex (d :: rest)
    else do
      let high ← hexValue c
      let low ← hexValue d
      let bytes ← fromHex rest
      some ((high * 16 + low) :: bytes)

def cxPrecompile : String := "0x00000000000000000000000000000000000000f9"

def cxSelector : Bytes := [0x28, 0x48, 0x08, 0x00]

def callTypes : List String := ["CALL", "CALLCODE", "DELEGATECALL", "STATICCALL"]

structure Payload where
  amountAtto : Nat
  recipient : String
  destinationShard : Nat
  deriving DecidableEq

/-- Addresses and shards are read from the low bytes of their words. -/
def decodePayload (raw : Bytes) : Option Payload :=
  if raw.length < 100 ∨ raw.take 4 ≠ cxSelector then none
  else
    let addressWord := (raw.drop 36).take 32
    let shardWord := (raw.drop 68).take 32
    some
      { amountAtto := toNat ((raw.drop 4).take 32)
        recipient := prefixedHex (addressWord.drop 12)
        destinationShard := toNat (shardWord.drop 28) }

def parsePrecompileInput : Option JsonValue → Option Payload
  | some (.str text) =>
    match text.toList with
    | '0' :: 'x' :: digits => (fromHex digits).bind decodePayload
    | _ => none
  | _ => none

/-! ## Inspection -/

structure ReceiptIdentity where
  sourceShard : Int
  destinationShard : Int
  sourceBlock : Int
  sourceBlockHash : String
  receiptIndex : Int
  txHash : String
  sender : String
  recipient : String
  amountAtto : Int
  deriving DecidableEq

structure Inspection where
  precompileCallCount : Nat := 0
  completedPrecompileCallCount : Nat := 0
  precompilePayloadMatchCount : Nat := 0
  completedPrecompilePayloadMatchCount : Nat := 0
  failedPrecompilePathCount : Nat := 0
  failedMatchingPrecompilePathCount : Nat := 0
  deriving DecidableEq

/-- What a frame inherits from the frames above it. -/
structure Context where
  failedNonrootAncestor : Bool
  contextSender : String
  isRoot : Bool

variable (py : AuditText) (identity : ReceiptIdentity)

def callType (node : CallFrame) : String := py.upper (fieldText node.type)

def senderText (node : CallFrame) : String := py.lower (fieldText node.sender)

def isPrecompileCall (node : CallFrame) : Bool :=
  py.lower (fieldText node.recipient) = cxPrecompile ∧ callType py node ∈ callTypes

def payloadMatches (node : CallFrame) (contextSender : String) : Bool :=
  match parsePrecompileInput node.input with
  | none => false
  | some payload =>
    payload.amountAtto = identity.amountAtto ∧ contextSender = identity.sender ∧
      payload.recipient = identity.recipient ∧ payload.destinationShard = identity.destinationShard

/-- The body of `visit` for one frame. -/
def countCall (context : Context) (node : CallFrame) (result : Inspection) : Inspection :=
  if isPrecompileCall py node then
    let found := payloadMatches identity node context.contextSender
    let result := { result with precompileCallCount := result.precompileCallCount + 1 }
    let result :=
      if found then
        { result with precompilePayloadMatchCount := result.precompilePayloadMatchCount + 1 }
      else result
    if node.failed then result
    else
      let result :=
        { result with completedPrecompileCallCount := result.completedPrecompileCallCount + 1 }
      let result :=
        if found then
          { result with
            completedPrecompilePayloadMatchCount :=
              result.completedPrecompilePayloadMatchCount + 1 }
        else result
      if context.failedNonrootAncestor then
        let result :=
          { result with failedPrecompilePathCount := result.failedPrecompilePathCount + 1 }
        if found then
          { result with
            failedMatchingPrecompilePathCount := result.failedMatchingPrecompilePathCount + 1 }
        else result
      else result
  else result

/-- The context of a child frame. -/
def childContext (context : Context) (node child : CallFrame) : Context where
  failedNonrootAncestor :=
    context.failedNonrootAncestor || (!context.isRoot && node.failed)
  contextSender :=
    if callType py child = "DELEGATECALL" then context.contextSender else senderText py child
  isRoot := false

def inspectTrace (root : Trace) : Inspection :=
  visit (countCall py identity) (childContext py) ⟨false, senderText py root.label, true⟩ root {}

/-! ## Classification -/

/-- The classifications of a receipt, final or by replay. -/
inductive Classification where
  | rollbackLeak
  | sourceDebitAbsent
  | validSourceDebit
  | unclassified
  | replayIncompatible
  | receiptInconsistent
  | notTraced
  deriving DecidableEq

def Classification.text : Classification → String
  | .rollbackLeak => "rollback_leak"
  | .sourceDebitAbsent => "source_debit_absent"
  | .validSourceDebit => "valid_source_debit"
  | .unclassified => "unclassified"
  | .replayIncompatible => "replay_incompatible"
  | .receiptInconsistent => "receipt_inconsistent"
  | .notTraced => "not_traced"

structure Replay where
  classification : Classification
  compatible : Bool
  issue : String
  status : Int
  deriving DecidableEq

def classifyReplay (receiptStatus : Int) (root : CallFrame) (inspection : Inspection) : Replay :=
  let traceStatus : Int := if root.failed then 0 else 1
  if receiptStatus ≠ 1 then
    ⟨.receiptInconsistent, false,
      "canonical outgoing receipt has a failed source transaction status", traceStatus⟩
  else if traceStatus ≠ receiptStatus then
    ⟨.replayIncompatible, false,
      "replay root outcome disagrees with the stored source receipt", traceStatus⟩
  else if inspection.completedPrecompileCallCount ≠ 1 then
    ⟨.unclassified, true,
      "replay does not contain exactly one locally completed precompile call", traceStatus⟩
  else if inspection.completedPrecompilePayloadMatchCount ≠ 1 then
    ⟨.unclassified, true,
      "completed precompile call does not authenticate the canonical receipt", traceStatus⟩
  else if inspection.failedMatchingPrecompilePathCount = 1 then
    ⟨.rollbackLeak, true, "", traceStatus⟩
  else ⟨.validSourceDebit, true, "", traceStatus⟩

end TraceInspection
