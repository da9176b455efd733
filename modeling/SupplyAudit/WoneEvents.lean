import Mathlib.Data.UInt
import SupplyAudit.HexText
import SupplyAudit.KeyedSums
import SupplyAudit.FallibleScan

/-!
# WONE events

`applyLog` checks one event log of the token contract and adds its amounts to
the balances of the addresses it names. What a log adds does not depend on the
balances, so balances after any logs are sums over the logs.
-/

namespace WoneEvents

open ByteWords NumeralText FallibleScan KeyedTable

/-! ## Texts of the node -/

def hexDigit (c : Char) : Option Nat :=
  if '0' ≤ c ∧ c ≤ '9' then some (c.toNat - '0'.toNat)
  else if 'a' ≤ c ∧ c ≤ 'f' then some (c.toNat - 'a'.toNat + 10)
  else if 'A' ≤ c ∧ c ≤ 'F' then some (c.toNat - 'A'.toNat + 10)
  else none

/-- `hex.DecodeString` -/
def decodeHex : List Char → Option Bytes
  | [] => some []
  | [_] => none
  | high :: low :: rest => do
    let h ← hexDigit high
    let l ← hexDigit low
    let bytes ← decodeHex rest
    some (UInt8.ofNat (16 * h + l) :: bytes)

/-- The characters after `0x`. -/
def afterPrefix (value : String) : Option (List Char) :=
  match value.toList with
  | '0' :: 'x' :: raw => some raw
  | _ => none

def quoted (value : String) : String := "\"" ++ value ++ "\""

def parseHexBytes (value : String) : Except String Bytes :=
  match afterPrefix value with
  | none => .error "hex data lacks 0x prefix"
  | some raw =>
    if (String.ofList raw).utf8ByteSize % 2 ≠ 0 then .error "hex data has odd length"
    else match decodeHex raw with
      | none => .error "decode hex data: invalid byte"
      | some bytes => .ok bytes

/-- `strconv.ParseUint` in base 16. -/
def parseUint64Quantity (value : String) : Except String UInt64 :=
  match afterPrefix value with
  | none => .error ("quantity lacks 0x prefix: " ++ quoted value)
  | some raw =>
    match raw.mapM hexDigit with
    | some (digit :: digits) =>
      let n := (digit :: digits).foldl (fun acc d => 16 * acc + d) 0
      if n < 2 ^ 64 then .ok (UInt64.ofNat n)
      else .error ("strconv.ParseUint: parsing " ++ quoted (String.ofList raw) ++
        ": value out of range")
    | _ => .error ("strconv.ParseUint: parsing " ++ quoted (String.ofList raw) ++
      ": invalid syntax")

abbrev Address := FixedBytes 20

def zeroAddress : Address := .zero 20

def topicAddress (value : String) : Except String Address := do
  let decoded ← parseHexBytes value
  if decoded.length ≠ 32 then
    .error ("address topic has " ++ toString decoded.length ++ " bytes")
  else if (decoded.take 12).any (· ≠ 0) then
    .error "address topic has a nonzero high byte"
  else .ok (.ofBytes 20 (decoded.drop 12))

def logAmount (value : String) : Except String Int := do
  let decoded ← parseHexBytes value
  if decoded.length ≠ 32 then .error ("event data has " ++ toString decoded.length ++ " bytes")
  else .ok (ByteWords.toNat decoded)

/-! ## Logs -/

structure RpcLog where
  address : String
  topics : List String
  data : String
  blockNumber : String
  removed : Bool

def depositTopic : String :=
  "0xe1fffcc4923d04b559f4d29a8bfc6cda04eb5b0d3c460751c2402c5c5cc9109c"

def withdrawTopic : String :=
  "0x7fcf532c15f0a6db0bd6d0e038bea71d30d808c7d98cb3bf7268a95bf5081b65"

def transferTopic : String :=
  "0xddf252ad1be2c89b69c2b068fc378daa952ba7f163c4a11628f55a4df523b3ef"

inductive Event where
  | deposit (address : Address) (amount : Int)
  | withdrawal (address : Address) (amount : Int)
  | transfer (source destination : Address) (amount : Int)
  deriving DecidableEq

/-- An error of a part, after what was being done. -/
def context {α : Type} (text : String) : Except String α → Except String α
  | .error err => .error (text ++ ": " ++ err)
  | .ok a => .ok a

/-- The address of the only topic after the signature. -/
def decodeSingle (event address : String) (log : RpcLog) : Except String Address :=
  match log.topics with
  | [_, topic] => context ("decode " ++ address ++ " address") (topicAddress topic)
  | topics => .error (event ++ " event has " ++ toString topics.length ++ " topics")

def decodeTransfer (log : RpcLog) : Except String (Address × Address) :=
  match log.topics with
  | [_, sourceTopic, destinationTopic] => do
    let source ← context "decode transfer source" (topicAddress sourceTopic)
    let destination ← context "decode transfer destination" (topicAddress destinationTopic)
    .ok (source, destination)
  | topics => .error ("transfer event has " ++ toString topics.length ++ " topics")

/-- The event behind the signature of a log. -/
def decodeEvent (log : RpcLog) (signature : String) (amount : Int) : Except String Event :=
  if signature.toLower = depositTopic then do
    let address ← decodeSingle "deposit" "deposit" log
    .ok (.deposit address amount)
  else if signature.toLower = withdrawTopic then do
    let address ← decodeSingle "withdrawal" "withdrawal" log
    .ok (.withdrawal address amount)
  else if signature.toLower = transferTopic then do
    let parties ← decodeTransfer log
    .ok (.transfer parties.1 parties.2 amount)
  else .error ("unexpected event signature " ++ quoted signature)

/-- The checks of `applyLog`. Case folding against a hexadecimal address is that
of ASCII letters. -/
def checkLog (contract : Address) (log : RpcLog) : Except String Event :=
  if log.removed then .error "archival RPC returned a removed log"
  else if log.address.toLower ≠ prefixedHex contract.data then
    .error ("unexpected log address " ++ quoted log.address)
  else do
    let _ ← context "invalid log block number" (parseUint64Quantity log.blockNumber)
    match log.topics with
    | [] => .error "event log has no topics"
    | signature :: _ => do
      let amount ← context "decode event amount" (logAmount log.data)
      decodeEvent log signature amount

/-! ## Balances -/

/-- A map from addresses to amounts. -/
structure Deltas where
  entries : List (Address × Int) := []
  nodup : (entries.map Prod.fst).Nodup := by exact List.nodup_nil

def Deltas.at (deltas : Deltas) (address : Address) : Int := shareAt id deltas.entries address

/-- The entry of an address, which is made when there is none, plus an amount. -/
def Deltas.add (deltas : Deltas) (address : Address) (amount : Int) : Deltas :=
  ⟨update deltas.entries address 0 fun current => current + amount, nodup_update deltas.nodup _ _ _⟩

def addDelta (deltas : Deltas) (address : Address) (amount : Int) : Deltas :=
  if address = zeroAddress ∨ amount = 0 then deltas else deltas.add address amount

@[ext] structure EventCounts where
  deposits : UInt64 := 0
  withdrawals : UInt64 := 0
  transfers : UInt64 := 0
  deriving DecidableEq

namespace EventCounts

instance : Zero EventCounts := ⟨{}⟩

instance : Add EventCounts :=
  ⟨fun a b => ⟨a.deposits + b.deposits, a.withdrawals + b.withdrawals, a.transfers + b.transfers⟩⟩

instance : AddCommMonoid EventCounts where
  add_assoc a b c := EventCounts.ext (UInt64.add_assoc _ _ _) (UInt64.add_assoc _ _ _)
    (UInt64.add_assoc _ _ _)
  zero_add a := EventCounts.ext (UInt64.zero_add _) (UInt64.zero_add _) (UInt64.zero_add _)
  add_zero a := EventCounts.ext (UInt64.add_zero _) (UInt64.add_zero _) (UInt64.add_zero _)
  add_comm a b := EventCounts.ext (UInt64.add_comm _ _) (UInt64.add_comm _ _)
    (UInt64.add_comm _ _)
  nsmul := nsmulRec

end EventCounts

structure Replay where
  deltas : Deltas := {}
  counts : EventCounts := {}

def Event.counts : Event → EventCounts
  | .deposit _ _ => { deposits := 1 }
  | .withdrawal _ _ => { withdrawals := 1 }
  | .transfer _ _ _ => { transfers := 1 }

def Replay.record (r : Replay) (event : Event) : Replay where
  deltas :=
    match event with
    | .deposit address amount => addDelta r.deltas address amount
    | .withdrawal address amount => addDelta r.deltas address (-amount)
    | .transfer source destination amount =>
      addDelta (addDelta r.deltas source (-amount)) destination amount
  counts := r.counts + event.counts

def applyLog (contract : Address) (r : Replay) (log : RpcLog) : Except String Replay := do
  let event ← checkLog contract log
  .ok (r.record event)

/-! ## Sums over logs -/

/-- What an event adds to an address; the zero address holds nothing. -/
def Event.effect (event : Event) (address : Address) : Int :=
  if address = zeroAddress then 0
  else match event with
    | .deposit depositor amount => if address = depositor then amount else 0
    | .withdrawal source amount => if address = source then -amount else 0
    | .transfer source destination amount =>
      (if address = source then -amount else 0) + if address = destination then amount else 0

theorem Deltas.at_add (deltas : Deltas) (address : Address) (amount : Int) (a : Address) :
    (deltas.add address amount).at a = deltas.at a + if a = address then amount else 0 := by
  have hupdate : shareAt id (update deltas.entries address 0 fun current => current + amount) a =
      shareAt id deltas.entries a + if a = address then amount else 0 :=
    shareAt_update deltas.entries address rfl (fun _ => rfl) a
  exact hupdate

theorem at_addDelta (deltas : Deltas) (address : Address) (amount : Int) (a : Address) :
    (addDelta deltas address amount).at a =
      deltas.at a + if a = zeroAddress then 0 else if a = address then amount else 0 := by
  rw [addDelta]
  split
  · rename_i hskip
    rcases hskip with rfl | rfl
    · by_cases ha : a = zeroAddress
      · rw [if_pos ha, add_zero]
      · rw [if_neg ha, if_neg ha, add_zero]
    · simp
  · rename_i hkeep
    rw [not_or] at hkeep
    rw [Deltas.at_add]
    by_cases ha : a = zeroAddress
    · have hne : a ≠ address := fun heq => hkeep.1 (heq.symm.trans ha)
      rw [if_pos ha, if_neg hne]
    · rw [if_neg ha]

theorem at_record (r : Replay) (event : Event) (a : Address) :
    (r.record event).deltas.at a = r.deltas.at a + event.effect a := by
  by_cases ha : a = zeroAddress
  · cases event <;> simp [Replay.record, at_addDelta, Event.effect, ha]
  · cases event with
    | deposit address amount => simp [Replay.record, at_addDelta, Event.effect, ha]
    | withdrawal address amount => simp [Replay.record, at_addDelta, Event.effect, ha]
    | transfer source destination amount =>
      simp only [Replay.record, at_addDelta, Event.effect, if_neg ha]
      rw [add_assoc]

/-- Applying logs is checking them all and recording their events. -/
theorem applyLogs_ok {contract : Address} {logs : List RpcLog} {r r' : Replay} :
    logs.foldlM (applyLog contract) r = .ok r' ↔
      ∃ events, logs.mapM (checkLog contract) = .ok events ∧ r' = events.foldl Replay.record r := by
  have hstep : ∀ (s : Replay) (log : RpcLog),
      applyLog contract s log = (checkLog contract log).map s.record := by
    intro s log
    rw [applyLog]
    cases checkLog contract log with
    | error err => rfl
    | ok event => rfl
  rw [foldlM_eq_mapM hstep]
  cases logs.mapM (checkLog contract) with
  | error err => simp [Except.map]
  | ok events => simp [Except.map, eq_comm]

theorem at_events (events : List Event) (r : Replay) (a : Address) :
    (events.foldl Replay.record r).deltas.at a =
      r.deltas.at a + (events.map fun event => event.effect a).sum :=
  foldl_total (fun s : Replay => s.deltas.at a) (fun s event => at_record s event a) events r

theorem counts_events (events : List Event) (r : Replay) :
    (events.foldl Replay.record r).counts = r.counts + (events.map Event.counts).sum :=
  foldl_total Replay.counts (fun _ _ => rfl) events r

end WoneEvents
