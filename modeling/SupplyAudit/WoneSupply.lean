import SupplyAudit.WoneEvents

/-!
# The holder total of WONE

`writeCSV` adds up the reconstructed balances and compares them with the total
supply. No balance is kept for the zero address, so a transfer moves the total
exactly when one of its two parties is the zero address.
-/

namespace WoneSupply

open ByteWords NumeralText HexText FallibleScan KeyedTable WoneEvents

/-! ## Writing the holders -/

/-- A token amount with its 18 decimals. -/
def formatToken (value : Int) : String :=
  let fraction := (toString (value.tmod (10 ^ 18))).toList
  toString (value.tdiv (10 ^ 18)) ++ "." ++
    String.ofList (List.replicate (18 - fraction.length) '0' ++ fraction)

structure HolderRow where
  address : String
  balanceAtto : String
  balance : String

/-- What `writeCSV` writes, and the total it returns. -/
structure Holders where
  rows : List HolderRow
  total : Int

variable (keccak256 : Bytes → Bytes)

/-- The body of the loop over the balances. -/
def addHolder (st : List Address × Int) (entry : Address × Int) :
    Except String (List Address × Int) :=
  if entry.2 < 0 then
    .error ("negative final balance for " ++ checksumHex keccak256 entry.1.data ++ ": " ++
      toString entry.2)
  else if entry.2 = 0 then .ok st
  else .ok (st.1 ++ [entry.1], st.2 + entry.2)

/-- `writeCSV` on the balances in the order in which the map serves them. -/
def writeCSV (balances : List (Address × Int)) (expectedTotal : Int) : Except String Holders := do
  let (addresses, total) ← balances.foldlM (addHolder keccak256) ([], 0)
  if total ≠ expectedTotal then
    .error ("event-derived holder total " ++ toString total ++ " does not equal expected total " ++
      toString expectedTotal)
  else
    let sorted := addresses.insertionSort fun a b => a.data ≤ b.data
    .ok
      { rows := sorted.map fun address =>
          let balance := (balances.lookup address).getD 0
          ⟨checksumHex keccak256 address.data, toString balance, formatToken balance⟩
        total := total }

variable {keccak256}

theorem addHolders_total {balances : List (Address × Int)} {st st' : List Address × Int}
    (h : balances.foldlM (addHolder keccak256) st = .ok st') :
    st'.2 = st.2 + total id balances := by
  induction balances generalizing st with
  | nil =>
    cases h
    exact (add_zero _).symm
  | cons entry rest ih =>
    rw [List.foldlM_cons, bind_eq_ok] at h
    obtain ⟨next, hnext, hrest⟩ := h
    have hcons : total id (entry :: rest) = entry.2 + total id rest := rfl
    rw [addHolder] at hnext
    split at hnext
    · cases hnext
    split at hnext
    · rename_i hzero
      cases hnext
      rw [ih hrest, hcons, hzero, zero_add]
    · cases hnext
      rw [ih hrest, hcons, add_assoc]

/-- The total that is published is that of all balances, and the expected one. -/
theorem writeCSV_total {balances : List (Address × Int)} {expectedTotal : Int} {holders : Holders}
    (h : writeCSV keccak256 balances expectedTotal = .ok holders) :
    holders.total = total id balances ∧ expectedTotal = total id balances := by
  rw [writeCSV, bind_eq_ok] at h
  obtain ⟨⟨addresses, sum⟩, hsum, h⟩ := h
  have htotal : sum = total id balances := (addHolders_total hsum).trans (zero_add _)
  simp only at h
  split at h
  · cases h
  · rename_i heq
    cases h
    exact ⟨htotal, (not_not.mp heq).symm.trans htotal⟩

/-! ## What an event adds to the total -/

def Deltas.total (deltas : Deltas) : Int := KeyedTable.total id deltas.entries

/-- What of an amount is kept for an address. -/
def kept (address : Address) (amount : Int) : Int := if address = zeroAddress then 0 else amount

def deposited : Event → Int
  | .deposit address amount => kept address amount
  | _ => 0

def withdrawn : Event → Int
  | .withdrawal address amount => kept address amount
  | _ => 0

/-- A transfer out of the zero address. -/
def appeared : Event → Int
  | .transfer source destination amount =>
    if source = zeroAddress then kept destination amount else 0
  | _ => 0

/-- A transfer into the zero address. -/
def vanished : Event → Int
  | .transfer source destination amount =>
    if destination = zeroAddress then kept source amount else 0
  | _ => 0

theorem total_addDelta (deltas : Deltas) (address : Address) (amount : Int) :
    Deltas.total (addDelta deltas address amount) = Deltas.total deltas + kept address amount := by
  rw [addDelta, kept]
  split
  · rename_i hskip
    rcases hskip with rfl | rfl
    · rw [if_pos rfl, add_zero]
    · rw [ite_self, add_zero]
  · rename_i hkeep
    rw [not_or] at hkeep
    rw [if_neg hkeep.1]
    have hupdate : KeyedTable.total id (update deltas.entries address 0 fun current =>
        current + amount) = KeyedTable.total id deltas.entries + amount :=
      total_update_add deltas.nodup address rfl fun _ => rfl
    exact hupdate

theorem kept_neg (address : Address) (amount : Int) : kept address (-amount) = -kept address amount := by
  rw [kept, kept]
  split <;> rfl

theorem total_record (r : Replay) (event : Event) :
    Deltas.total (r.record event).deltas = Deltas.total r.deltas +
      (deposited event - withdrawn event + appeared event - vanished event) := by
  cases event with
  | deposit address amount =>
    simp only [Replay.record, total_addDelta, deposited, withdrawn, appeared, vanished]
    omega
  | withdrawal address amount =>
    simp only [Replay.record, total_addDelta, kept_neg, deposited, withdrawn, appeared, vanished]
    omega
  | transfer source destination amount =>
    have hmoved : -kept source amount + kept destination amount =
        (if source = zeroAddress then kept destination amount else 0) -
          if destination = zeroAddress then kept source amount else 0 := by
      by_cases hs : source = zeroAddress <;> by_cases hd : destination = zeroAddress <;>
        simp [kept, hs, hd]
    simp only [Replay.record, total_addDelta, kept_neg, deposited, withdrawn, appeared, vanished]
    omega

/-- A transfer that has the zero address on neither side or on both keeps the total. -/
theorem total_transfer (r : Replay) {source destination : Address} (amount : Int)
    (h : source = zeroAddress ↔ destination = zeroAddress) :
    Deltas.total (r.record (.transfer source destination amount)).deltas =
      Deltas.total r.deltas := by
  rw [total_record]
  by_cases hs : source = zeroAddress
  · simp [deposited, withdrawn, appeared, vanished, kept, hs, h.mp hs]
  · have hd : destination ≠ zeroAddress := fun hd => hs (h.mpr hd)
    simp [deposited, withdrawn, appeared, vanished, hs, hd]

/-- What events add to the total. -/
def supplied (events : List Event) : Int :=
  (events.map deposited).sum - (events.map withdrawn).sum + (events.map appeared).sum -
    (events.map vanished).sum

theorem supplied_cons (event : Event) (rest : List Event) :
    supplied (event :: rest) =
      (deposited event - withdrawn event + appeared event - vanished event) + supplied rest := by
  simp only [supplied, List.map_cons, List.sum_cons]
  omega

theorem total_events (events : List Event) (r : Replay) :
    Deltas.total (events.foldl Replay.record r).deltas = Deltas.total r.deltas + supplied events := by
  induction events generalizing r with
  | nil => exact (add_zero _).symm
  | cons event rest ih => rw [List.foldl_cons, ih, total_record, supplied_cons, add_assoc]

theorem total_perm {entries entries' : List (Address × Int)} (h : entries.Perm entries') :
    total id entries = total id entries' :=
  (h.map fun entry : Address × Int => id entry.2).sum_eq

/-! ## Conservation -/

/-- The balances of replayed logs, and the total that is published for them in
whichever order the map serves them. -/
structure Conserved (keccak256 : Bytes → Bytes) (contract : Address) (logs : List RpcLog)
    (r : Replay) : Prop where
  balances : ∃ events, logs.mapM (checkLog contract) = .ok events ∧
    Deltas.total r.deltas = supplied events
  transfers : ∀ (before : Replay) (source destination : Address) (amount : Int),
    (source = zeroAddress ↔ destination = zeroAddress) →
      Deltas.total (before.record (.transfer source destination amount)).deltas =
        Deltas.total before.deltas
  published : ∀ balances, balances.Perm r.deltas.entries → ∀ expectedTotal holders,
    writeCSV keccak256 balances expectedTotal = .ok holders →
      holders.total = Deltas.total r.deltas ∧ expectedTotal = Deltas.total r.deltas

/-- Deposits less withdrawals, but for what passes through the zero address. -/
theorem replay_conserves (keccak256 : Bytes → Bytes) {contract : Address} {logs : List RpcLog}
    {r : Replay} (h : logs.foldlM (applyLog contract) {} = .ok r) :
    Conserved keccak256 contract logs r := by
  constructor
  case balances =>
    obtain ⟨events, hevents, rfl⟩ := applyLogs_ok.mp h
    exact ⟨events, hevents, (total_events events {}).trans (zero_add _)⟩
  case transfers => exact fun before _ _ amount hzero => total_transfer before amount hzero
  case published =>
    intro balances hperm expectedTotal holders hwritten
    obtain ⟨htotal, hexpected⟩ := writeCSV_total hwritten
    rw [total_perm hperm] at htotal hexpected
    exact ⟨htotal, hexpected⟩

/-! ## A deposit that is sent to the zero address -/

def sampleContract : Address := .fill 20 1

def sampleWord (digit : Char) : String :=
  String.ofList ('0' :: 'x' :: (List.replicate 63 '0' ++ [digit]))

def sampleLog (topics : List String) (amount : Char) : RpcLog where
  address := prefixedHex sampleContract.data
  topics := topics
  data := sampleWord amount
  blockNumber := "0x1"
  removed := false

/-- Five are deposited by address 2 and two of them sent to an address. -/
def sampleLogs (destination : Char) : List RpcLog :=
  [sampleLog [depositTopic, sampleWord '2'] '5',
    sampleLog [transferTopic, sampleWord '2', sampleWord destination] '2']

theorem replay_conserves_sample : ∃ r,
    (sampleLogs '3').foldlM (applyLog sampleContract) {} = .ok r ∧
      Conserved id sampleContract (sampleLogs '3') r := by
  obtain ⟨r, hr⟩ := exists_of_isOk
    (show ((sampleLogs '3').foldlM (applyLog sampleContract) {}).isOk = true by decide +kernel)
  exact ⟨r, hr, replay_conserves id hr⟩

/-- The amount of an event that is a deposit, whoever made it. -/
def depositAmount : Event → Int
  | .deposit _ amount => amount
  | _ => 0

def withdrawalAmount : Event → Int
  | .withdrawal _ amount => amount
  | _ => 0

/-- Sent to the zero address, an amount leaves the balances. -/
theorem transfer_to_zero_vanishes : ∃ r events,
    (sampleLogs '0').foldlM (applyLog sampleContract) {} = .ok r ∧
      (sampleLogs '0').mapM (checkLog sampleContract) = .ok events ∧
      Deltas.total r.deltas ≠
        (events.map depositAmount).sum - (events.map withdrawalAmount).sum := by
  have hread : (sampleLogs '0').mapM (checkLog sampleContract) =
      .ok [.deposit (FixedBytes.ofBytes 20 [2]) 5,
        .transfer (FixedBytes.ofBytes 20 [2]) zeroAddress 2] := by decide +kernel
  refine ⟨_, _, applyLogs_ok.mpr ⟨_, hread, rfl⟩, hread, ?_⟩
  decide +kernel

end WoneSupply
