import SupplyAudit.ChunkedScan
import SupplyAudit.IntervalAudit

/-!
# The rows of the interval audit

Besides its counters the audit of an interval writes a row for every block that
changed something and for every transaction, and a digest of the headers. All of
it is made block by block, with the previous block carried along, so it does not
matter where one fetched chunk ends and the next begins.
-/

namespace IntervalRows

open ScriptValues FallibleScan AuditFiles IntervalAudit ChunkedScan

/-- The language's `json.dumps` and SHA-256 next to its texts. -/
structure IntervalText extends PyText where
  dumps : Transaction → String
  sha256 : String → String

/-! ## Rows -/

structure MaterialRow where
  shard : Int
  number : Int
  hash : String
  parentHash : String
  timestamp : Int
  stateRoot : String
  transactionsRoot : String
  receiptsRoot : String
  outgoingReceiptsRoot : String
  incomingReceiptsRoot : String
  gasUsed : Int
  transactionCount : Nat
  stakingTransactionCount : Nat
  stateRootChanged : String
  deriving DecidableEq

structure TransactionRow where
  shard : Int
  blockNumber : Value
  blockHash : String
  timestamp : Value
  kind : String
  index : Nat
  transactionHash : Value
  sender : Value
  recipient : Value
  fromShard : Value
  toShard : Value
  value : Value
  nonce : Value
  transactionJson : String
  deriving DecidableEq

variable (txt : IntervalText)

/-- `write_transaction` -/
def transactionRow (shard : Int) (block : Block) (kind : String) (numbered : Transaction × Nat) :
    TransactionRow where
  shard := shard
  blockNumber := block.number
  blockHash := block.hash
  timestamp := block.timestamp
  kind := kind
  index := numbered.2
  transactionHash := transactionValue numbered.1 ["hash", "transactionHash"]
  sender := transactionValue numbered.1 ["from"]
  recipient := transactionValue numbered.1 ["to"]
  fromShard := transactionValue numbered.1 ["shardID", "fromShard"]
  toShard := transactionValue numbered.1 ["toShardID", "toShard"]
  value := transactionValue numbered.1 ["value", "amount"]
  nonce := transactionValue numbered.1 ["nonce"]
  transactionJson := txt.dumps numbered.1

def transactionRows (shard : Int) (block : Block) : List TransactionRow :=
  block.transactions.zipIdx.map (transactionRow txt shard block "regular") ++
    block.stakingTransactions.zipIdx.map (transactionRow txt shard block "staking")

def isMaterial (py : PyText) (block : Block) (stateChanged : Bool) (gasUsed : Int) : Bool :=
  stateChanged || !block.transactions.isEmpty || !block.stakingTransactions.isEmpty ||
    gasUsed ≠ 0 || nonemptyRoot py block.receiptsRoot || nonemptyRoot py block.outgoingReceiptsRoot ||
    nonemptyRoot py block.incomingReceiptsRoot

def materialRow (shard number timestamp : Int) (block : Block) (stateChanged : Bool)
    (gasUsed : Int) : MaterialRow where
  shard := shard
  number := number
  hash := block.hash
  parentHash := block.parentHash
  timestamp := timestamp
  stateRoot := block.stateRoot
  transactionsRoot := block.transactionsRoot.getD ""
  receiptsRoot := block.receiptsRoot.getD ""
  outgoingReceiptsRoot := block.outgoingReceiptsRoot.getD ""
  incomingReceiptsRoot := block.incomingReceiptsRoot.getD ""
  gasUsed := gasUsed
  transactionCount := block.transactions.length
  stakingTransactionCount := block.stakingTransactions.length
  stateRootChanged := if stateChanged then "true" else "false"

/-- What the header digest takes in for a block. -/
def headerLine (py : PyText) (number timestamp : Int) (block : Block) : String :=
  toString number ++ "|" ++ py.lower block.hash ++ "|" ++ py.lower block.parentHash ++ "|" ++
    toString timestamp ++ "|" ++ py.lower block.stateRoot ++ "|" ++
    py.lower (block.transactionsRoot.getD "") ++ "|" ++ py.lower (block.receiptsRoot.getD "") ++ "\n"

/-! ## The run -/

structure RowState where
  audit : AuditState
  material : List MaterialRow := []
  transactions : List TransactionRow := []
  headers : String := ""
  distinctRoots : List String

/-- The body of the loop over the blocks of a chunk, with the rows. -/
def writeBlock (shard : Int) (st : RowState) (block : Block) : Except AuditError RowState := do
  let next ← auditBlock txt.toPyText st.audit block
  let number ← block.number.int txt.toPyText
  let timestamp ← block.timestamp.int txt.toPyText
  let gasUsed ← block.gas txt.toPyText
  let stateChanged := decide (txt.lower block.stateRoot ≠ txt.lower st.audit.previousRoot)
  .ok
    { audit := next
      material := if isMaterial txt.toPyText block stateChanged gasUsed then
          st.material ++ [materialRow shard number timestamp block stateChanged gasUsed]
        else st.material
      transactions := st.transactions ++ transactionRows txt shard block
      headers := st.headers ++ headerLine txt.toPyText number timestamp block
      distinctRoots := st.distinctRoots.insert block.stateRoot }

def shortRange (first last : Int) (count : Nat) : AuditError :=
  .runtimeError ("range " ++ toString first ++ ".." ++ toString last ++ " returned " ++
    toString count ++ " blocks")

structure Outcome where
  summary : Summary
  material : List MaterialRow
  transactions : List TransactionRow
  firstHash : String
  lastHash : String
  lastStateRoot : String
  lastTimestamp : Int
  distinctStateRoots : Nat
  canonicalHeaderDigest : String

def main (node : Node) (args : Args) : Except AuditError Outcome := do
  require (args.shard = 0 ∨ args.shard = 1) (.valueError "shard must be 0 or 1")
  require (0 < args.start ∧ args.start ≤ args.stop) (.valueError "invalid block range")
  require (1 ≤ args.chunkSize ∧ args.chunkSize ≤ 1024)
    (.valueError "chunk size must be between 1 and 1024")
  require (args.outputsFree = true) (.fileExists "output")
  let predecessor ← node.getBlockByNumber (args.start - 1)
  let timestamp ← predecessor.timestamp.int txt.toPyText
  let last ← scan node.getBlocks shortRange (writeBlock txt args.shard)
    (fun st => st.audit.nextNumber) args.stop args.chunkSize (args.stop - args.start + 1).toNat
    { audit :=
        { nextNumber := args.start
          expectedParent := predecessor.hash
          previousRoot := predecessor.stateRoot
          previousTimestamp := timestamp
          summary :=
            { shard := args.shard, start := args.start, stop := args.stop
              predecessorHash := predecessor.hash
              predecessorStateRoot := predecessor.stateRoot } }
      distinctRoots := [predecessor.stateRoot] }
  let first ← node.getBlockByNumber args.start
  .ok
    { summary := last.audit.summary
      material := last.material
      transactions := last.transactions
      firstHash := first.hash
      lastHash := last.audit.expectedParent
      lastStateRoot := last.audit.previousRoot
      lastTimestamp := last.audit.previousTimestamp
      distinctStateRoots := last.distinctRoots.length
      canonicalHeaderDigest := txt.sha256 last.headers }

/-! ## Served histories -/

/-- A block as the node serves it, with what its numeric fields and those of its transactions
read as. -/
structure ServedBlock (py : PyText) where
  block : Block
  number : Int
  timestamp : Int
  gas : Int
  crossed : List Bool
  number_eq : block.number.int py = .ok number
  timestamp_eq : block.timestamp.int py = .ok timestamp
  gas_eq : block.gas py = .ok gas
  crossed_eq : block.transactions.mapM (crossShard py) = .ok crossed

abbrev History (py : PyText) := Nat → Option (ServedBlock py)

variable {txt}

/-- The block at a number; none has a negative one. -/
def blockAt (history : History txt.toPyText) (n : Int) : Option (ServedBlock txt.toPyText) :=
  if 0 ≤ n then history n.toNat else none

def entryAt (history : History txt.toPyText) (n : Int) : Option Block :=
  (blockAt history n).map ServedBlock.block

/-- Every answer of the node is that of the history. -/
structure ServesHistory (node : Node) (history : History txt.toPyText) : Prop where
  one : ∀ n, (node.getBlockByNumber n).toOption = entryAt history n
  ranges : ChunkedScan.Serves node.getBlocks (entryAt history)

/-- The block at this number is there, says so, and follows the one before. -/
def LinkedAt (history : History txt.toPyText) (n : Int) : Prop :=
  ∃ before b, blockAt history (n - 1) = some before ∧ blockAt history n = some b ∧ b.number = n ∧
    txt.lower b.block.parentHash = txt.lower before.block.hash ∧ before.timestamp ≤ b.timestamp

/-- The block changes the state, has a transaction or gas, or has a root of receipts. -/
def Material (before b : ServedBlock txt.toPyText) : Prop :=
  txt.lower b.block.stateRoot ≠ txt.lower before.block.stateRoot ∨ b.block.transactions ≠ [] ∨
    b.block.stakingTransactions ≠ [] ∨ b.gas ≠ 0 ∨
    nonemptyRoot txt.toPyText b.block.receiptsRoot ∨
    nonemptyRoot txt.toPyText b.block.outgoingReceiptsRoot ∨
    nonemptyRoot txt.toPyText b.block.incomingReceiptsRoot

variable {history : History txt.toPyText} {shard : Int}

theorem isMaterial_iff {before b : ServedBlock txt.toPyText} :
    isMaterial txt.toPyText b.block
        (decide (txt.lower b.block.stateRoot ≠ txt.lower before.block.stateRoot)) b.gas = true ↔
      Material before b := by
  simp only [isMaterial, Material, Bool.or_eq_true, decide_eq_true_eq, Bool.not_eq_true',
    List.isEmpty_eq_false_iff, or_assoc]

/-! ## One block -/

theorem auditBlock_served {b : ServedBlock txt.toPyText} {st next : AuditState} :
    auditBlock txt.toPyText st b.block = .ok next ↔
      b.number = st.nextNumber ∧ txt.lower b.block.parentHash = txt.lower st.expectedParent ∧
        st.previousTimestamp ≤ b.timestamp ∧
        next =
          { nextNumber := st.nextNumber + 1
            expectedParent := b.block.hash
            previousRoot := b.block.stateRoot
            previousTimestamp := b.timestamp
            summary := st.summary.add txt.toPyText b.block
              (txt.lower b.block.stateRoot ≠ txt.lower st.previousRoot) b.gas
              (b.crossed.count true) } := by
  simp only [auditBlock, b.number_eq, b.timestamp_eq, b.gas_eq, b.crossed_eq, bind_ok, bind_eq_ok,
    require_ok, Except.ok.injEq]
  constructor
  · rintro ⟨u, hnumber, v, hparent, w, htimestamp, rfl⟩
    exact ⟨hnumber, hparent, htimestamp, rfl⟩
  · rintro ⟨hnumber, hparent, htimestamp, rfl⟩
    exact ⟨(), hnumber, (), hparent, (), htimestamp, rfl⟩

/-- What one block adds to the rows. -/
def RowState.write (txt : IntervalText) (shard : Int) (st : RowState) (next : AuditState)
    (b : ServedBlock txt.toPyText) : RowState :=
  let stateChanged := decide (txt.lower b.block.stateRoot ≠ txt.lower st.audit.previousRoot)
  { audit := next
    material := if isMaterial txt.toPyText b.block stateChanged b.gas then
        st.material ++ [materialRow shard b.number b.timestamp b.block stateChanged b.gas]
      else st.material
    transactions := st.transactions ++ transactionRows txt shard b.block
    headers := st.headers ++ headerLine txt.toPyText b.number b.timestamp b.block
    distinctRoots := st.distinctRoots.insert b.block.stateRoot }

theorem writeBlock_served {b : ServedBlock txt.toPyText} {st next : RowState} :
    writeBlock txt shard st b.block = .ok next ↔
      ∃ audit, auditBlock txt.toPyText st.audit b.block = .ok audit ∧
        next = st.write txt shard audit b := by
  simp only [writeBlock, bind_eq_ok, b.number_eq, b.timestamp_eq, b.gas_eq, bind_ok,
    Except.ok.injEq]
  constructor
  · rintro ⟨audit, haudit, rfl⟩
    exact ⟨audit, haudit, rfl⟩
  · rintro ⟨audit, haudit, rfl⟩
    exact ⟨audit, haudit, rfl⟩

theorem advances_writeBlock :
    Advances (writeBlock txt shard) fun st => st.audit.nextNumber := by
  intro st block next h
  simp only [writeBlock, bind_eq_ok] at h
  obtain ⟨audit, haudit, number, -, timestamp, -, gasUsed, -, h⟩ := h
  cases h
  exact (auditBlock_ok haudit).1

/-- The state carries the block before the next one. -/
def Tracks (history : History txt.toPyText) (st : AuditState) : Prop :=
  ∃ before, blockAt history (st.nextNumber - 1) = some before ∧
    st.expectedParent = before.block.hash ∧ st.previousRoot = before.block.stateRoot ∧
    st.previousTimestamp = before.timestamp

/-- A served block is taken exactly when it is linked to the one before. -/
theorem writeBlock_ok_iff {b : ServedBlock txt.toPyText} {st : RowState}
    (htracks : Tracks history st.audit) (hb : blockAt history st.audit.nextNumber = some b) :
    (∃ next, writeBlock txt shard st b.block = .ok next) ↔
      LinkedAt history st.audit.nextNumber := by
  obtain ⟨before, hbefore, hparent, -, htimestamp⟩ := htracks
  simp only [writeBlock_served, auditBlock_served, hparent, htimestamp]
  constructor
  · rintro ⟨next, audit, ⟨hnumber, hlink, hle, -⟩, -⟩
    exact ⟨before, b, hbefore, hb, hnumber, hlink, hle⟩
  · rintro ⟨before', b', hbefore', hb', hnumber, hlink, hle⟩
    rw [hbefore, Option.some.injEq] at hbefore'
    rw [hb, Option.some.injEq] at hb'
    subst hbefore' hb'
    exact ⟨_, _, ⟨hnumber, hlink, hle, rfl⟩, rfl⟩

theorem tracks_next {b : ServedBlock txt.toPyText} {st next : RowState}
    (hb : blockAt history st.audit.nextNumber = some b)
    (h : writeBlock txt shard st b.block = .ok next) : Tracks history next.audit := by
  obtain ⟨audit, haudit, rfl⟩ := writeBlock_served.mp h
  obtain ⟨-, -, -, rfl⟩ := auditBlock_served.mp haudit
  refine ⟨b, ?_, rfl, rfl, rfl⟩
  change blockAt history (st.audit.nextNumber + 1 - 1) = some b
  rwa [Int.add_sub_cancel]

/-! ## Whole intervals -/

theorem exists_served {n : Int} {block : Block} (h : entryAt history n = some block) :
    ∃ b, blockAt history n = some b ∧ b.block = block :=
  Option.map_eq_some_iff.mp h

/-- A stretch of the history is taken exactly when each of its blocks is linked. -/
theorem whole_isSome_iff (count : Nat) {st : RowState} (htracks : Tracks history st.audit) :
    (whole (entryAt history) (writeBlock txt shard) st.audit.nextNumber count st).isSome ↔
      ∀ n, st.audit.nextNumber ≤ n → n < st.audit.nextNumber + count → LinkedAt history n := by
  induction count generalizing st with
  | zero =>
    simp only [whole, stretch]
    refine iff_of_true rfl fun n hn hlt => absurd hlt (by omega)
  | succ count ih =>
    rw [whole_succ]
    cases hentry : entryAt history st.audit.nextNumber with
    | none =>
      have hnone : blockAt history st.audit.nextNumber = none := Option.map_eq_none_iff.mp hentry
      refine iff_of_false (fun h => by cases h) fun h => ?_
      obtain ⟨before, b, -, hb, -⟩ := h st.audit.nextNumber (le_refl _) (by omega)
      rw [hnone] at hb
      cases hb
    | some block =>
      obtain ⟨b, hb, rfl⟩ := exists_served hentry
      have hok := @writeBlock_ok_iff txt history shard b st htracks hb
      simp only [Option.bind_some]
      cases hrun : writeBlock txt shard st b.block with
      | error e =>
        refine iff_of_false (fun h => by cases h) fun h => ?_
        obtain ⟨next, hnext⟩ := hok.mpr (h _ (le_refl _) (by omega))
        rw [hrun] at hnext
        cases hnext
      | ok next =>
        have hnumber : next.audit.nextNumber = st.audit.nextNumber + 1 :=
          advances_writeBlock st b.block next hrun
        have hlinked := hok.mp ⟨next, hrun⟩
        have hrest := ih (tracks_next hb hrun)
        rw [hnumber] at hrest
        change (whole (entryAt history) (writeBlock txt shard) (st.audit.nextNumber + 1) count
          next).isSome ↔ _
        rw [hrest]
        constructor
        · intro h n hn hlt
          by_cases hfirst : n = st.audit.nextNumber
          · exact hfirst ▸ hlinked
          · exact h n (by omega) (by omega)
        · intro h n hn hlt
          exact h n (by omega) (by omega)

/-- The material rows of a block. -/
def expectedRows (history : History txt.toPyText) (shard n : Int) : List MaterialRow :=
  match blockAt history (n - 1), blockAt history n with
  | some before, some b =>
    let stateChanged := decide (txt.lower b.block.stateRoot ≠ txt.lower before.block.stateRoot)
    if isMaterial txt.toPyText b.block stateChanged b.gas then
      [materialRow shard n b.timestamp b.block stateChanged b.gas]
    else []
  | _, _ => []

/-- The rows so far: one for each material block since the start, and no other. -/
structure Recorded (history : History txt.toPyText) (shard start n : Int) (st : RowState) :
    Prop where
  at_next : st.audit.nextNumber = n
  tracks : Tracks history st.audit
  rows : ∀ k, st.material.filter (fun row => row.number = k) =
    if start ≤ k ∧ k < n then expectedRows history shard k else []

theorem number_expectedRows {n : Int} {row : MaterialRow}
    (h : row ∈ expectedRows history shard n) : row.number = n := by
  unfold expectedRows at h
  cases hbefore : blockAt history (n - 1) with
  | none => simp [hbefore] at h
  | some before =>
    cases hb : blockAt history n with
    | none => simp [hbefore, hb] at h
    | some b =>
      simp only [hbefore, hb] at h
      split at h
      · rw [List.mem_singleton] at h
        rw [h]
        rfl
      · cases h

/-- A block adds its own rows. -/
theorem material_writeBlock {b : ServedBlock txt.toPyText} {st next : RowState}
    (htracks : Tracks history st.audit) (hb : blockAt history st.audit.nextNumber = some b)
    (h : writeBlock txt shard st b.block = .ok next) :
    next.material = st.material ++ expectedRows history shard st.audit.nextNumber := by
  obtain ⟨before, hbefore, -, hroot, -⟩ := htracks
  obtain ⟨audit, haudit, rfl⟩ := writeBlock_served.mp h
  obtain ⟨hnumber, -⟩ := auditBlock_served.mp haudit
  simp only [RowState.write, expectedRows, hbefore, hb, hroot, hnumber]
  split
  · rfl
  · rw [List.append_nil]

theorem Recorded.step {start n : Int} {st next : RowState} {block : Block}
    (hrec : Recorded history shard start n st) (hstart : start ≤ n)
    (hentry : entryAt history n = some block) (h : writeBlock txt shard st block = .ok next) :
    Recorded history shard start (n + 1) next := by
  obtain ⟨b, hb, rfl⟩ := exists_served hentry
  obtain ⟨rfl, htracks, hrows⟩ := hrec
  constructor
  case at_next => exact advances_writeBlock st b.block next h
  case tracks => exact tracks_next hb h
  case rows =>
    intro k
    rw [material_writeBlock htracks hb h, List.filter_append, hrows k]
    by_cases hk : k = st.audit.nextNumber
    · -- the rows of this block are the first with its number
      subst hk
      rw [if_neg (by omega), if_pos (by omega), List.nil_append, List.filter_eq_self]
      intro row hrow
      exact decide_eq_true (number_expectedRows hrow)
    · have hnone : (expectedRows history shard st.audit.nextNumber).filter
          (fun row => row.number = k) = [] := by
        rw [List.filter_eq_nil_iff]
        intro row hrow heq
        exact hk ((of_decide_eq_true heq).symm.trans (number_expectedRows hrow))
      rw [hnone, List.append_nil]
      by_cases hin : start ≤ k ∧ k < st.audit.nextNumber
      · rw [if_pos hin, if_pos ⟨hin.1, by omega⟩]
      · rw [if_neg hin, if_neg (by omega)]

/-- Where the loop over the blocks starts. -/
def startState (args : Args) (before : ServedBlock txt.toPyText) : RowState where
  audit :=
    { nextNumber := args.start
      expectedParent := before.block.hash
      previousRoot := before.block.stateRoot
      previousTimestamp := before.timestamp
      summary :=
        { shard := args.shard, start := args.start, stop := args.stop
          predecessorHash := before.block.hash
          predecessorStateRoot := before.block.stateRoot } }
  distinctRoots := [before.block.stateRoot]

def RowState.outcome (txt : IntervalText) (last : RowState) (first : Block) : Outcome where
  summary := last.audit.summary
  material := last.material
  transactions := last.transactions
  firstHash := first.hash
  lastHash := last.audit.expectedParent
  lastStateRoot := last.audit.previousRoot
  lastTimestamp := last.audit.previousTimestamp
  distinctStateRoots := last.distinctRoots.length
  canonicalHeaderDigest := txt.sha256 last.headers

variable {node : Node} {args : Args}

theorem tracks_start {before : ServedBlock txt.toPyText}
    (h : blockAt history (args.start - 1) = some before) :
    Tracks history (startState args before).audit :=
  ⟨before, h, rfl, rfl, rfl⟩

/-- What is asked of the arguments before the first block is read. -/
structure Accepted (args : Args) : Prop where
  shard : args.shard = 0 ∨ args.shard = 1
  range : 0 < args.start ∧ args.start ≤ args.stop
  size : 1 ≤ args.chunkSize ∧ args.chunkSize ≤ 1024
  outputs : args.outputsFree = true

theorem scan_history (hserves : ServesHistory node history) {size stop : Int} (hsize : 1 ≤ size)
    {fuel : Nat} {st : RowState} (hfuel : (stop - st.audit.nextNumber + 1).toNat ≤ fuel) :
    (scan node.getBlocks shortRange (writeBlock txt shard) (fun st => st.audit.nextNumber) stop
        size fuel st).toOption =
      whole (entryAt history) (writeBlock txt shard) st.audit.nextNumber
        (stop - st.audit.nextNumber + 1).toNat st :=
  scan_toOption hserves.ranges advances_writeBlock hsize hfuel

/-- A run reads one block after the other; the size of its chunks does not appear. -/
theorem main_toOption (hserves : ServesHistory node history) (hargs : Accepted args) :
    (main txt node args).toOption =
      (blockAt history (args.start - 1)).bind fun before =>
        (whole (entryAt history) (writeBlock txt args.shard) args.start
          (args.stop - args.start + 1).toNat (startState args before)).bind fun last =>
            (entryAt history args.start).map (last.outcome txt) := by
  unfold main
  rw [require_of hargs.shard, require_of hargs.range, require_of hargs.size,
    require_of hargs.outputs]
  simp only [bind_ok]
  rw [toOption_bind, hserves.one]
  cases hbefore : blockAt history (args.start - 1) with
  | none => simp [entryAt, hbefore]
  | some before =>
    have hscan : (scan node.getBlocks shortRange (writeBlock txt args.shard)
        (fun st => st.audit.nextNumber) args.stop args.chunkSize
        (args.stop - args.start + 1).toNat (startState args before)).toOption = _ :=
      scan_history hserves hargs.size.1 (le_refl _)
    have hentry : entryAt history (args.start - 1) = some before.block := by
      rw [entryAt, hbefore, Option.map_some]
    rw [hentry, Option.bind_some, Option.bind_some, before.timestamp_eq, bind_ok, toOption_bind]
    change ((scan node.getBlocks shortRange (writeBlock txt args.shard)
      (fun st => st.audit.nextNumber) args.stop args.chunkSize
      (args.stop - args.start + 1).toNat (startState args before)).toOption.bind _) = _
    rw [hscan]
    apply congrArg (Option.bind _)
    funext last
    rw [toOption_bind, hserves.one]
    cases entryAt history args.start with
    | none => rfl
    | some first => rfl

/-- A run succeeds exactly when every block of the interval is linked. -/
theorem main_isSome_iff (hserves : ServesHistory node history) (hargs : Accepted args) :
    (main txt node args).toOption.isSome ↔
      ∀ n, args.start ≤ n → n ≤ args.stop → LinkedAt history n := by
  have hrange := hargs.range
  rw [main_toOption hserves hargs]
  cases hbefore : blockAt history (args.start - 1) with
  | none =>
    refine iff_of_false (fun h => by cases h) fun h => ?_
    obtain ⟨before, b, hsome, -⟩ := h args.start (le_refl _) hrange.2
    rw [hbefore] at hsome
    cases hsome
  | some before =>
    have hwhole := @whole_isSome_iff txt history args.shard (args.stop - args.start + 1).toNat _
      (tracks_start hbefore)
    have hcount : ∀ n, n < args.start + (args.stop - args.start + 1).toNat ↔ n ≤ args.stop := by
      omega
    change (whole (entryAt history) (writeBlock txt args.shard) args.start _ _).isSome ↔
      ∀ n, args.start ≤ n → n < args.start + _ → _ at hwhole
    simp only [hcount] at hwhole
    rw [← hwhole, Option.bind_some]
    cases hlast : whole (entryAt history) (writeBlock txt args.shard) args.start
        (args.stop - args.start + 1).toNat (startState args before) with
    | none => simp
    | some last =>
      rw [hlast] at hwhole
      obtain ⟨before', b, -, hb, -⟩ := hwhole.mp rfl args.start (le_refl _) hrange.2
      simp [entryAt, hb]

/-- The material rows of a completed run, number by number. -/
theorem rows_of_main {out : Outcome} (hserves : ServesHistory node history)
    (hargs : Accepted args) (h : main txt node args = .ok out) (n : Int) :
    out.material.filter (fun row => row.number = n) =
      if args.start ≤ n ∧ n ≤ args.stop then expectedRows history args.shard n else [] := by
  have hrange := hargs.range
  have hout := main_toOption hserves hargs
  rw [h] at hout
  obtain ⟨before, hbefore, hrest⟩ := Option.bind_eq_some_iff.mp hout.symm
  obtain ⟨last, hlast, hfirst⟩ := Option.bind_eq_some_iff.mp hrest
  obtain ⟨first, -, rfl⟩ := Option.map_eq_some_iff.mp hfirst
  have hstart : args.start ≤ args.start ∧
      Recorded history args.shard args.start args.start (startState args before) := by
    refine ⟨le_refl _, rfl, tracks_start hbefore, fun k => ?_⟩
    rw [if_neg (by omega)]
    rfl
  obtain ⟨-, hrecorded⟩ := whole_invariant
    (fun n st => args.start ≤ n ∧ Recorded history args.shard args.start n st)
    (fun n st b next hinv hentry hstep =>
      ⟨by omega, hinv.2.step hinv.1 hentry hstep⟩) hstart hlast
  have hcount : n < args.start + (args.stop - args.start + 1).toNat ↔ n ≤ args.stop := by
    omega
  exact (hrecorded.rows n).trans (if_congr (and_congr Iff.rfl hcount) rfl rfl)

/-! ## The counters alone -/

theorem audit_foldlM {blocks : List Block} {st next : RowState}
    (h : blocks.foldlM (writeBlock txt shard) st = .ok next) :
    blocks.foldlM (auditBlock txt.toPyText) st.audit = .ok next.audit := by
  induction blocks generalizing st with
  | nil =>
    cases h
    rfl
  | cons block blocks ih =>
    rw [List.foldlM_cons, bind_eq_ok] at h ⊢
    obtain ⟨middle, hblock, hrest⟩ := h
    simp only [writeBlock, bind_eq_ok] at hblock
    obtain ⟨audit, haudit, number, -, timestamp, -, gasUsed, -, hmiddle⟩ := hblock
    cases hmiddle
    exact ⟨audit, haudit, ih hrest⟩

theorem audit_scan {fuel : Nat} {st last : RowState}
    (h : scan node.getBlocks shortRange (writeBlock txt shard) (fun st => st.audit.nextNumber)
      args.stop args.chunkSize fuel st = .ok last) :
    auditChunks txt.toPyText node args fuel st.audit = .ok last.audit := by
  induction fuel generalizing st with
  | zero =>
    cases h
    rfl
  | succ fuel ih =>
    rw [scan] at h
    rw [auditChunks]
    by_cases hmore : st.audit.nextNumber ≤ args.stop
    · rw [if_pos hmore, bind_eq_ok] at h
      rw [if_pos hmore]
      obtain ⟨blocks, hblocks, h⟩ := h
      by_cases hlength : (blocks.length : Int) =
          min args.stop (st.audit.nextNumber + args.chunkSize - 1) - st.audit.nextNumber + 1
      · rw [if_pos hlength, bind_eq_ok] at h
        obtain ⟨next, hnext, hrest⟩ := h
        simp only [hblocks, bind_ok, require_of hlength, audit_foldlM hnext]
        exact ih hrest
      · rw [if_neg hlength] at h
        cases h
    · rw [if_neg hmore] at h ⊢
      cases h
      rfl

/-- The counters are those of the audit without rows. -/
theorem summary_of_main {out : Outcome} (h : main txt node args = .ok out) :
    IntervalAudit.main txt.toPyText node args = .ok out.summary := by
  simp only [main, bind_eq_ok, require_ok] at h
  obtain ⟨u, hshard, v, hrange, w, hsize, x, hfree, predecessor, hpredecessor, timestamp,
    htimestamp, last, hlast, first, hfirst, hout⟩ := h
  cases hout
  unfold IntervalAudit.main
  rw [require_of hshard, require_of hrange, require_of hsize, require_of hfree]
  simp only [bind_ok, hpredecessor, htimestamp, hfirst]
  rw [audit_scan hlast]
  rfl

/-! ## Two chunk sizes -/

/-- No block comes before the first one: an audit from there is refused. -/
theorem main_refused (hstart : ¬ 0 < args.start) (size : Int) (out : Outcome) :
    main txt node { args with chunkSize := size } ≠ .ok out := by
  intro h
  simp only [main, bind_eq_ok, require_ok] at h
  obtain ⟨u, -, v, hpositive, -⟩ := h
  exact hstart hpositive.1

/-- A run with an accepted chunk size succeeds exactly on linked blocks. -/
theorem main_ok_iff_linked (hserves : ServesHistory node history) {size : Int}
    (hargs : Accepted { args with chunkSize := size }) :
    (∃ out, main txt node { args with chunkSize := size } = .ok out) ↔
      ∀ n, args.start ≤ n → n ≤ args.stop → LinkedAt history n := by
  rw [← main_isSome_iff hserves hargs]
  cases main txt node { args with chunkSize := size } with
  | error e => simp [Except.toOption]
  | ok out => simp [Except.toOption]

/-- Two chunk sizes fail together or give the same rows, counters and digest; they succeed exactly
on linked blocks, and a material block then has one row and no other block has any. -/
theorem chunk_size_immaterial (hserves : ServesHistory node history)
    (hshard : args.shard = 0 ∨ args.shard = 1) (hfree : args.outputsFree = true)
    (hrange : args.start ≤ args.stop) {j k : Int} (hj : 1 ≤ j ∧ j ≤ 1024)
    (hk : 1 ≤ k ∧ k ≤ 1024) :
    (main txt node { args with chunkSize := j }).toOption =
        (main txt node { args with chunkSize := k }).toOption ∧
      ((∃ out, main txt node { args with chunkSize := j } = .ok out) ↔
        ∀ n, args.start ≤ n → n ≤ args.stop → LinkedAt history n) ∧
      ∀ out, main txt node { args with chunkSize := j } = .ok out →
        ∀ n, args.start ≤ n → n ≤ args.stop → ∃ before b,
          blockAt history (n - 1) = some before ∧ blockAt history n = some b ∧
            (Material before b →
              ∃ row, out.material.filter (fun row => row.number = n) = [row]) ∧
            (¬ Material before b → out.material.filter (fun row => row.number = n) = []) := by
  by_cases hstart : 0 < args.start
  · have hargs : ∀ {size : Int}, 1 ≤ size ∧ size ≤ 1024 →
        Accepted { args with chunkSize := size } :=
      fun hsize => ⟨hshard, ⟨hstart, hrange⟩, hsize, hfree⟩
    have hok := main_ok_iff_linked hserves (hargs hj)
    refine ⟨?_, hok, ?_⟩
    · rw [main_toOption hserves (hargs hj), main_toOption hserves (hargs hk)]
      rfl
    · intro out hout n hn hle
      obtain ⟨before, b, hbefore, hb, hnumber, -, -⟩ := hok.mp ⟨out, hout⟩ n hn hle
      refine ⟨before, b, hbefore, hb, ?_⟩
      rw [rows_of_main hserves (hargs hj) hout n, if_pos ⟨hn, hle⟩, ← isMaterial_iff]
      simp only [expectedRows, hbefore, hb]
      split
      · exact ⟨fun _ => ⟨_, rfl⟩, fun hnot => absurd ‹_› hnot⟩
      · exact ⟨fun h => absurd h ‹_›, fun _ => rfl⟩
  · have hrefused : ∀ (size : Int) (out : Outcome),
        main txt node { args with chunkSize := size } ≠ .ok out := main_refused hstart
    have hnone : ∀ size : Int,
        (main txt node { args with chunkSize := size }).toOption = none := by
      intro size
      cases h : main txt node { args with chunkSize := size } with
      | error e => rfl
      | ok out => exact absurd h (hrefused size out)
    refine ⟨(hnone j).trans (hnone k).symm, ?_, fun out hout => absurd hout (hrefused j out)⟩
    apply iff_of_false
    · rintro ⟨out, hout⟩
      exact hrefused j out hout
    · intro h
      obtain ⟨before, b, hbefore, -⟩ := h args.start (le_refl _) hrange
      rw [blockAt, if_neg (by omega)] at hbefore
      cases hbefore

/-! ## A short history -/

/-- A node that has this history and nothing else. -/
def historyNode (history : History txt.toPyText) : Node where
  getBlockByNumber n :=
    match entryAt history n with
    | some block => .ok block
    | none => .error (.typeError "'NoneType' object is not subscriptable")
  getBlocks first last := .ok (present (entryAt history) first (last - first + 1).toNat)

theorem serves_historyNode (history : History txt.toPyText) :
    ServesHistory (historyNode history) history := by
  constructor
  case one =>
    intro n
    simp only [historyNode]
    cases entryAt history n with
    | none => rfl
    | some block => rfl
  case ranges => exact fun first last _ => Or.inl rfl

def plainText : IntervalText :=
  { PyText.ascii with
    dumps := fun _ => "{}"
    sha256 := fun text => "sha256 of " ++ text }

/-- A block without transactions. -/
def plainBlock (number timestamp : Int) (hash parentHash stateRoot : String) :
    ServedBlock plainText.toPyText where
  block :=
    { number := .number number, hash := hash, parentHash := parentHash
      timestamp := .number timestamp, stateRoot := stateRoot, transactionsRoot := none
      receiptsRoot := none, outgoingReceiptsRoot := none, incomingReceiptsRoot := none
      gasUsed := .null, transactions := [], stakingTransactions := [] }
  number := number
  timestamp := timestamp
  gas := 0
  crossed := []
  number_eq := rfl
  timestamp_eq := rfl
  gas_eq := rfl
  crossed_eq := rfl

def shortHistory : History plainText.toPyText := fun n =>
  [plainBlock 0 5 "0xa0" "0x00" "0x01", plainBlock 1 6 "0xa1" "0xA0" "0x01",
    plainBlock 2 6 "0xa2" "0xa1" "0x02"][n]?

theorem chunk_size_immaterial_short :
    (main plainText (historyNode shortHistory) ⟨0, 1, 2, 1, true⟩).toOption =
        (main plainText (historyNode shortHistory) ⟨0, 1, 2, 512, true⟩).toOption ∧
      (∃ out, main plainText (historyNode shortHistory) ⟨0, 1, 2, 1, true⟩ = .ok out) := by
  have h := @chunk_size_immaterial plainText shortHistory (historyNode shortHistory)
    ⟨0, 1, 2, 1, true⟩ (serves_historyNode shortHistory) (Or.inl rfl) rfl (by decide) 1 512
    (by decide) (by decide)
  have hok : (main plainText (historyNode shortHistory) ⟨0, 1, 2, 1, true⟩).isOk = true := by
    decide +kernel
  exact ⟨h.1, exists_of_isOk hok⟩

end IntervalRows
