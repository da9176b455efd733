import SupplyAudit.AuditFiles

/-!
# The canonical interval audit

`canonical-interval-audit.py` reads the blocks of an interval from a node, checks
that they follow one another, and counts what they hold. Whether a transaction
is cross-shard is read off its own shard fields.
-/

namespace IntervalAudit

open ScriptValues FallibleScan AuditFiles

/-! ## Blocks as the node gives them -/

/-- A field of a JSON object. -/
inductive Value where
  | null
  | number (value : Int)
  | text (value : String)
  deriving DecidableEq

abbrev Transaction := List (String × Value)

structure Block where
  number : Value
  hash : String
  parentHash : String
  timestamp : Value
  stateRoot : String
  transactionsRoot : Option String
  receiptsRoot : Option String
  outgoingReceiptsRoot : Option String
  incomingReceiptsRoot : Option String
  gasUsed : Value
  transactions : List Transaction
  stakingTransactions : List Transaction

/-- The calls of the script, after its retries. -/
structure Node where
  getBlockByNumber : Int → Except AuditError Block
  getBlocks : Int → Int → Except AuditError (List Block)

variable (py : PyText)

/-- `int(value)` -/
def Value.int : Value → Except AuditError Int
  | .null => .error (.python .typeError)
  | .number value => .ok value
  | .text value => raisePython (py.parsed (some value))

/-- The first of the names that has a value. -/
def firstValue (object : Transaction) (names : List String) : Option Value :=
  names.findSome? fun name => (object.lookup name).filter (· ≠ .null)

/-- `transaction_value` -/
def transactionValue (transaction : Transaction) (names : List String) : Value :=
  (firstValue transaction names).getD (.text "")

/-- Both shards are given and differ. -/
def crossShard (transaction : Transaction) : Except AuditError Bool :=
  let fromShard := transactionValue transaction ["shardID", "fromShard"]
  let toShard := transactionValue transaction ["toShardID", "toShard"]
  if fromShard = .text "" ∨ toShard = .text "" then .ok false
  else do
    let source ← fromShard.int py
    let destination ← toShard.int py
    .ok (decide (source ≠ destination))

/-! ## Counters -/

def emptyRoot : String := "0x56e81f171bcc55a6ff8345e692c0f86e5b48e01b996cadc001622fb5e363b421"

/-- A root that is given and is not that of an empty tree. -/
def nonemptyRoot (root : Option String) : Bool :=
  root.getD "" ≠ "" ∧ py.lower (root.getD "") ≠ py.lower emptyRoot

structure Summary where
  shard : Int
  start : Int
  stop : Int
  predecessorHash : String
  predecessorStateRoot : String
  blocks : Nat := 0
  materialBlocks : Nat := 0
  stateRootChanges : Nat := 0
  normalTransactions : Nat := 0
  stakingTransactions : Nat := 0
  crossShardTransactions : Nat := 0
  nonemptyReceiptsRoots : Nat := 0
  nonemptyOutgoingReceiptsRoots : Nat := 0
  nonemptyIncomingReceiptsRoots : Nat := 0
  gasUsed : Int := 0

structure AuditState where
  nextNumber : Int
  expectedParent : String
  previousRoot : String
  previousTimestamp : Int
  summary : Summary

/-- The counts of a block, where `crossed` of its transactions are cross-shard. -/
def Summary.add (s : Summary) (block : Block) (stateChanged : Bool) (gasUsed : Int)
    (crossed : Nat) : Summary :=
  let receipts := nonemptyRoot py block.receiptsRoot
  let outgoing := nonemptyRoot py block.outgoingReceiptsRoot
  let incoming := nonemptyRoot py block.incomingReceiptsRoot
  let material := stateChanged || !block.transactions.isEmpty ||
    !block.stakingTransactions.isEmpty || gasUsed ≠ 0 || receipts || outgoing || incoming
  { s with
    blocks := s.blocks + 1
    materialBlocks := s.materialBlocks + material.toNat
    stateRootChanges := s.stateRootChanges + stateChanged.toNat
    normalTransactions := s.normalTransactions + block.transactions.length
    stakingTransactions := s.stakingTransactions + block.stakingTransactions.length
    crossShardTransactions := s.crossShardTransactions + crossed
    nonemptyReceiptsRoots := s.nonemptyReceiptsRoots + receipts.toNat
    nonemptyOutgoingReceiptsRoots := s.nonemptyOutgoingReceiptsRoots + outgoing.toNat
    nonemptyIncomingReceiptsRoots := s.nonemptyIncomingReceiptsRoots + incoming.toNat
    gasUsed := s.gasUsed + gasUsed }

/-- `int(block.get("gasUsed") or 0)` -/
def Block.gas (block : Block) : Except AuditError Int :=
  if block.gasUsed = .null ∨ block.gasUsed = .text "" then .ok 0 else block.gasUsed.int py

/-- The body of the loop over the blocks of a chunk. -/
def auditBlock (st : AuditState) (block : Block) : Except AuditError AuditState := do
  let number ← block.number.int py
  require (number = st.nextNumber)
    (.runtimeError ("expected block " ++ toString st.nextNumber ++ ", got " ++ toString number))
  require (py.lower block.parentHash = py.lower st.expectedParent)
    (.runtimeError ("parent mismatch at block " ++ toString number ++ ": " ++ block.parentHash ++
      " != " ++ st.expectedParent))
  let timestamp ← block.timestamp.int py
  require (st.previousTimestamp ≤ timestamp)
    (.runtimeError ("timestamp regressed at block " ++ toString number))
  let gasUsed ← block.gas py
  let crossed ← block.transactions.mapM (crossShard py)
  .ok
    { nextNumber := st.nextNumber + 1
      expectedParent := block.hash
      previousRoot := block.stateRoot
      previousTimestamp := timestamp
      summary := st.summary.add py block
        (py.lower block.stateRoot ≠ py.lower st.previousRoot) gasUsed (crossed.count true) }

structure Args where
  shard : Int
  start : Int
  stop : Int
  chunkSize : Int
  outputsFree : Bool

/-- The loop over chunks; every chunk has at least one block. -/
def auditChunks (node : Node) (args : Args) :
    Nat → AuditState → Except AuditError AuditState
  | 0, st => .ok st
  | fuel + 1, st =>
    if st.nextNumber ≤ args.stop then do
      let chunkEnd := min args.stop (st.nextNumber + args.chunkSize - 1)
      let blocks ← node.getBlocks st.nextNumber chunkEnd
      require ((blocks.length : Int) = chunkEnd - st.nextNumber + 1)
        (.runtimeError ("range " ++ toString st.nextNumber ++ ".." ++ toString chunkEnd ++
          " returned " ++ toString blocks.length ++ " blocks"))
      let next ← blocks.foldlM (auditBlock py) st
      auditChunks node args fuel next
    else .ok st

def main (node : Node) (args : Args) : Except AuditError Summary := do
  require (args.shard = 0 ∨ args.shard = 1) (.valueError "shard must be 0 or 1")
  require (0 < args.start ∧ args.start ≤ args.stop) (.valueError "invalid block range")
  require (1 ≤ args.chunkSize ∧ args.chunkSize ≤ 1024)
    (.valueError "chunk size must be between 1 and 1024")
  require (args.outputsFree = true) (.fileExists "output")
  let predecessor ← node.getBlockByNumber (args.start - 1)
  let timestamp ← predecessor.timestamp.int py
  let last ← auditChunks py node args (args.stop - args.start + 1).toNat
    { nextNumber := args.start
      expectedParent := predecessor.hash
      previousRoot := predecessor.stateRoot
      previousTimestamp := timestamp
      summary :=
        { shard := args.shard, start := args.start, stop := args.stop
          predecessorHash := predecessor.hash
          predecessorStateRoot := predecessor.stateRoot } }
  let _ ← node.getBlockByNumber args.start
  .ok last.summary

/-! ## What a zero count says -/

variable {py} {node : Node} {history : Int → Block}

/-- The node answers a range with the blocks of one history. -/
def Serves (node : Node) (history : Int → Block) : Prop :=
  ∀ first last blocks, node.getBlocks first last = .ok blocks →
    ∀ (i : Nat) (h : i < blocks.length), blocks[i] = history (first + i)

/-- The blocks from the start up to the next one were read, and each of their
cross-shard transactions is in the count. -/
structure Audited (py : PyText) (history : Int → Block) (args : Args) (st : AuditState) :
    Prop where
  bounds : st.summary.start = args.start ∧ st.summary.stop = args.stop
  started : args.start ≤ st.nextNumber
  counted : ∀ n, args.start ≤ n → n < st.nextNumber → ∀ transaction ∈ (history n).transactions,
    ∃ crossed, crossShard py transaction = .ok crossed ∧
      (crossed = true → 0 < st.summary.crossShardTransactions)

theorem auditBlock_ok {st st' : AuditState} {block : Block}
    (h : auditBlock py st block = .ok st') :
    st'.nextNumber = st.nextNumber + 1 ∧ st'.summary.start = st.summary.start ∧
      st'.summary.stop = st.summary.stop ∧ ∃ crossed,
      block.transactions.mapM (crossShard py) = .ok crossed ∧
        st'.summary.crossShardTransactions =
          st.summary.crossShardTransactions + crossed.count true := by
  simp only [auditBlock, bind_eq_ok] at h
  obtain ⟨-, -, -, -, -, -, timestamp, -, -, -, gasUsed, -, crossed, hcrossed, hst⟩ := h
  cases hst
  exact ⟨rfl, rfl, rfl, crossed, hcrossed, rfl⟩

theorem Audited.step {args : Args} {st st' : AuditState} (h : Audited py history args st)
    (hblock : auditBlock py st (history st.nextNumber) = .ok st') :
    Audited py history args st' := by
  obtain ⟨hnext, hfirst, hlast, crossed, hcrossed, hcount⟩ := auditBlock_ok hblock
  constructor
  case bounds => exact ⟨hfirst.trans h.bounds.1, hlast.trans h.bounds.2⟩
  case started =>
    have hstarted := h.started
    omega
  case counted =>
    intro n hstart hlt transaction hmem
    by_cases hlast : n = st.nextNumber
    · rw [hlast] at hmem
      obtain ⟨c, hc, hok⟩ := mapM_ok_left hcrossed hmem
      refine ⟨c, hok, fun htrue => ?_⟩
      have hpos : 0 < crossed.count true := List.count_pos_iff.mpr (htrue ▸ hc)
      omega
    · obtain ⟨c, hok, hc⟩ := h.counted n hstart (by omega) transaction hmem
      refine ⟨c, hok, fun htrue => ?_⟩
      have hpos := hc htrue
      omega

theorem Audited.blocks {args : Args} {blocks : List Block} {st st' : AuditState}
    (h : Audited py history args st)
    (hserved : ∀ (i : Nat) (hi : i < blocks.length), blocks[i] = history (st.nextNumber + i))
    (hblocks : blocks.foldlM (auditBlock py) st = .ok st') :
    Audited py history args st' ∧ st'.nextNumber = st.nextNumber + blocks.length := by
  induction blocks generalizing st with
  | nil =>
    cases hblocks
    exact ⟨h, by simp⟩
  | cons block blocks ih =>
    rw [List.foldlM_cons, bind_eq_ok] at hblocks
    obtain ⟨next, hnext, hrest⟩ := hblocks
    have hfirst : block = history st.nextNumber := by
      have hat := hserved 0 (by simp)
      rwa [List.getElem_cons_zero, Int.natCast_zero, add_zero] at hat
    have hnumber := (auditBlock_ok hnext).1
    rw [hfirst] at hnext
    obtain ⟨haudited, hlast⟩ := ih (h.step hnext) (fun i hi => by
      have hat := hserved (i + 1) (by simpa using hi)
      rw [List.getElem_cons_succ] at hat
      rw [hat, hnumber]
      congr 1
      push_cast
      ring) hrest
    refine ⟨haudited, ?_⟩
    rw [hlast, hnumber, List.length_cons]
    push_cast
    ring

theorem Audited.chunks {args : Args} (hserves : Serves node history) (hsize : 1 ≤ args.chunkSize)
    {fuel : Nat} {st st' : AuditState} (h : Audited py history args st)
    (hfuel : (args.stop - st.nextNumber + 1).toNat ≤ fuel)
    (hchunks : auditChunks py node args fuel st = .ok st') :
    Audited py history args st' ∧ args.stop < st'.nextNumber := by
  induction fuel generalizing st with
  | zero =>
    cases hchunks
    exact ⟨h, by omega⟩
  | succ fuel ih =>
    rw [auditChunks] at hchunks
    split at hchunks
    · simp only [bind_eq_ok, require_ok] at hchunks
      obtain ⟨blocks, hblocks, -, hlength, next, hnext, hrest⟩ := hchunks
      obtain ⟨haudited, hnumber⟩ := h.blocks (hserves _ _ blocks hblocks) hnext
      exact ih haudited (by omega) hrest
    · cases hchunks
      exact ⟨h, by omega⟩

/-- When no transaction was counted, none of the interval is cross-shard by its
own fields. -/
theorem not_crossShard_of_main {args : Args} {summary : Summary}
    (hserves : Serves node history) (h : main py node args = .ok summary) :
    summary.start = args.start ∧ summary.stop = args.stop ∧
      (summary.crossShardTransactions = 0 → ∀ n, args.start ≤ n → n ≤ args.stop →
        ∀ transaction ∈ (history n).transactions, crossShard py transaction = .ok false) := by
  simp only [main, bind_eq_ok, require_ok] at h
  obtain ⟨-, -, -, -, -, hsize, -, -, predecessor, -, timestamp, -, last, hlast, -, -, hsummary⟩ := h
  cases hsummary
  have hrun := fun hstart => Audited.chunks hserves hsize.1 hstart (by exact le_refl _) hlast
  obtain ⟨haudited, hstop⟩ := hrun
    ⟨⟨rfl, rfl⟩, le_refl _, fun n hstart hlt => absurd hlt (not_lt.mpr hstart)⟩
  refine ⟨haudited.bounds.1, haudited.bounds.2, fun hzero n hstart hle transaction hmem => ?_⟩
  obtain ⟨crossed, hok, hpos⟩ := haudited.counted n hstart (by omega) transaction hmem
  cases crossed with
  | false => exact hok
  | true =>
    have hcount := hpos rfl
    omega

end IntervalAudit
