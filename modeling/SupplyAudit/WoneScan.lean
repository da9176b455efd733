import SupplyAudit.WoneEvents
import SupplyAudit.WorkerPool

/-!
# The WONE event scan

`scanRanges` cuts the blocks from the deployment to the cutoff into ranges and
replays them with a pool of workers. `fetchLogs` asks for the logs of a range
and, when the node refuses, for those of its two halves.
-/

namespace WoneScan

open FallibleScan KeyedTable WoneEvents WorkerPool

/-! ## Fetching -/

/-- One `eth_getLogs` call after its retries, by inclusive block range. -/
abbrev GetLogs := UInt64 → UInt64 → Except String (List RpcLog)

def middle (fromBlock toBlock : UInt64) : UInt64 := fromBlock + (toBlock - fromBlock) / 2

/-- Both halves of a range are smaller, whatever the order of its ends. -/
theorem halves_lt {a b : UInt64} (h : a ≠ b) :
    (middle a b - a).toNat < (b - a).toNat ∧ (b - (middle a b + 1)).toNat < (b - a).toNat := by
  have ha := a.toNat_lt
  have hb := b.toNat_lt
  have hne : a.toNat ≠ b.toNat := fun heq => h (UInt64.toNat_inj.mp heq)
  have hone : (1 : UInt64).toNat = 1 := rfl
  have htwo : (2 : UInt64).toNat = 2 := rfl
  simp only [middle, UInt64.toNat_sub, UInt64.toNat_add, UInt64.toNat_div, hone, htwo]
  omega

def fetchLogs (getLogs : GetLogs) (fromBlock toBlock : UInt64) : Except String (List RpcLog) :=
  match getLogs fromBlock toBlock with
  | .ok logs => .ok logs
  | .error err =>
    if fromBlock = toBlock then
      .error ("fetch logs at block " ++ toString fromBlock.toNat ++ ": " ++ err)
    else do
      let left ← fetchLogs getLogs fromBlock (middle fromBlock toBlock)
      let right ← fetchLogs getLogs (middle fromBlock toBlock + 1) toBlock
      .ok (left ++ right)
termination_by (toBlock - fromBlock).toNat
decreasing_by
  · exact (halves_lt ‹_›).1
  · exact (halves_lt ‹_›).2

/-! ## Ranges -/

structure RangeJob where
  fromBlock : UInt64
  toBlock : UInt64
  deriving DecidableEq

/-- The last block of the range that starts here. -/
def rangeEnd (cutoff rangeSize fromBlock : UInt64) : UInt64 :=
  let toBlock := fromBlock + rangeSize - 1
  if toBlock < fromBlock ∨ cutoff < toBlock then cutoff else toBlock

theorem rangeEnd_ge (rangeSize : UInt64) {cutoff fromBlock : UInt64} (h : fromBlock ≤ cutoff) :
    fromBlock ≤ rangeEnd cutoff rangeSize fromBlock ∧
      rangeEnd cutoff rangeSize fromBlock ≤ cutoff := by
  rw [rangeEnd]
  split
  · exact ⟨h, UInt64.le_refl _⟩
  · rename_i hnot
    rw [not_or, UInt64.not_lt, UInt64.not_lt] at hnot
    exact hnot

theorem toNat_next {cutoff rangeSize fromBlock : UInt64} (h : fromBlock ≤ cutoff)
    (hend : rangeEnd cutoff rangeSize fromBlock ≠ cutoff) :
    (rangeEnd cutoff rangeSize fromBlock + 1).toNat =
      (rangeEnd cutoff rangeSize fromBlock).toNat + 1 ∧
    rangeEnd cutoff rangeSize fromBlock + 1 ≤ cutoff := by
  have hhigh := UInt64.le_iff_toNat_le.mp (rangeEnd_ge rangeSize h).2
  have hne : (rangeEnd cutoff rangeSize fromBlock).toNat ≠ cutoff.toNat :=
    fun heq => hend (UInt64.toNat_inj.mp heq)
  have hcutoff := cutoff.toNat_lt
  have hone : (1 : UInt64).toNat = 1 := rfl
  have hnext : (rangeEnd cutoff rangeSize fromBlock + 1).toNat =
      (rangeEnd cutoff rangeSize fromBlock).toNat + 1 := by
    rw [UInt64.toNat_add, hone]
    omega
  refine ⟨hnext, UInt64.le_iff_toNat_le.mpr ?_⟩
  omega

theorem next_lt {cutoff rangeSize fromBlock : UInt64} (h : fromBlock ≤ cutoff)
    (hend : rangeEnd cutoff rangeSize fromBlock ≠ cutoff) :
    cutoff.toNat - (rangeEnd cutoff rangeSize fromBlock + 1).toNat <
      cutoff.toNat - fromBlock.toNat := by
  obtain ⟨hnext, hle⟩ := toNat_next h hend
  have hlow := UInt64.le_iff_toNat_le.mp (rangeEnd_ge rangeSize h).1
  have hhigh := UInt64.le_iff_toNat_le.mp hle
  omega

/-- The jobs that the sender sends, from a block on. -/
def ranges (cutoff rangeSize fromBlock : UInt64) : List RangeJob :=
  if h : fromBlock ≤ cutoff then
    let toBlock := rangeEnd cutoff rangeSize fromBlock
    ⟨fromBlock, toBlock⟩ ::
      if hend : toBlock = cutoff then [] else ranges cutoff rangeSize (toBlock + 1)
  else []
termination_by cutoff.toNat - fromBlock.toNat
decreasing_by
  exact next_lt h hend

/-! ## Blocks of a range -/

/-- The numbers of the blocks of an inclusive range. -/
def blocks (fromBlock toBlock : UInt64) : List Nat :=
  List.range' fromBlock.toNat (toBlock.toNat - fromBlock.toNat + 1)

/-- The logs of an inclusive block range, in the order of the blocks. -/
def rangeLogs (history : Nat → List RpcLog) (fromBlock toBlock : UInt64) : List RpcLog :=
  (blocks fromBlock toBlock).flatMap history

/-- A call either fails or returns the logs of its range. -/
def Faithful (history : Nat → List RpcLog) (getLogs : GetLogs) : Prop :=
  ∀ fromBlock toBlock logs, fromBlock ≤ toBlock → getLogs fromBlock toBlock = .ok logs →
    logs = rangeLogs history fromBlock toBlock

theorem blocks_append {a m b : UInt64} (ham : a ≤ m) (hmb : m < b)
    (hnext : (m + 1).toNat = m.toNat + 1) : blocks a m ++ blocks (m + 1) b = blocks a b := by
  have hlow := UInt64.le_iff_toNat_le.mp ham
  have hhigh := UInt64.lt_iff_toNat_lt.mp hmb
  have hstart : (m + 1).toNat = a.toNat + (m.toNat - a.toNat + 1) := by omega
  have hlength : b.toNat - a.toNat + 1 =
      (m.toNat - a.toNat + 1) + (b.toNat - (m + 1).toNat + 1) := by omega
  rw [blocks, blocks, blocks, hlength, hstart, List.range'_append_1]

/-- The halving neither overflows nor leaves a half without a block. -/
theorem middle_bounds {a b : UInt64} (h : a < b) :
    (middle a b).toNat = a.toNat + (b.toNat - a.toNat) / 2 ∧
      (middle a b + 1).toNat = (middle a b).toNat + 1 ∧ a ≤ middle a b ∧ middle a b < b := by
  have hlt := UInt64.lt_iff_toNat_lt.mp h
  have hb := b.toNat_lt
  have hone : (1 : UInt64).toNat = 1 := rfl
  have htwo : (2 : UInt64).toNat = 2 := rfl
  have hmiddle : (middle a b).toNat = a.toNat + (b.toNat - a.toNat) / 2 := by
    rw [middle, UInt64.toNat_add, UInt64.toNat_div, UInt64.toNat_sub_of_le _ _ (UInt64.le_of_lt h),
      htwo]
    omega
  refine ⟨hmiddle, ?_, UInt64.le_iff_toNat_le.mpr ?_, UInt64.lt_iff_toNat_lt.mpr ?_⟩
  · rw [UInt64.toNat_add, hone]
    omega
  · omega
  · omega

/-- Splitting neither loses nor repeats a block. -/
theorem fetchLogs_ok {history : Nat → List RpcLog} {getLogs : GetLogs}
    (hcalls : Faithful history getLogs) {fromBlock toBlock : UInt64} (h : fromBlock ≤ toBlock)
    {logs : List RpcLog} (hok : fetchLogs getLogs fromBlock toBlock = .ok logs) :
    logs = rangeLogs history fromBlock toBlock := by
  fun_induction fetchLogs getLogs fromBlock toBlock generalizing logs with
  | case1 a b found hcall =>
    cases hok
    exact hcalls a b _ h hcall
  | case2 b err hcall => cases hok
  | case3 a b err hcall hne ihleft ihright =>
    have hlt := UInt64.lt_of_le_of_ne h hne
    obtain ⟨-, hnext, hlow, hhigh⟩ := middle_bounds hlt
    simp only [bind_eq_ok] at hok
    obtain ⟨left, hleft, right, hright, hlogs⟩ := hok
    cases hlogs
    have hrest : middle a b + 1 ≤ b := by
      have hnat := UInt64.lt_iff_toNat_lt.mp hhigh
      rw [UInt64.le_iff_toNat_le]
      omega
    rw [ihleft hlow hleft, ihright hrest hright, rangeLogs, rangeLogs, rangeLogs,
      ← blocks_append hlow hhigh hnext, List.flatMap_append]

theorem rangeEnd_toNat {cutoff rangeSize fromBlock : UInt64} (h : fromBlock ≤ cutoff)
    (hsize : 1 ≤ rangeSize) : (rangeEnd cutoff rangeSize fromBlock).toNat =
      min (fromBlock.toNat + rangeSize.toNat - 1) cutoff.toNat := by
  have hle := UInt64.le_iff_toNat_le.mp h
  have hpos := UInt64.le_iff_toNat_le.mp hsize
  have hcutoff := cutoff.toNat_lt
  have hrange := rangeSize.toNat_lt
  have hone : (1 : UInt64).toNat = 1 := rfl
  -- a wrapped sum is below its first term
  have hsum : (fromBlock + rangeSize - 1).toNat =
      (fromBlock.toNat + rangeSize.toNat - 1) % 2 ^ 64 := by
    rw [UInt64.toNat_sub, UInt64.toNat_add, hone]
    omega
  rw [rangeEnd]
  split
  · rename_i hor
    rw [UInt64.lt_iff_toNat_lt, UInt64.lt_iff_toNat_lt, hsum] at hor
    omega
  · rename_i hnot
    rw [UInt64.lt_iff_toNat_lt, UInt64.lt_iff_toNat_lt, hsum] at hnot
    rw [hsum]
    omega

/-- The ranges are in order and have every block once. -/
theorem ranges_blocks {cutoff rangeSize fromBlock : UInt64} (h : fromBlock ≤ cutoff) :
    (ranges cutoff rangeSize fromBlock).flatMap (fun job => blocks job.fromBlock job.toBlock) =
      blocks fromBlock cutoff := by
  fun_induction ranges cutoff rangeSize fromBlock with
  | case1 a hle toBlock ih =>
    obtain ⟨hlow, hhigh⟩ := rangeEnd_ge rangeSize hle
    by_cases hend : toBlock = cutoff
    · rw [dif_pos hend, List.flatMap_cons, List.flatMap_nil, List.append_nil, hend]
    · obtain ⟨hnext, hrest⟩ := toNat_next hle hend
      have hlt : toBlock < cutoff := UInt64.lt_of_le_of_ne hhigh hend
      rw [dif_neg hend, List.flatMap_cons, ih hend hrest]
      exact blocks_append hlow hlt hnext
  | case2 a hnot => exact absurd h hnot

theorem ranges_ordered {cutoff rangeSize fromBlock : UInt64} :
    ∀ job ∈ ranges cutoff rangeSize fromBlock, job.fromBlock ≤ job.toBlock := by
  fun_induction ranges cutoff rangeSize fromBlock with
  | case1 a hle toBlock ih =>
    intro job hjob
    rcases List.mem_cons.mp hjob with rfl | hjob
    · exact (rangeEnd_ge rangeSize hle).1
    · by_cases hend : toBlock = cutoff
      · rw [dif_pos hend] at hjob
        cases hjob
      · rw [dif_neg hend] at hjob
        exact ih hend job hjob
  | case2 a hnot => nofun

/-- `initialRanges` -/
def initialRanges (deployment cutoff rangeSize : UInt64) : UInt64 :=
  (cutoff - deployment) / rangeSize + 1

/-- The number of ranges, before it wraps. -/
theorem ranges_length {cutoff rangeSize fromBlock : UInt64} (h : fromBlock ≤ cutoff)
    (hsize : 1 ≤ rangeSize) : (ranges cutoff rangeSize fromBlock).length =
      (cutoff.toNat - fromBlock.toNat) / rangeSize.toNat + 1 := by
  have hpos : 1 ≤ rangeSize.toNat := UInt64.le_iff_toNat_le.mp hsize
  fun_induction ranges cutoff rangeSize fromBlock with
  | case1 a hle toBlock ih =>
    have hto := rangeEnd_toNat hle hsize
    have hnat := UInt64.le_iff_toNat_le.mp hle
    by_cases hend : toBlock = cutoff
    · have hshort : cutoff.toNat - a.toNat < rangeSize.toNat := by
        have heq : (rangeEnd cutoff rangeSize a).toNat = cutoff.toNat := congrArg UInt64.toNat hend
        omega
      rw [dif_pos hend, List.length_singleton, Nat.div_eq_of_lt hshort]
    · obtain ⟨hnext, hrest⟩ := toNat_next hle hend
      have hne : (rangeEnd cutoff rangeSize a).toNat ≠ cutoff.toNat :=
        fun heq => hend (UInt64.toNat_inj.mp heq)
      have hfull : cutoff.toNat - a.toNat =
          (cutoff.toNat - (rangeEnd cutoff rangeSize a + 1).toNat) + rangeSize.toNat := by omega
      rw [dif_neg hend, List.length_cons, ih hend hrest, hfull, Nat.add_div_right _ hpos]
  | case2 a hnot => exact absurd h hnot

theorem initialRanges_eq {deployment cutoff rangeSize : UInt64} (h : deployment ≤ cutoff)
    (hsize : 1 ≤ rangeSize) : initialRanges deployment cutoff rangeSize =
      UInt64.ofNat (ranges cutoff rangeSize deployment).length := by
  apply UInt64.toNat_inj.mp
  have hone : (1 : UInt64).toNat = 1 := rfl
  rw [ranges_length h hsize, initialRanges, UInt64.toNat_add, UInt64.toNat_div,
    UInt64.toNat_sub_of_le _ _ h, hone, UInt64.toNat_ofNat']

/-! ## Replaying a range -/

variable (contract : Address)

/-- What a worker does with a job before it sends the result. -/
def replayRange (getLogs : GetLogs) (job : RangeJob) : Except String Replay := do
  let logs ← fetchLogs getLogs job.fromBlock job.toBlock
  logs.foldlM (applyLog contract) {}

/-- The collector adds the entries of a result one by one. -/
def mergeDeltas (balances deltas : Deltas) : Deltas :=
  deltas.entries.foldl (fun current entry => current.add entry.1 entry.2) balances

def collect (r result : Replay) : Replay :=
  ⟨mergeDeltas r.deltas result.deltas, r.counts + result.counts⟩

/-- The result of a job; a map has its entries in any order. -/
def replayed (history : Nat → List RpcLog) (job : RangeJob) (result : Replay) : Prop :=
  ∃ getLogs, Faithful history getLogs ∧ ∃ r, replayRange contract getLogs job = .ok r ∧
    result.deltas.entries.Perm r.deltas.entries ∧ result.counts = r.counts

/-- The pool of `scanRanges`. -/
def scanProtocol (history : Nat → List RpcLog) (workers : Nat) : Protocol RangeJob Replay String where
  processes := replayed contract history
  fails job err := ∃ getLogs, Faithful history getLogs ∧ replayRange contract getLogs job = .error err
  capacity := workers * 2

/-- What follows the loop over the results. -/
def finishScan (expected : UInt64) : Except String (List Replay) → Except String Replay
  | .error err => .error err
  | .ok results =>
    let completed := UInt64.ofNat results.length
    if completed ≠ expected then
      .error ("completed " ++ toString completed.toNat ++ " of " ++ toString expected.toNat ++
        " ranges")
    else .ok (results.foldl collect {})

/-! ## Sums over logs -/

/-- What a log adds to an address; a log that is refused adds nothing. -/
def logEffect (a : Address) (log : RpcLog) : Int :=
  match checkLog contract log with
  | .error _ => 0
  | .ok event => event.effect a

def logCounts (log : RpcLog) : EventCounts :=
  match checkLog contract log with
  | .error _ => 0
  | .ok event => event.counts

/-- Every log is accepted, and the balances and counts are the sums over them. -/
structure Summed (logs : List RpcLog) (r : Replay) : Prop where
  accepted : ∀ log ∈ logs, ∃ event, checkLog contract log = .ok event
  balances : ∀ a, r.deltas.at a = (logs.map (logEffect contract a)).sum
  counts : r.counts = (logs.map (logCounts contract)).sum

variable {contract}

theorem summed_of_ok {logs : List RpcLog} {r : Replay}
    (h : logs.foldlM (applyLog contract) {} = .ok r) : Summed contract logs r := by
  obtain ⟨events, hevents, rfl⟩ := applyLogs_ok.mp h
  constructor
  case accepted =>
    intro log hlog
    obtain ⟨event, -, hevent⟩ := mapM_ok_left hevents hlog
    exact ⟨event, hevent⟩
  case balances =>
    intro a
    have hlogs : logs.map (logEffect contract a) = events.map fun event => event.effect a :=
      map_eq_of_mapM_ok hevents fun log event hevent => by rw [logEffect, hevent]
    rw [at_events, hlogs]
    exact zero_add _
  case counts =>
    have hlogs : logs.map (logCounts contract) = events.map Event.counts :=
      map_eq_of_mapM_ok hevents fun log event hevent => by rw [logCounts, hevent]
    rw [counts_events, hlogs]
    exact zero_add _

theorem exists_of_accepted {logs : List RpcLog}
    (h : ∀ log ∈ logs, ∃ event, checkLog contract log = .ok event) :
    ∃ r, logs.foldlM (applyLog contract) {} = .ok r := by
  obtain ⟨events, hevents⟩ := exists_forall₂ h
  exact ⟨_, applyLogs_ok.mpr ⟨events, mapM_ok_iff.mpr hevents, rfl⟩⟩

theorem at_eq_sumAt (deltas : Deltas) (a : Address) :
    deltas.at a = KeyedSums.sumAt deltas.entries a := by
  rw [← KeyedSums.lookup_eq_sumAt deltas.nodup, Deltas.at, shareAt]
  cases deltas.entries.lookup a with
  | none => rfl
  | some amount => rfl

theorem at_mergeDeltas (balances deltas : Deltas) (a : Address) :
    (mergeDeltas balances deltas).at a = balances.at a + deltas.at a := by
  rw [at_eq_sumAt deltas, KeyedSums.sumAt]
  exact foldl_total (fun current : Deltas => current.at a)
    (fun current entry => current.at_add entry.1 entry.2 a) deltas.entries balances

/-- A result of a job is the sums over the logs of its range. -/
theorem summed_of_replayed {history : Nat → List RpcLog} {job : RangeJob} {result : Replay}
    (hordered : job.fromBlock ≤ job.toBlock) (h : replayed contract history job result) :
    Summed contract (rangeLogs history job.fromBlock job.toBlock) result := by
  obtain ⟨getLogs, hcalls, r, hr, hperm, hcounts⟩ := h
  rw [replayRange, bind_eq_ok] at hr
  obtain ⟨logs, hlogs, happlied⟩ := hr
  rw [fetchLogs_ok hcalls hordered hlogs] at happlied
  have hsummed := summed_of_ok happlied
  constructor
  case accepted => exact hsummed.accepted
  case balances =>
    intro a
    rw [at_eq_sumAt, KeyedSums.sumAt_perm hperm, ← at_eq_sumAt, hsummed.balances]
  case counts => rw [hcounts, hsummed.counts]

/-- Collected results are the sums over the logs of their jobs. -/
theorem summed_of_collected {history : Nat → List RpcLog} {jobs : List RangeJob}
    {results : List Replay} (hordered : ∀ job ∈ jobs, job.fromBlock ≤ job.toBlock)
    (h : List.Forall₂ (replayed contract history) jobs results) :
    Summed contract (jobs.flatMap fun job => rangeLogs history job.fromBlock job.toBlock)
      (results.foldl collect {}) := by
  have hall : List.Forall₂ (fun job result =>
      Summed contract (rangeLogs history job.fromBlock job.toBlock) result) jobs results := by
    induction h with
    | nil => exact .nil
    | cons hfirst _ ih =>
      exact .cons (summed_of_replayed (hordered _ List.mem_cons_self) hfirst)
        (ih fun job hjob => hordered job (List.mem_cons_of_mem _ hjob))
  constructor
  case accepted =>
    intro log hlog
    obtain ⟨job, hjob, hmem⟩ := List.mem_flatMap.mp hlog
    obtain ⟨result, -, hsummed⟩ := forall₂_exists_left hall hjob
    exact hsummed.accepted log hmem
  case balances =>
    intro a
    have hmerge : ∀ r result : Replay,
        (collect r result).deltas.at a = r.deltas.at a + result.deltas.at a :=
      fun r result => at_mergeDeltas r.deltas result.deltas a
    have hparts : jobs.map (fun job => ((rangeLogs history job.fromBlock job.toBlock).map
        (logEffect contract a)).sum) = results.map fun result => result.deltas.at a := by
      rw [← List.forall₂_eq_eq_eq, List.forall₂_map_left_iff, List.forall₂_map_right_iff]
      exact hall.imp fun job result hsummed => (hsummed.balances a).symm
    rw [foldl_total (fun r : Replay => r.deltas.at a) hmerge results {}, sum_map_flatMap, hparts]
    exact zero_add _
  case counts =>
    have hmerge : ∀ r result : Replay, (collect r result).counts = r.counts + result.counts :=
      fun _ _ => rfl
    have hparts : jobs.map (fun job => ((rangeLogs history job.fromBlock job.toBlock).map
        (logCounts contract)).sum) = results.map Replay.counts := by
      rw [← List.forall₂_eq_eq_eq, List.forall₂_map_left_iff, List.forall₂_map_right_iff]
      exact hall.imp fun job result hsummed => hsummed.counts.symm
    rw [foldl_total Replay.counts hmerge results {}, sum_map_flatMap, hparts]
    exact zero_add _

/-- The order of the logs does not matter to the sums. -/
theorem Summed.perm {logs logs' : List RpcLog} {r : Replay} (h : Summed contract logs r)
    (hperm : logs.Perm logs') : Summed contract logs' r where
  accepted log hlog := h.accepted log (hperm.mem_iff.mpr hlog)
  balances a := (h.balances a).trans (hperm.map _).sum_eq
  counts := h.counts.trans (hperm.map _).sum_eq

/-! ## Every schedule -/

/-- The pool before its first step. -/
def scanStart (deployment cutoff rangeSize : UInt64) (workers : Nat) :
    Pool RangeJob Replay String :=
  start (ranges cutoff rangeSize deployment) workers

/-- What `scanRanges` returns, once the collector is done. -/
def scanResult (deployment cutoff rangeSize : UInt64) (p : Pool RangeJob Replay String) :
    Option (Except String Replay) :=
  p.shared.outcome.map (finishScan (initialRanges deployment cutoff rangeSize))

variable (contract)

/-- The scan in any order of the steps of its parties. -/
structure ScheduleIndependent (history : Nat → List RpcLog) (deployment cutoff rangeSize : UInt64)
    (workers : Nat) : Prop where
  /-- A fetch that succeeds has the logs of its range, whichever calls failed. -/
  fetched : ∀ getLogs, Faithful history getLogs → ∀ fromBlock toBlock, fromBlock ≤ toBlock →
    ∀ logs, fetchLogs getLogs fromBlock toBlock = .ok logs →
      logs = rangeLogs history fromBlock toBlock
  /-- The halves of a range are blocks of it, and no sum wraps. -/
  halved : ∀ fromBlock toBlock, fromBlock < toBlock →
    (middle fromBlock toBlock).toNat = fromBlock.toNat + (toBlock.toNat - fromBlock.toNat) / 2 ∧
      (middle fromBlock toBlock + 1).toNat = (middle fromBlock toBlock).toNat + 1 ∧
        fromBlock ≤ middle fromBlock toBlock ∧ middle fromBlock toBlock < toBlock
  /-- The ranges have every block once. -/
  covered : (ranges cutoff rangeSize deployment).flatMap
    (fun job => blocks job.fromBlock job.toBlock) = blocks deployment cutoff
  /-- No run goes on for ever. -/
  bounded : ∀ run : Nat → Pool RangeJob Replay String,
    run 0 = scanStart deployment cutoff rangeSize workers → ∀ n,
      (∀ i < n, Step (scanProtocol contract history workers) (run i) (run (i + 1))) →
        n ≤ remaining (scanStart deployment cutoff rangeSize workers)
  /-- No run stops before the collector has returned. -/
  progress : ∀ p, Reaches (scanProtocol contract history workers)
    (scanStart deployment cutoff rangeSize workers) p →
      scanResult deployment cutoff rangeSize p = none →
        ∃ p', Step (scanProtocol contract history workers) p p'
  /-- Returned balances and counts are those of the logs in sequence. -/
  sequential : ∀ p, Reaches (scanProtocol contract history workers)
    (scanStart deployment cutoff rangeSize workers) p →
      ∀ total, scanResult deployment cutoff rangeSize p = some (.ok total) →
        ∃ r, (rangeLogs history deployment cutoff).foldlM (applyLog contract) {} = .ok r ∧
          total.counts = r.counts ∧ ∀ a, total.deltas.at a = r.deltas.at a
  /-- A returned error is that of a range; the count of ranges never fails. -/
  failed : ∀ p, Reaches (scanProtocol contract history workers)
    (scanStart deployment cutoff rangeSize workers) p →
      ∀ err, scanResult deployment cutoff rangeSize p = some (.error err) →
        ∃ job ∈ ranges cutoff rangeSize deployment, ∃ getLogs, Faithful history getLogs ∧
          replayRange contract getLogs job = .error err
  /-- An error of a worker is not dropped. -/
  reported : ∀ p, Reaches (scanProtocol contract history workers)
    (scanStart deployment cutoff rangeSize workers) p →
      (∃ job err, Worker.failed job err ∈ p.workers) →
        ∀ p', Reaches (scanProtocol contract history workers) p p' →
          ∀ o, scanResult deployment cutoff rangeSize p' = some o → ∃ err, o = .error err

variable {contract} {history : Nat → List RpcLog} {deployment cutoff rangeSize : UInt64}
  {workers : Nat} {p : Pool RangeJob Replay String}

theorem reached_invariant (h : Reaches (scanProtocol contract history workers)
    (scanStart deployment cutoff rangeSize workers) p) :
    Invariant (scanProtocol contract history workers) (ranges cutoff rangeSize deployment) p :=
  (invariant_start _ _ workers).reaches h

/-- The pool never loses a worker. -/
theorem workers_length {p p' : Pool RangeJob Replay String}
    (h : Reaches (scanProtocol contract history workers) p p') :
    p'.workers.length = p.workers.length := by
  induction h with
  | refl => rfl
  | tail _ hstep ih =>
    rw [← ih]
    cases hstep <;> simp

/-- A list of results is complete, so that the count of ranges agrees. -/
theorem finished_ok (hle : deployment ≤ cutoff) (hsize : 1 ≤ rangeSize) (hworkers : 1 ≤ workers)
    (h : Reaches (scanProtocol contract history workers)
      (scanStart deployment cutoff rangeSize workers) p) {results : List Replay}
    (houtcome : p.shared.outcome = some (.ok results)) :
    finishScan (initialRanges deployment cutoff rangeSize) (.ok results) =
        .ok (results.foldl collect {}) ∧
      Summed contract (rangeLogs history deployment cutoff) (results.foldl collect {}) := by
  have hpresent : p.workers ≠ [] := by
    intro hnone
    have hlength := workers_length h
    rw [hnone, scanStart, start, List.length_nil, List.length_replicate] at hlength
    omega
  obtain ⟨jobs, hperm, hresults⟩ := (reached_invariant h).outcome_ok hpresent houtcome
  have hcount : UInt64.ofNat results.length = initialRanges deployment cutoff rangeSize := by
    rw [initialRanges_eq hle hsize, ← hperm.length_eq, hresults.length_eq]
  have hordered : ∀ job ∈ jobs, job.fromBlock ≤ job.toBlock :=
    fun job hjob => ranges_ordered job (hperm.mem_iff.mp hjob)
  have hlogs : (ranges cutoff rangeSize deployment).flatMap
      (fun job => rangeLogs history job.fromBlock job.toBlock) =
        rangeLogs history deployment cutoff := by
    rw [rangeLogs, ← ranges_blocks hle, List.flatMap_assoc]
    rfl
  refine ⟨by simp [finishScan, hcount], ?_⟩
  rw [← hlogs]
  exact (summed_of_collected hordered hresults).perm (hperm.flatMap_right _)

/-- A replay that cannot be interrupted. -/
theorem replays_or_fails (job : RangeJob) :
    (∃ result, (scanProtocol contract history workers).processes job result) ∨
      ∃ err, (scanProtocol contract history workers).fails job err := by
  let exact : GetLogs := fun fromBlock toBlock => .ok (rangeLogs history fromBlock toBlock)
  have hexact : Faithful history exact := fun _ _ _ _ hok => (Except.ok.inj hok).symm
  cases hr : replayRange contract exact job with
  | error err => exact .inr ⟨err, exact, hexact, hr⟩
  | ok r => exact .inl ⟨r, exact, hexact, r, hr, .refl _, rfl⟩

/-- The scan does not depend on how it is scheduled. -/
theorem scanRanges_independent (contract : Address) (history : Nat → List RpcLog)
    {deployment cutoff rangeSize : UInt64} {workers : Nat} (hle : deployment ≤ cutoff)
    (hsize : 1 ≤ rangeSize) (hworkers : 1 ≤ workers) :
    ScheduleIndependent contract history deployment cutoff rangeSize workers := by
  constructor
  case fetched =>
    exact fun getLogs hcalls fromBlock toBlock hle logs hok => fetchLogs_ok hcalls hle hok
  case halved => exact fun fromBlock toBlock hlt => middle_bounds hlt
  case covered => exact ranges_blocks hle
  case bounded =>
    intro run hstart n hrun
    have hbound := run_bounded hrun
    rw [hstart] at hbound
    omega
  case progress =>
    intro p hreach hrunning
    have hroom : 0 < workers * 2 := by omega
    exact (reached_invariant hreach).progress replays_or_fails hroom
      (Option.map_eq_none_iff.mp hrunning)
  case sequential =>
    intro p hreach total htotal
    obtain ⟨outcome, houtcome, hfinish⟩ := Option.map_eq_some_iff.mp htotal
    cases outcome with
    | error err => cases hfinish
    | ok results =>
      obtain ⟨hok, hsummed⟩ := finished_ok hle hsize hworkers hreach houtcome
      cases hok.symm.trans hfinish
      obtain ⟨r, hr⟩ := exists_of_accepted hsummed.accepted
      have hsequential := summed_of_ok hr
      exact ⟨r, hr, hsummed.counts.trans hsequential.counts.symm,
        fun a => (hsummed.balances a).trans (hsequential.balances a).symm⟩
  case failed =>
    intro p hreach err herr
    obtain ⟨outcome, houtcome, hfinish⟩ := Option.map_eq_some_iff.mp herr
    cases outcome with
    | error first =>
      cases hfinish
      exact (reached_invariant hreach).outcome_error houtcome
    | ok results =>
      cases (finished_ok hle hsize hworkers hreach houtcome).1.symm.trans hfinish
  case reported =>
    intro p hreach hfailed p' hrun o ho
    obtain ⟨outcome, houtcome, hfinish⟩ := Option.map_eq_some_iff.mp ho
    obtain ⟨err, rfl⟩ := (reached_invariant hreach).doomed_outcome (.inr hfailed) hrun houtcome
    exact ⟨err, hfinish.symm⟩

/-- One deposit of one atto, in the last block of all. -/
def lastDeposit (block : Nat) : List RpcLog :=
  if block = 18446744073709551615 then
    [{ address := "0xcfcfcfcfcfcfcfcfcfcfcfcfcfcfcfcfcfcfcfcf"
       topics := [depositTopic, "0x000000000000000000000000abababababababababababababababababababab"]
       data := "0x0000000000000000000000000000000000000000000000000000000000000001"
       blockNumber := "0xffffffffffffffff"
       removed := false }]
  else []

/-- The last block of all and a size beyond the wrap. -/
theorem scanRanges_independent_last :
    ScheduleIndependent (.fill 20 0xcf) lastDeposit 18446744073709551614 18446744073709551615
      18446744073709551615 1 :=
  scanRanges_independent (.fill 20 0xcf) lastDeposit (by decide) (by decide) (by decide)

end WoneScan
