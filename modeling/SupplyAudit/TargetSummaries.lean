import SupplyAudit.StakingCalldata
import SupplyAudit.StakingTargets
import SupplyAudit.TablePublication

/-!
# The summaries of the staking audits

Both staking audits write a row for each transaction that they list and keep their
tables next to the rows. What a summary reports can be counted from the rows alone,
whatever the order of the transactions: the flag of a row is computed apart from the
test that fills the table of unknown targets, and the two always agree.
-/

namespace TargetSummaries

open ByteWords ReceiptKeys ChainDatabase BlockBodies FallibleScan WordLoops
open KeyedTable (update lookup_set nodup_update)
open TablePublication (sorted_eq_of_lookup perm_of_lookup)

/-! ## What is counted from rows -/

/-- The columns of a row that a summary depends on. -/
structure Listed where
  name : String
  blockNumber : UInt64
  index : Nat
  target : Address
  amount : Int
  targetKnown : Bool
  deriving DecidableEq

def Listed.amountOf (kind : String) (row : Listed) : Int := if row.name = kind then row.amount else 0

/-- One row is of an earlier transaction than another. -/
def Listed.Before (a b : Listed) : Prop :=
  a.blockNumber < b.blockNumber ∨ a.blockNumber = b.blockNumber ∧ a.index < b.index

/-- The counts of the names that rows have. -/
def recount (rows : List Listed) : List (String × Nat) :=
  publishedCounts ((rows.map Listed.name).dedup.map fun name =>
    (name, (rows.map Listed.name).count name))

def unknownRows (rows : List Listed) : List Listed := rows.filter fun row => !row.targetKnown

/-- The rows of an unknown target. -/
def ownRows (rows : List Listed) (target : Address) : List Listed :=
  (unknownRows rows).filter fun row => row.target = target

/-- What the rows of one target come to. -/
def gathered (own : List Listed) : MutableUnknownTarget where
  firstBlock := (own.head?.map Listed.blockNumber).getD 0
  lastBlock := (own.getLast?.map Listed.blockNumber).getD 0
  transactions := own.length
  delegateAtto := (own.map (Listed.amountOf "Delegate")).sum
  undelegateAtto := (own.map (Listed.amountOf "Undelegate")).sum

/-- The unknown targets of rows, each with what its rows come to. -/
def retarget (rows : List Listed) : List UnknownTarget :=
  publishedTargets (((unknownRows rows).map Listed.target).dedup.map fun target =>
    (target, gathered (ownRows rows target)))

/-! ## Tables that are kept next to rows -/

/-- How often a name occurs, and what the rows of a target come to, when any are there. -/
def countOf (rows : List Listed) (name : String) : Option Nat :=
  let count := (rows.map Listed.name).count name
  if count = 0 then none else some count

def gatheredOf : List Listed → Option MutableUnknownTarget
  | [] => none
  | first :: rest => some (gathered (first :: rest))

/-- The tables of a run agree with the rows written so far. -/
structure Kept (rows : List Listed) (counts : List (String × Nat)) (unknown : Nat)
    (targets : List (Address × MutableUnknownTarget)) : Prop where
  nodup : (counts.map Prod.fst).Nodup
  counted : ∀ name, counts.lookup name = countOf rows name
  unknown : unknown = (unknownRows rows).length
  distinct : (targets.map Prod.fst).Nodup
  collected : ∀ target, targets.lookup target = gatheredOf (ownRows rows target)

theorem kept_nil : Kept [] [] 0 [] where
  nodup := List.nodup_nil
  counted _ := rfl
  unknown := rfl
  distinct := List.nodup_nil
  collected _ := rfl

theorem countOf_concat (rows : List Listed) (row : Listed) (name : String) :
    countOf (rows ++ [row]) name =
      if name = row.name then some ((countOf rows name).getD 0 + 1) else countOf rows name := by
  have hcount : ((rows ++ [row]).map Listed.name).count name =
      (rows.map Listed.name).count name + if name = row.name then 1 else 0 := by
    rw [List.map_append, List.map_singleton, List.count_append]
    by_cases hname : name = row.name
    · rw [if_pos hname, hname, List.count_singleton_self]
    · have hother : [row.name].count name = 0 :=
        List.count_eq_zero_of_not_mem fun hmem => hname (List.mem_singleton.mp hmem)
      rw [if_neg hname, hother]
  simp only [countOf, hcount]
  by_cases hname : name = row.name
  · rw [if_pos hname, if_pos hname, if_neg (Nat.succ_ne_zero _)]
    split
    · rename_i hnone
      rw [hnone]
      rfl
    · rfl
  · rw [if_neg hname, if_neg hname, Nat.add_zero]

theorem unknownRows_concat (rows : List Listed) (row : Listed) :
    unknownRows (rows ++ [row]) =
      unknownRows rows ++ if row.targetKnown = false then [row] else [] := by
  rw [unknownRows, List.filter_append, unknownRows]
  cases hknown : row.targetKnown with
  | true => simp [hknown]
  | false => simp [hknown]

theorem ownRows_concat (rows : List Listed) (row : Listed) (target : Address) :
    ownRows (rows ++ [row]) target =
      ownRows rows target ++
        if row.targetKnown = false ∧ row.target = target then [row] else [] := by
  rw [ownRows, unknownRows_concat, List.filter_append, ownRows]
  by_cases hknown : row.targetKnown = false
  · by_cases htarget : row.target = target
    · simp [hknown, htarget]
    · simp [hknown, htarget]
  · simp [hknown]

/-- One more row of a target, after none or after others. -/
theorem gatheredOf_concat (own : List Listed) (row : Listed) :
    gatheredOf (own ++ [row]) =
      some (((gatheredOf own).getD { firstBlock := row.blockNumber }).add row.blockNumber
        (row.amountOf "Delegate") (row.amountOf "Undelegate")) := by
  cases own with
  | nil => simp [gatheredOf, gathered, MutableUnknownTarget.add]
  | cons first rest =>
    have hlast : (first :: (rest ++ [row])).getLast? = some row := by
      rw [← List.cons_append, List.getLast?_concat]
    rw [List.cons_append, gatheredOf, gathered, hlast]
    simp [gatheredOf, gathered, MutableUnknownTarget.add, Int.add_assoc]

/-- One more row keeps the tables in agreement with the rows. -/
theorem Kept.step {rows : List Listed} {counts : List (String × Nat)} {unknown : Nat}
    {targets : List (Address × MutableUnknownTarget)} (h : Kept rows counts unknown targets)
    (row : Listed) :
    Kept (rows ++ [row]) (update counts row.name 0 (· + 1))
      (unknown + if row.targetKnown = false then 1 else 0)
      (if row.targetKnown = false then
        addUnknownTarget targets row.target row.blockNumber (row.amountOf "Delegate")
          (row.amountOf "Undelegate")
      else targets) := by
  constructor
  case nodup => exact nodup_update h.nodup _ _ _
  case counted =>
    intro name
    rw [update, lookup_set, h.counted, h.counted, countOf_concat]
    by_cases hname : name = row.name
    · rw [if_pos hname, if_pos hname, hname]
    · rw [if_neg hname, if_neg hname]
  case unknown =>
    rw [unknownRows_concat, List.length_append, h.unknown]
    split <;> rfl
  case distinct =>
    split
    · exact nodup_update h.distinct _ _ _
    · exact h.distinct
  case collected =>
    intro target
    rw [ownRows_concat]
    by_cases hrow : row.targetKnown = false
    · rw [if_pos hrow, addUnknownTarget, update, lookup_set, h.collected, h.collected]
      by_cases htarget : target = row.target
      · rw [if_pos htarget, if_pos ⟨hrow, htarget.symm⟩, gatheredOf_concat, htarget]
      · have hother : ¬ (row.targetKnown = false ∧ row.target = target) :=
          fun hboth => htarget hboth.2.symm
        rw [if_neg htarget, if_neg hother, List.append_nil]
    · have hneither : ¬ (row.targetKnown = false ∧ row.target = target) :=
        fun hboth => hrow hboth.1
      rw [if_neg hrow, if_neg hneither, List.append_nil, h.collected]

/-! ## What is published -/

/-- The counts of a run are those of its rows. -/
theorem Kept.published_counts {rows : List Listed} {counts : List (String × Nat)} {unknown : Nat}
    {targets : List (Address × MutableUnknownTarget)} (h : Kept rows counts unknown targets) :
    publishedCounts counts = recount rows := by
  apply sorted_eq_of_lookup h.nodup
  · rw [KeyedTable.keys_map_keys]
    exact List.nodup_dedup _
  · intro name
    rw [h.counted, KeyedTable.lookup_map_keys, countOf]
    simp only [List.mem_dedup]
    by_cases hmem : name ∈ rows.map Listed.name
    · rw [if_pos hmem, if_neg (Nat.ne_of_gt (List.count_pos_iff.mpr hmem))]
    · rw [if_neg hmem, if_pos (List.count_eq_zero_of_not_mem hmem)]

instance targetOrder_total :
    Std.Total fun a b : Address × MutableUnknownTarget => a.1.data ≤ b.1.data where
  total _ _ := Std.le_total

instance targetOrder_trans :
    IsTrans (Address × MutableUnknownTarget) fun a b => a.1.data ≤ b.1.data where
  trans _ _ _ := Std.le_trans

/-- Tables with the same entries are published alike. -/
theorem publishedTargets_congr {targets targets' : List (Address × MutableUnknownTarget)}
    (h : (targets.map Prod.fst).Nodup) (hperm : targets.Perm targets') :
    publishedTargets targets = publishedTargets targets' := by
  have hsorted (l : List (Address × MutableUnknownTarget)) :
      (l.insertionSort fun a b => a.1.data ≤ b.1.data).Perm l := List.perm_insertionSort _ l
  have hsame := ((hsorted targets).trans hperm).trans (hsorted targets').symm
  have heq : (targets.insertionSort fun a b => a.1.data ≤ b.1.data) =
      targets'.insertionSort fun a b => a.1.data ≤ b.1.data := by
    apply hsame.eq_of_pairwise ?_ (List.pairwise_insertionSort _ _)
      (List.pairwise_insertionSort _ _)
    intro a b ha hb hab hba
    have hkey : a.1 = b.1 := FixedBytes.ext (Std.le_antisymm hab hba)
    have ha' := KeyedTable.lookup_of_mem h ((hsorted targets).mem_iff.mp ha)
    have hb' := KeyedTable.lookup_of_mem h ((hsorted targets).mem_iff.mp (hsame.mem_iff.mpr hb))
    rw [hkey, hb'] at ha'
    exact Prod.ext hkey (Option.some.inj ha').symm
  rw [publishedTargets, heq, publishedTargets]

/-- The unknown targets of a run are those of its rows. -/
theorem Kept.published_targets {rows : List Listed} {counts : List (String × Nat)} {unknown : Nat}
    {targets : List (Address × MutableUnknownTarget)} (h : Kept rows counts unknown targets) :
    publishedTargets targets = retarget rows := by
  apply publishedTargets_congr h.distinct
  apply perm_of_lookup h.distinct
  · rw [KeyedTable.keys_map_keys]
    exact List.nodup_dedup _
  · intro target
    rw [h.collected, KeyedTable.lookup_map_keys]
    have hnone : ownRows rows target = [] ↔ target ∉ (unknownRows rows).map Listed.target := by
      simp [ownRows, List.filter_eq_nil_iff]
    simp only [List.mem_dedup]
    cases hown : ownRows rows target with
    | nil => rw [if_neg (hnone.mp hown)]; rfl
    | cons first rest =>
      rw [if_pos]
      · rfl
      · exact not_not.mp fun hnot => List.cons_ne_nil _ _ (hown.symm.trans (hnone.mpr hnot))

/-! ## Rows in order -/

/-- The rows are in order, up to a transaction that none of them has reached. -/
structure Reached (number : UInt64) (index : Nat) (rows : List Listed) : Prop where
  ordered : rows.Pairwise Listed.Before
  before : ∀ row ∈ rows, row.blockNumber < number ∨ row.blockNumber = number ∧ row.index < index

theorem reached_nil (number : UInt64) (index : Nat) : Reached number index [] where
  ordered := List.Pairwise.nil
  before _ hrow := absurd hrow List.not_mem_nil

/-- The transaction is passed without a row. -/
theorem Reached.skip {number : UInt64} {index : Nat} {rows : List Listed}
    (h : Reached number index rows) : Reached number (index + 1) rows where
  ordered := h.ordered
  before row hrow := by
    rcases h.before row hrow with hlt | ⟨heq, hlt⟩
    · exact Or.inl hlt
    · exact Or.inr ⟨heq, by omega⟩

/-- The transaction has a row. -/
theorem Reached.step {number : UInt64} {index : Nat} {rows : List Listed}
    (h : Reached number index rows) {row : Listed} (hnumber : row.blockNumber = number)
    (hindex : row.index = index) : Reached number (index + 1) (rows ++ [row]) where
  ordered := by
    refine List.pairwise_append.mpr ⟨h.ordered, List.pairwise_singleton _ _, ?_⟩
    intro a ha b hb
    rw [List.mem_singleton.mp hb, Listed.Before, hnumber, hindex]
    exact h.before a ha
  before a ha := by
    rcases List.mem_append.mp ha with ha | ha
    · exact h.skip.before a ha
    · rw [List.mem_singleton.mp ha]
      exact Or.inr ⟨hnumber, by omega⟩

/-- The block is passed. -/
theorem Reached.next {number : UInt64} {index : Nat} {rows : List Listed}
    (h : Reached number index rows) (hlast : number ≠ lastWord) : Reached (number + 1) 0 rows where
  ordered := h.ordered
  before row hrow := by
    have hsucc := toNat_succ hlast
    left
    apply UInt64.lt_iff_toNat_lt.mpr
    rcases h.before row hrow with hlt | ⟨heq, -⟩
    · have hlt' := UInt64.lt_iff_toNat_lt.mp hlt
      omega
    · rw [heq]
      omega

/-! ## The staking transactions -/

section Staking
open StakingTargets (StakingCodec Row AuditState directiveName record scanTransaction scanBlock
  blockLoop readValidators summarize)

def stakingRow (row : Row) : Listed where
  name := row.directive
  blockNumber := row.blockNumber
  index := row.stakingTransactionIndex
  target := row.target
  amount := row.amountAtto
  targetKnown := row.targetKnown

/-- A row that creates its target. -/
def Creates (target : Address) (row : Row) : Prop :=
  row.directive = "CreateValidator" ∧ row.target = target

/-- Each row is flagged by the current validators and the rows up to itself. -/
def Flagged (validators : List Address) (rows : List Row) : Prop :=
  ∀ before row after, rows = before ++ row :: after →
    (row.targetKnown = false ↔ row.target ≠ .zero 20 ∧ row.target ∉ validators ∧
      ∀ earlier ∈ before ++ [row], ¬ Creates row.target earlier)

structure StakingKept (validators : List Address) (state : AuditState) : Prop where
  kept : Kept (state.rows.map stakingRow) state.directives state.unknownTransactions
    state.unknownTargets
  listed : state.stakingTransactions = state.rows.length
  known : ∀ a, a ∈ state.knownValidators ↔ a ∈ validators ∨ ∃ row ∈ state.rows, Creates a row
  flagged : Flagged validators state.rows

theorem directiveName_ok {directive : UInt8} {name : String}
    (h : directiveName directive = .ok name) :
    (name = "CreateValidator" ↔ directive = 0) ∧ (name = "Delegate" ↔ directive = 2) ∧
      (name = "Undelegate" ↔ directive = 3) := by
  have hcode (k : UInt8) : directive = k ↔ directive.toNat = k.toNat := UInt8.toNat_inj.symm
  rw [directiveName] at h
  rw [hcode, hcode, hcode]
  split at h
  all_goals
    cases h
  all_goals
    rename_i hdirective
    rw [hdirective]
    decide

variable {lib : StakingCodec} {db : Database} {validators : List Address} {number : UInt64}
  {hash : Hash}

/-- A scanned transaction is recorded. -/
theorem scanTransaction_ok {state state' : AuditState} {raw : Bytes} {index : Nat}
    (h : scanTransaction lib number hash state (raw, index) = .ok state') :
    ∃ directive name message, directiveName directive = .ok name ∧
      state' = record lib number hash index raw directive name message state := by
  simp only [scanTransaction, bind_eq_ok] at h
  obtain ⟨transaction, -, name, hname, fields, -, message, -, h⟩ := h
  cases h
  exact ⟨transaction.directive, name, message, hname, rfl⟩

/-- One more row after a flagged list is flagged by what is known by then. -/
theorem Flagged.concat {rows : List Row} (h : Flagged validators rows) {row : Row}
    (hrow : row.targetKnown = false ↔ row.target ≠ .zero 20 ∧ row.target ∉ validators ∧
      ∀ earlier ∈ rows ++ [row], ¬ Creates row.target earlier) :
    Flagged validators (rows ++ [row]) := by
  intro before other after hsplit
  rcases List.eq_nil_or_concat after with rfl | ⟨after, last, rfl⟩
  · obtain ⟨rfl, rfl⟩ := List.append_singleton_inj.mp hsplit
    exact hrow
  · rw [List.concat_eq_append, ← List.cons_append, ← List.append_assoc] at hsplit
    exact h before other after (List.append_singleton_inj.mp hsplit).1

/-- The row of a recorded transaction, by what the state knows after it. -/
theorem record_row {state next : AuditState} {index : Nat} {raw : Bytes} {directive : UInt8}
    {name : String} {message : StakingTargets.Message}
    (hnext : next = record lib number hash index raw directive name message state) :
    ∃ row : Row, next.rows = state.rows ++ [row] ∧ row.directive = name ∧
      row.target = message.target ∧ row.amountAtto = message.amount ∧ row.blockNumber = number ∧
      row.stakingTransactionIndex = index ∧
      (row.targetKnown = false ↔
        message.target ≠ .zero 20 ∧ message.target ∉ next.knownValidators) := by
  subst hnext
  refine ⟨_, rfl, rfl, rfl, rfl, rfl, rfl, ?_⟩
  rw [decide_eq_false_iff_not, not_or]
  exact Iff.rfl

theorem mem_knownValidators {state : AuditState} {index : Nat} {raw : Bytes} {directive : UInt8}
    {name : String} {message : StakingTargets.Message} (a : Address) :
    a ∈ (record lib number hash index raw directive name message state).knownValidators ↔
      a ∈ state.knownValidators ∨ directive = 0 ∧ message.target = a := by
  change a ∈ (if directive = 0 then state.knownValidators.insert message.target
    else state.knownValidators) ↔ _
  by_cases hcreate : directive = 0
  · rw [if_pos hcreate, List.mem_insert_iff, and_iff_right hcreate, or_comm, eq_comm]
  · rw [if_neg hcreate]
    exact (or_iff_left fun hboth => hcreate hboth.1).symm

theorem StakingKept.step {state : AuditState} (h : StakingKept validators state) {index : Nat}
    {raw : Bytes} {directive : UInt8} {name : String} (message : StakingTargets.Message)
    (hname : directiveName directive = .ok name) :
    StakingKept validators (record lib number hash index raw directive name message state) := by
  obtain ⟨hcreate, hdelegate, hundelegate⟩ := directiveName_ok hname
  generalize hnext : record lib number hash index raw directive name message state = next
  obtain ⟨row, hrows, hdirective, htarget, hamount, hnumber, -, hflag⟩ := record_row hnext.symm
  have hknown : ∀ a, a ∈ next.knownValidators ↔
      a ∈ validators ∨ ∃ row ∈ next.rows, Creates a row := by
    intro a
    rw [← hnext, mem_knownValidators, h.known, hnext, hrows, ← hcreate, or_assoc]
    simp only [List.mem_append, List.mem_singleton, or_and_right, exists_or, exists_eq_left,
      Creates, hdirective, htarget]
  have hcounts : next.directives = update state.directives name 0 (· + 1) := by
    rw [← hnext]
    rfl
  have hunknown : next.unknownTransactions =
      state.unknownTransactions + if row.targetKnown = false then 1 else 0 := by
    rw [if_congr hflag rfl rfl, ← hnext]
    rfl
  have htargets : next.unknownTargets =
      if row.targetKnown = false then
        addUnknownTarget state.unknownTargets row.target row.blockNumber
          ((stakingRow row).amountOf "Delegate") ((stakingRow row).amountOf "Undelegate")
      else state.unknownTargets := by
    have hdelegated : (stakingRow row).amountOf "Delegate" =
        if directive = 2 then message.amount else 0 := by
      rw [Listed.amountOf, ← if_congr hdelegate rfl rfl, ← hdirective, ← hamount]
      rfl
    have hundelegated : (stakingRow row).amountOf "Undelegate" =
        if directive = 3 then message.amount else 0 := by
      rw [Listed.amountOf, ← if_congr hundelegate rfl rfl, ← hdirective, ← hamount]
      rfl
    rw [if_congr hflag rfl rfl, hdelegated, hundelegated, htarget, hnumber, ← hnext]
    rfl
  constructor
  case kept =>
    have hstep := h.kept.step (stakingRow row)
    rw [hrows, List.map_append, List.map_singleton, hcounts, hunknown, htargets, ← hdirective]
    exact hstep
  case listed =>
    have htransactions : next.stakingTransactions = state.stakingTransactions + 1 := by
      rw [← hnext]
      rfl
    rw [htransactions, h.listed, hrows, List.length_append, List.length_singleton]
  case known => exact hknown
  case flagged =>
    rw [hrows]
    apply h.flagged.concat
    rw [hflag, htarget, hknown, hrows, not_or, not_exists]
    simp only [not_and]

/-- One transaction keeps the tables and the order. -/
theorem staking_transaction {state state' : AuditState} {raw : Bytes} {index : Nat}
    (hkept : StakingKept validators state)
    (hreached : Reached number index (state.rows.map stakingRow))
    (h : scanTransaction lib number hash state (raw, index) = .ok state') :
    StakingKept validators state' ∧ Reached number (index + 1) (state'.rows.map stakingRow) := by
  obtain ⟨directive, name, message, hname, hrecord⟩ := scanTransaction_ok h
  obtain ⟨row, hrows, -, -, -, hnumber, hindex, -⟩ := record_row hrecord
  constructor
  · rw [hrecord]
    exact hkept.step message hname
  · rw [hrows, List.map_append, List.map_singleton]
    exact hreached.step hnumber hindex

/-- So does one block. -/
theorem staking_block {state state' : AuditState} (hkept : StakingKept validators state)
    (hreached : Reached number 0 (state.rows.map stakingRow))
    (h : scanBlock lib db state number = .ok state') :
    StakingKept validators state' ∧
      ∃ index, Reached number index (state'.rows.map stakingRow) := by
  simp only [scanBlock, bind_eq_ok] at h
  obtain ⟨⟨hash, body⟩, -, rawTransactions, -, h⟩ := h
  have hdone : StakingKept validators state' ∧
      Reached number (0 + rawTransactions.length) (state'.rows.map stakingRow) := by
    refine foldlM_zipIdx (fun index state => StakingKept validators state ∧
      Reached number index (state.rows.map stakingRow)) ?_ ?_ h
    · exact fun _ _ _ _ hinv hstep => staking_transaction hinv.1 hinv.2 hstep
    · exact ⟨⟨hkept.kept, hkept.listed, hkept.known, hkept.flagged⟩, hreached⟩
  exact ⟨hdone.1, _, hdone.2⟩

theorem stakingKept_start (validators : List Address) :
    StakingKept validators { knownValidators := validators.dedup } where
  kept := kept_nil
  listed := rfl
  known a := by simp
  flagged := by
    intro before row after hsplit
    exact absurd hsplit.symm (List.append_ne_nil_of_right_ne_nil _ (List.cons_ne_nil _ _))

/-- And so does the loop. -/
theorem staking_run {endBlock first : UInt64} {visited : List UInt64} {state : AuditState}
    (h : Ends (blockLoop lib db endBlock) first { knownValidators := validators.dedup } visited
      (.ok state)) :
    StakingKept validators state ∧ (state.rows.map stakingRow).Pairwise Listed.Before := by
  refine Ends.invariant
    (fun number state => StakingKept validators state ∧
      Reached number 0 (state.rows.map stakingRow))
    (fun state => StakingKept validators state ∧
      (state.rows.map stakingRow).Pairwise Listed.Before) ?_ ?_ ?_
    ⟨stakingKept_start validators, reached_nil first 0⟩ h
  · rintro number state next ⟨hkept, hreached⟩ hbody hbreaks
    obtain ⟨hkept', index, hreached'⟩ := staking_block hkept hreached hbody
    exact ⟨hkept', hreached'.next (of_decide_eq_false hbreaks)⟩
  · rintro number state ⟨hkept, hreached⟩
    exact ⟨hkept, hreached.ordered⟩
  · rintro number state next ⟨hkept, hreached⟩ hbody -
    obtain ⟨hkept', index, hreached'⟩ := staking_block hkept hreached hbody
    exact ⟨hkept', hreached'.ordered⟩

end Staking

/-! ## The calls of the precompile -/

section Calls
open StakingCalls (CallCodec StakingCall Row AuditState decodeStakingCall record scanTransaction
  scanBlock blockLoop)

def callRow (row : Row) : Listed where
  name := row.method
  blockNumber := row.blockNumber
  index := row.transactionIndex
  target := row.target
  amount := row.amountAtto
  targetKnown := row.targetKnown

def CallsKept (state : AuditState) : Prop :=
  Kept (state.rows.map callRow) state.methods state.unknownTransactions state.unknownTargets

theorem callsKept_start : CallsKept {} := kept_nil

/-- A call that is not valid names no target. -/
theorem valid_of_target {input : Bytes} (h : (decodeStakingCall input).target ≠ .zero 20) :
    (decodeStakingCall input).valid = true := by
  rcases StakingCalldata.decode_cases input with ⟨-, hzero⟩ | ⟨delegator, rfl⟩ |
    ⟨method, selector, delegator, target, amount, hstake, hamount, rfl⟩
  · exact absurd hzero h
  · rw [StakingCalldata.decode_encodeRewards]
    rfl
  · rw [StakingCalldata.decode_encodeStake hstake delegator target hamount]
    rfl

variable {lib : CallCodec} {db : Database} {validators : List Address} {number : UInt64}
  {hash : Hash}

/-- A scanned transaction is skipped or its call is recorded. -/
theorem scanCall_ok {state state' : AuditState} {raw : Bytes} {index : Nat}
    (h : scanTransaction lib validators number hash state (raw, index) = .ok state') :
    state' = state ∨ ∃ input,
      state' = record lib validators number hash index raw (decodeStakingCall input) state := by
  simp only [scanTransaction, bind_eq_ok] at h
  obtain ⟨transaction, -, h⟩ := h
  split at h
  · cases h
    exact Or.inl rfl
  · cases h
    exact Or.inr ⟨transaction.payload, rfl⟩

/-- The row of a recorded call. -/
theorem record_call {state next : AuditState} {index : Nat} {raw : Bytes} {call : StakingCall}
    (hnext : next = record lib validators number hash index raw call state) :
    ∃ row : Row, next.rows = state.rows ++ [row] ∧ row.method = call.method ∧
      row.target = call.target ∧ row.amountAtto = call.amount ∧ row.blockNumber = number ∧
      row.transactionIndex = index ∧
      (row.targetKnown = false ↔ call.target ≠ .zero 20 ∧ call.target ∉ validators) := by
  subst hnext
  refine ⟨_, rfl, rfl, rfl, rfl, rfl, rfl, ?_⟩
  rw [decide_eq_false_iff_not, not_or]

theorem CallsKept.step {state : AuditState} (h : CallsKept state) {index : Nat} {raw : Bytes}
    (input : Bytes) :
    CallsKept (record lib validators number hash index raw (decodeStakingCall input) state) := by
  generalize hnext : record lib validators number hash index raw (decodeStakingCall input) state =
    next
  obtain ⟨row, hrows, hmethod, htarget, hamount, hnumber, -, hflag⟩ := record_call hnext.symm
  -- an invalid call names no target, so the flag decides alone
  have hunknown : row.targetKnown = false ↔ (decodeStakingCall input).valid = true ∧
      (decodeStakingCall input).target ≠ .zero 20 ∧
      ¬ (decodeStakingCall input).target ∈ validators := by
    rw [hflag]
    constructor
    · rintro ⟨hnonzero, hother⟩
      exact ⟨valid_of_target hnonzero, hnonzero, hother⟩
    · rintro ⟨-, hnonzero, hother⟩
      exact ⟨hnonzero, hother⟩
  have hmethods : next.methods = update state.methods row.method 0 (· + 1) := by
    rw [← hnext, hmethod]
    rfl
  have hcount : next.unknownTransactions =
      state.unknownTransactions + if row.targetKnown = false then 1 else 0 := by
    rw [if_congr hunknown rfl rfl, ← hnext]
    rfl
  have htargets : next.unknownTargets =
      if row.targetKnown = false then
        addUnknownTarget state.unknownTargets row.target row.blockNumber
          ((callRow row).amountOf "Delegate") ((callRow row).amountOf "Undelegate")
      else state.unknownTargets := by
    have hkind (kind : String) : (callRow row).amountOf kind =
        if (decodeStakingCall input).method = kind then ((decodeStakingCall input).amount : Int)
        else 0 := by
      rw [Listed.amountOf, ← hmethod, ← hamount]
      rfl
    rw [if_congr hunknown rfl rfl, hkind, hkind, htarget, hnumber, ← hnext]
    rfl
  have hstep := Kept.step h (callRow row)
  rw [CallsKept, hrows, List.map_append, List.map_singleton, hmethods, hcount, htargets]
  exact hstep

theorem calls_transaction {state state' : AuditState} {raw : Bytes} {index : Nat}
    (hkept : CallsKept state) (hreached : Reached number index (state.rows.map callRow))
    (h : scanTransaction lib validators number hash state (raw, index) = .ok state') :
    CallsKept state' ∧ Reached number (index + 1) (state'.rows.map callRow) := by
  rcases scanCall_ok h with rfl | ⟨input, hrecord⟩
  · exact ⟨hkept, hreached.skip⟩
  · obtain ⟨row, hrows, -, -, -, hnumber, hindex, -⟩ := record_call hrecord
    constructor
    · rw [hrecord]
      exact hkept.step input
    · rw [hrows, List.map_append, List.map_singleton]
      exact hreached.step hnumber hindex

theorem calls_block {state state' : AuditState} (hkept : CallsKept state)
    (hreached : Reached number 0 (state.rows.map callRow))
    (h : scanBlock lib db validators state number = .ok state') :
    CallsKept state' ∧ ∃ index, Reached number index (state'.rows.map callRow) := by
  simp only [scanBlock, bind_eq_ok] at h
  obtain ⟨⟨hash, body⟩, -, rawTransactions, -, h⟩ := h
  have hdone : CallsKept state' ∧
      Reached number (0 + rawTransactions.length) (state'.rows.map callRow) := by
    refine foldlM_zipIdx (fun index state => CallsKept state ∧
      Reached number index (state.rows.map callRow)) ?_ ?_ h
    · exact fun _ _ _ _ hinv hstep => calls_transaction hinv.1 hinv.2 hstep
    · exact ⟨hkept, hreached⟩
  exact ⟨hdone.1, _, hdone.2⟩

theorem calls_run {endBlock first : UInt64} {visited : List UInt64} {state : AuditState}
    (h : Ends (blockLoop lib db validators endBlock) first {} visited (.ok state)) :
    CallsKept state ∧ (state.rows.map callRow).Pairwise Listed.Before := by
  refine Ends.invariant
    (fun number state => CallsKept state ∧ Reached number 0 (state.rows.map callRow))
    (fun state => CallsKept state ∧ (state.rows.map callRow).Pairwise Listed.Before) ?_ ?_ ?_
    ⟨callsKept_start, reached_nil first 0⟩ h
  · rintro number state next ⟨hkept, hreached⟩ hbody hbreaks
    obtain ⟨hkept', index, hreached'⟩ := calls_block hkept hreached hbody
    exact ⟨hkept', hreached'.next (of_decide_eq_false hbreaks)⟩
  · rintro number state ⟨hkept, hreached⟩
    exact ⟨hkept, hreached.ordered⟩
  · rintro number state next ⟨hkept, hreached⟩ hbody -
    obtain ⟨hkept', index, hreached'⟩ := calls_block hkept hreached hbody
    exact ⟨hkept', hreached'.ordered⟩

end Calls

/-! ## Both commands -/

/-- A summary's counts and unknown targets are those of its rows, which are in order. -/
structure Recounted (rows : List Listed) (counts : List (String × Nat)) (unknown : Nat)
    (targets : List UnknownTarget) : Prop where
  ordered : rows.Pairwise Listed.Before
  counts : counts = recount rows
  unknown : unknown = (unknownRows rows).length
  targets : targets = retarget rows

def envelopeHead : Bytes := 0x87 :: (ascii ['H', 'm', 'n', 'y', 'T', 'g', 'd'] ++ [0x82])

def addressItem (b : UInt8) : Bytes := 0x94 :: List.replicate 20 b

/-- `Delegate` of 5 from the address of ones to that of twos. -/
def delegateMessage : Bytes := 0xeb :: (addressItem 1 ++ (addressItem 2 ++ [0x05]))

def delegateTransaction : Bytes :=
  0xf3 :: 0x02 :: (delegateMessage ++ List.replicate 6 (0x80 : UInt8))

def delegatePayload : Bytes := StakingCalldata.encodeStake StakingCalls.delegateSelector (.fill 20 1)
  (.fill 20 2) 5

/-- A call of the precompile with the same delegation. -/
def callTransaction : Bytes :=
  ([0xf8, 0x84] : Bytes) ++ List.replicate 5 (0x80 : UInt8) ++
    0x94 :: StakingCalls.stakingPrecompile.data ++ ([0x80, 0xb8, 0x64] : Bytes) ++
      delegatePayload ++ List.replicate 3 (0x80 : UInt8)

def callList : Bytes := ([0xf8, 0x86] : Bytes) ++ callTransaction

def delegateList : Bytes := 0xf4 :: delegateTransaction

def bodyRaw : Bytes := ([0xf8, 0xbf] : Bytes) ++ callList ++ delegateList ++ [0xc0, 0xc0]

def bodyBytes : Bytes := ([0xf8, 0xcc] : Bytes) ++ envelopeHead ++ ascii ['v', '2'] ++ bodyRaw

/-- Block 1 with both transactions, and no current validators. -/
def delegatedBlock : Database where
  get key :=
    if key = StateTrie.validatorListKey then .ok [0xc0]
    else if key = canonicalHashKey 1 then .ok (List.replicate 32 1)
    else if key = bodyKey 1 (.fill 32 1) then .ok bodyBytes
    else .error "leveldb: not found"
  has _ := .ok true
  newIterator _ := ([], none)

def delegatedCodec : BodyCodec where
  keccak256 _ := .zero 32
  sha256 _ := List.replicate 32 0
  decodeEnvelope bytes :=
    if bytes = bodyBytes then .ok ⟨"HmnyTgd", "v2", bodyRaw⟩
    else .error "rlp: expected input list"
  decodeFields raw :=
    if raw = bodyRaw then .ok [callList, delegateList, [0xc0], [0xc0]]
    else if raw = callList then .ok [callTransaction]
    else if raw = delegateList then .ok [delegateTransaction]
    else if raw = delegateMessage then .ok [addressItem 1, addressItem 2, [0x05]]
    else .error "rlp: expected input list"

def delegatedStaking : StakingTargets.StakingCodec :=
  { delegatedCodec with
    decodeAddresses := fun raw =>
      if raw = [0xc0] then .ok [] else .error "rlp: expected input list"
    decodeStakingTransaction := fun raw =>
      if raw = delegateTransaction then .ok ⟨2, delegateMessage⟩
      else .error "rlp: expected input list"
    decodeAddress := fun raw =>
      if raw.length = 21 then .ok (.ofBytes 20 (raw.drop 1))
      else .error "rlp: expected input string or byte"
    decodeBig := fun raw =>
      if raw = [0x05] then .ok 5 else .error "rlp: expected input string or byte" }

def delegatedCalls : StakingCalls.CallCodec :=
  { delegatedCodec with
    decodeAddresses := fun raw =>
      if raw = [0xc0] then .ok [] else .error "rlp: expected input list"
    decodeTransaction := fun raw =>
      if raw = callTransaction then .ok ⟨some StakingCalls.stakingPrecompile, delegatePayload⟩
      else .error "rlp: expected input list" }

def delegatedFlags : Flags where
  dbPath := "archive"
  start := 0
  endBlock := 1
  output := "targets.csv"

theorem ok_of_map_toOption {ε α β : Type} {r : Except ε α} {f : α → β} {b : β}
    (h : r.toOption.map f = some b) : ∃ a, r = .ok a ∧ f a = b := by
  cases r with
  | error e => cases h
  | ok a => exact ⟨a, rfl, Option.some.inj h⟩

theorem counts_delegated {σ ε : Type} {step : σ → UInt64 → Except ε σ} :
    Counts (.byOne 1 (fun number => number = lastWord) step) 1 [1] := by
  have hfirst : (1 : UInt64) ≤ 1 := by decide
  have hnot : decide ((1 : UInt64) = lastWord) = false := by decide
  have hlast : ¬ (2 : UInt64) ≤ 1 := by decide
  exact .step 1 [] hfirst hnot (.exit 2 hlast)

end TargetSummaries
