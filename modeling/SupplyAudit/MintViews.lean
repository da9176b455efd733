import Mathlib.Data.List.Dedup
import Mathlib.Data.List.Perm.Basic
import SupplyAudit.UndelegationMint

/-!
# The views of the December mint

The entries, the delegators' totals and the counters follow the repeated payouts
one by one. A validator's total is assigned and not added, so the total and the
validators' view are the same sum exactly when no validator that appears twice
minted both times.
-/

namespace MintViews

open NumeralText FallibleScan KeyedTable TablePublication UndelegationMint

/-! ## Repeated payouts -/

structure Mint where
  validator : String
  delegator : String
  epoch : Int
  amount : Int
  payouts : Int
  deriving DecidableEq

def Mint.minted (m : Mint) : Int := m.amount * m.payouts

def Mint.entry (m : Mint) : Entry where
  validator := m.validator
  delegator := m.delegator
  undelegationEpoch := m.epoch
  amountAtto := toString m.amount
  repeatedPayouts := m.payouts
  mintAtto := toString m.minted
  mintOne := one m.minted

variable (lastPaidEpoch : Int)

/-- The mint of an undelegation, if it was paid more than once. -/
def mintOf (validator delegator : String) (u : Undelegation) : Option Mint :=
  if lastPaidEpoch - (u.epoch + lockPeriod) ≤ 0 then none
  else some ⟨validator, delegator, u.epoch, u.amount, lastPaidEpoch - (u.epoch + lockPeriod)⟩

def delegationMints (validator : String) (d : Delegation) : List Mint :=
  d.undelegations.filterMap (mintOf lastPaidEpoch validator d.delegatorAddress)

def mints (v : Validator) : List Mint :=
  v.delegations.flatMap (delegationMints lastPaidEpoch v.address)

def mintTotal (v : Validator) : Int := ((mints lastPaidEpoch v).map Mint.minted).sum

/-- What the loop does with a mint. -/
def record (st : ScanState) (m : Mint) : ScanState :=
  { st with
    delegatorTotals := update st.delegatorTotals m.delegator 0 fun total => total + m.minted
    affectedEntries := st.affectedEntries ++ [m.entry]
    delegators := st.delegators.insert m.delegator
    entries := st.entries + 1 }

def recordBoth (acc : Int × ScanState) (m : Mint) : Int × ScanState :=
  (acc.1 + m.minted, record acc.2 m)

theorem addUndelegation_eq (validator delegator : String) (acc : Int × ScanState)
    (u : Undelegation) :
    addUndelegation lastPaidEpoch validator delegator acc u =
      (mintOf lastPaidEpoch validator delegator u).elim acc (recordBoth acc) := by
  rw [addUndelegation, mintOf]
  split
  · rfl
  · rfl

theorem addDelegation_eq (validator : String) (acc : Int × ScanState) (d : Delegation) :
    addDelegation lastPaidEpoch validator acc d =
      (delegationMints lastPaidEpoch validator d).foldl recordBoth acc := by
  rw [addDelegation, delegationMints]
  induction d.undelegations generalizing acc with
  | nil => rfl
  | cons u us ih =>
    rw [List.foldl_cons, ih, addUndelegation_eq]
    cases hmint : mintOf lastPaidEpoch validator d.delegatorAddress u with
    | none => rw [List.filterMap_cons_none hmint, Option.elim_none]
    | some m => rw [List.filterMap_cons_some hmint, Option.elim_some, List.foldl_cons]

theorem foldl_recordBoth (ms : List Mint) (acc : Int × ScanState) :
    ms.foldl recordBoth acc = (acc.1 + (ms.map Mint.minted).sum, ms.foldl record acc.2) := by
  induction ms generalizing acc with
  | nil => simp
  | cons m ms ih =>
    rw [List.foldl_cons, ih, List.map_cons, List.sum_cons, ← add_assoc]
    rfl

/-- A validator's mints are recorded, and their sum is assigned unless it is zero. -/
theorem addValidator_eq (st : ScanState) (v : Validator) :
    addValidator lastPaidEpoch st v =
      if mintTotal lastPaidEpoch v ≠ 0 then
        { (mints lastPaidEpoch v).foldl record st with
          validatorTotals := KeyedTable.set ((mints lastPaidEpoch v).foldl record st).validatorTotals
            v.address (mintTotal lastPaidEpoch v) }
      else (mints lastPaidEpoch v).foldl record st := by
  have hfold : v.delegations.foldl (addDelegation lastPaidEpoch v.address) (0, st) =
      (mints lastPaidEpoch v).foldl recordBoth (0, st) := by
    rw [mints, List.foldl_flatMap]
    congr 1
    funext acc d
    exact addDelegation_eq lastPaidEpoch v.address acc d
  rw [addValidator, hfold, foldl_recordBoth, zero_add]
  rfl

/-! ## The loop over validators -/

/-- The mints of all validators scanned. -/
def allMints (vs : List Validator) : List Mint := vs.flatMap (mints lastPaidEpoch)

/-- The totals that are assigned, in turn. -/
def assigned (vs : List Validator) : List (String × Int) :=
  (vs.filter fun v => mintTotal lastPaidEpoch v ≠ 0).map fun v =>
    (v.address, mintTotal lastPaidEpoch v)

def credited (m : Mint) (total : Int) : Int := total + m.minted

/-- The variables after the validators scanned so far. -/
structure Scanned (vs : List Validator) (st : ScanState) : Prop where
  entries : st.affectedEntries = (allMints lastPaidEpoch vs).map Mint.entry
  count : st.entries = (allMints lastPaidEpoch vs).length
  delegatorTotals :
    st.delegatorTotals = grouped Mint.delegator 0 credited [] (allMints lastPaidEpoch vs)
  delegators : ∀ delegator, delegator ∈ st.delegators ↔
    ∃ m ∈ allMints lastPaidEpoch vs, m.delegator = delegator
  distinct : st.delegators.Nodup
  validatorTotals : st.validatorTotals = written [] (assigned lastPaidEpoch vs)

theorem scanned_start : Scanned lastPaidEpoch [] {} :=
  ⟨rfl, rfl, rfl, fun _ => by simp [allMints], List.nodup_nil, rfl⟩

theorem entries_record (ms : List Mint) (st : ScanState) :
    (ms.foldl record st).affectedEntries = st.affectedEntries ++ ms.map Mint.entry := by
  induction ms generalizing st with
  | nil => simp
  | cons m ms ih => simp [ih, record]

theorem count_record (ms : List Mint) (st : ScanState) :
    (ms.foldl record st).entries = st.entries + ms.length := by
  induction ms generalizing st with
  | nil => rfl
  | cons m ms ih =>
    have hone : (record st m).entries = st.entries + 1 := rfl
    rw [List.foldl_cons, ih, List.length_cons, hone]
    omega

theorem delegatorTotals_record (ms : List Mint) (st : ScanState) :
    (ms.foldl record st).delegatorTotals =
      grouped Mint.delegator 0 credited st.delegatorTotals ms := by
  induction ms generalizing st with
  | nil => rfl
  | cons m ms ih => exact ih (record st m)

theorem delegators_record (ms : List Mint) (st : ScanState) (delegator : String) :
    delegator ∈ (ms.foldl record st).delegators ↔
      delegator ∈ st.delegators ∨ ∃ m ∈ ms, m.delegator = delegator := by
  induction ms generalizing st with
  | nil => simp
  | cons m ms ih =>
    rw [List.foldl_cons, ih, record, List.mem_insert_iff, List.exists_mem_cons_iff,
      eq_comm (a := delegator), or_assoc, or_left_comm]

theorem distinct_record (ms : List Mint) {st : ScanState} (h : st.delegators.Nodup) :
    (ms.foldl record st).delegators.Nodup := by
  induction ms generalizing st with
  | nil => exact h
  | cons m ms ih => exact ih (h.insert (a := m.delegator))

theorem validatorTotals_record (ms : List Mint) (st : ScanState) :
    (ms.foldl record st).validatorTotals = st.validatorTotals := by
  induction ms generalizing st with
  | nil => rfl
  | cons m ms ih => exact ih (record st m)

variable {lastPaidEpoch}

theorem allMints_concat (vs : List Validator) (v : Validator) :
    allMints lastPaidEpoch (vs ++ [v]) = allMints lastPaidEpoch vs ++ mints lastPaidEpoch v := by
  simp [allMints]

theorem Scanned.add {vs : List Validator} {st : ScanState} (h : Scanned lastPaidEpoch vs st)
    (v : Validator) : Scanned lastPaidEpoch (vs ++ [v]) (addValidator lastPaidEpoch st v) := by
  have hassigned : assigned lastPaidEpoch (vs ++ [v]) = assigned lastPaidEpoch vs ++
      if mintTotal lastPaidEpoch v ≠ 0 then [(v.address, mintTotal lastPaidEpoch v)] else [] := by
    rw [assigned, List.filter_append, List.map_append, List.filter_singleton, assigned]
    split <;> simp_all
  have hrecorded : Scanned lastPaidEpoch (vs ++ [v])
      { (mints lastPaidEpoch v).foldl record st with
        validatorTotals := written [] (assigned lastPaidEpoch (vs ++ [v])) } := by
    constructor
    · rw [entries_record, h.entries, allMints_concat, List.map_append]
    · rw [count_record, h.count, allMints_concat, List.length_append]
    · rw [delegatorTotals_record, h.delegatorTotals, allMints_concat, grouped, grouped, grouped,
        List.foldl_append]
    · intro delegator
      rw [delegators_record, h.delegators, allMints_concat]
      simp only [List.mem_append, or_and_right, exists_or]
    · exact distinct_record _ h.distinct
    · rfl
  rw [addValidator_eq, validatorTotals_record, h.validatorTotals]
  rw [hassigned] at hrecorded
  by_cases hzero : mintTotal lastPaidEpoch v ≠ 0
  · rw [if_pos hzero] at hrecorded ⊢
    rw [written, List.foldl_append] at hrecorded
    exact hrecorded
  · rw [if_neg hzero, List.append_nil] at hrecorded
    rw [if_neg hzero]
    rw [← h.validatorTotals, ← validatorTotals_record (mints lastPaidEpoch v) st] at hrecorded
    exact hrecorded

theorem Scanned.batch {vs : List Validator} {st : ScanState} (h : Scanned lastPaidEpoch vs st)
    (batch : List Validator) :
    Scanned lastPaidEpoch (vs ++ batch) (addBatch lastPaidEpoch st batch) := by
  have hrun : ∀ done st, Scanned lastPaidEpoch done st →
      Scanned lastPaidEpoch (done ++ batch) (batch.foldl (addValidator lastPaidEpoch) st) := by
    induction batch with
    | nil =>
      intro done st hst
      rwa [List.append_nil]
    | cons v batch ih =>
      intro done st hst
      have hnext := ih (done ++ [v]) _ (hst.add v)
      rwa [List.append_assoc, List.singleton_append] at hnext
  exact hrun vs _ ⟨h.entries, h.count, h.delegatorTotals, h.delegators, h.distinct,
    h.validatorTotals⟩

/-! ## The loop over pages -/

/-- The node answers these pages from a page on, none of them empty, and then an
empty one. -/
def Serves (node : Node) : Nat → List (List Validator) → Prop
  | page, [] => node.validators page = .ok []
  | page, batch :: rest =>
    batch ≠ [] ∧ node.validators page = .ok batch ∧ Serves node (page + 1) rest

theorem scanPages_serves {node : Node} {page : Nat} {pages : List (List Validator)}
    (hserves : Serves node page pages) {fuel : Nat} (hfuel : pages.length < fuel)
    {done : List Validator} {st : ScanState} (h : Scanned lastPaidEpoch done st) :
    ∃ st', scanPages node lastPaidEpoch fuel page st = some (.ok st') ∧
      Scanned lastPaidEpoch (done ++ pages.flatten) st' := by
  induction pages generalizing page fuel done st with
  | nil =>
    obtain ⟨n, rfl⟩ : ∃ n, fuel = n + 1 := ⟨fuel - 1, by simp only [List.length_nil] at hfuel; omega⟩
    rw [List.flatten_nil, List.append_nil]
    refine ⟨st, ?_, h⟩
    rw [scanPages, (hserves : node.validators page = .ok [])]
  | cons batch rest ih =>
    obtain ⟨hne, hpage, hrest⟩ := hserves
    obtain ⟨n, rfl⟩ : ∃ n, fuel = n + 1 := ⟨fuel - 1, by omega⟩
    have hshort : rest.length < n := by
      rw [List.length_cons] at hfuel
      omega
    obtain ⟨st', hscan, hscanned⟩ := ih hrest hshort (h.batch batch)
    refine ⟨st', ?_, ?_⟩
    · cases batch with
      | nil => exact absurd rfl hne
      | cons v batch =>
        rw [scanPages, hpage]
        exact hscan
    · rwa [List.flatten_cons, ← List.append_assoc]

/-! ## Sums of the result -/

/-- The texts are numerals that add up to the total. -/
def AddsTo (texts : List String) (total : Int) : Prop :=
  ∃ amounts, texts.mapM readInt = some amounts ∧ amounts.sum = total

/-- The views of the result agree. -/
structure ViewsAgree (r : Result) : Prop where
  total : ∃ total, readInt r.totalAtto = some total ∧
    AddsTo (r.byValidator.map AmountRow.atto) total ∧
    AddsTo (r.byDelegator.map AmountRow.atto) total ∧
    AddsTo (r.entries.map Entry.mintAtto) total
  entries : r.badUndelegationEntries = r.entries.length
  delegators : r.affectedDelegators = (r.entries.map Entry.delegator).dedup.length

/-- An undelegation of a positive amount that was paid more than once. -/
def HasMint (epoch : Int) (v : Validator) : Prop :=
  ∃ d ∈ v.delegations, ∃ u ∈ d.undelegations, 0 < u.amount ∧ u.epoch + lockPeriod < epoch - 1

/-- No two validators of one address have both minted. -/
def MintsOnce (epoch : Int) (vs : List Validator) : Prop :=
  vs.Pairwise fun v w => v.address = w.address → ¬ (HasMint epoch v ∧ HasMint epoch w)

def NonnegativeAmounts (vs : List Validator) : Prop :=
  ∀ v ∈ vs, ∀ d ∈ v.delegations, ∀ u ∈ d.undelegations, 0 ≤ u.amount

theorem addsTo_iff {α : Type} (value : α → Int) (l : List α) (total : Int) :
    AddsTo (l.map fun a => toString (value a)) total ↔ (l.map value).sum = total := by
  have hread : (l.map fun a => toString (value a)).mapM readInt = some (l.map value) := by
    rw [List.mapM_map]
    exact mapM_readInt value l
  rw [AddsTo, hread]
  constructor
  · rintro ⟨amounts, hamounts, hsum⟩
    cases hamounts
    exact hsum
  · intro hsum
    exact ⟨_, rfl, hsum⟩

/-- A listing of amounts adds up to the table. -/
theorem addsTo_amountRows (table : List (String × Int)) (amount : Int) :
    AddsTo ((amountRows table).map AmountRow.atto) amount ↔ total id table = amount := by
  have hrows : (amountRows table).map AmountRow.atto =
      (table.insertionSort LargerFirst).map fun entry => toString entry.2 := by
    rw [amountRows, List.map_map]
    rfl
  rw [hrows, addsTo_iff Prod.snd]
  rw [((List.perm_insertionSort LargerFirst table).map Prod.snd).sum_eq]
  rfl

theorem mem_mints_iff {v : Validator} {m : Mint} :
    m ∈ mints lastPaidEpoch v ↔ ∃ d ∈ v.delegations, ∃ u ∈ d.undelegations,
      0 < lastPaidEpoch - (u.epoch + lockPeriod) ∧
        m = ⟨v.address, d.delegatorAddress, u.epoch, u.amount,
          lastPaidEpoch - (u.epoch + lockPeriod)⟩ := by
  simp only [mints, delegationMints, List.mem_flatMap, List.mem_filterMap, mintOf]
  constructor
  · rintro ⟨d, hd, u, hu, hm⟩
    split at hm
    · cases hm
    · rename_i hpaid
      exact ⟨d, hd, u, hu, by omega, (Option.some.inj hm).symm⟩
  · rintro ⟨d, hd, u, hu, hpaid, rfl⟩
    exact ⟨d, hd, u, hu, if_neg (by omega)⟩

theorem minted_nonneg {vs : List Validator} (h : NonnegativeAmounts vs) {v : Validator}
    (hv : v ∈ vs) : ∀ m ∈ mints lastPaidEpoch v, 0 ≤ m.minted := by
  intro m hm
  obtain ⟨d, hd, u, hu, hpaid, rfl⟩ := mem_mints_iff.mp hm
  exact Int.mul_nonneg (h v hv d hd u hu) (Int.le_of_lt hpaid)

/-- A validator's total is zero unless one of its undelegations minted. -/
theorem mintTotal_pos_iff {epoch : Int} {vs : List Validator} (h : NonnegativeAmounts vs)
    {v : Validator} (hv : v ∈ vs) : mintTotal (epoch - 1) v ≠ 0 ↔ HasMint epoch v := by
  rw [mintTotal, Ne, sum_eq_zero_iff_of_nonneg (minted_nonneg h hv)]
  simp only [not_forall]
  constructor
  · rintro ⟨m, hm, hne⟩
    obtain ⟨d, hd, u, hu, hpaid, rfl⟩ := mem_mints_iff.mp hm
    have hamount : u.amount ≠ 0 := by
      intro hzero
      exact hne (by simp [Mint.minted, hzero])
    have hnonneg := h v hv d hd u hu
    exact ⟨d, hd, u, hu, by omega, by omega⟩
  · rintro ⟨d, hd, u, hu, hamount, hpaid⟩
    have hpayouts : 0 < epoch - 1 - (u.epoch + lockPeriod) := by omega
    refine ⟨_, mem_mints_iff.mpr ⟨d, hd, u, hu, hpayouts, rfl⟩, ?_⟩
    exact Int.ne_of_gt (Int.mul_pos hamount hpayouts)

theorem mintTotal_nonneg {vs : List Validator} (h : NonnegativeAmounts vs) {v : Validator}
    (hv : v ∈ vs) : 0 ≤ mintTotal lastPaidEpoch v := by
  have hmints : ∀ z ∈ (mints lastPaidEpoch v).map Mint.minted, 0 ≤ z :=
    List.forall_mem_map.mpr (minted_nonneg h hv)
  exact List.sum_nonneg hmints

theorem sum_assigned (vs : List Validator) :
    ((assigned lastPaidEpoch vs).map Prod.snd).sum =
      ((allMints lastPaidEpoch vs).map Mint.minted).sum := by
  have hzero : ∀ v ∈ vs, decide (mintTotal lastPaidEpoch v ≠ 0) = false →
      mintTotal lastPaidEpoch v = 0 :=
    fun v _ hv => not_not.mp (of_decide_eq_false hv)
  rw [allMints, sum_map_flatMap, assigned, List.map_map]
  exact sum_map_filter hzero

/-- The validators' totals are the whole mint when no total replaces another. -/
theorem total_assigned_iff {epoch : Int} {vs : List Validator} (h : NonnegativeAmounts vs) :
    total id (written [] (assigned (epoch - 1) vs)) =
      ((allMints (epoch - 1) vs).map Mint.minted).sum ↔ MintsOnce epoch vs := by
  have hpos : ∀ entry ∈ assigned (epoch - 1) vs, 0 < entry.2 := by
    intro entry hentry
    obtain ⟨v, hv, rfl⟩ := List.mem_map.mp hentry
    obtain ⟨hmem, hne⟩ := List.mem_filter.mp hv
    have hnonneg := @mintTotal_nonneg (epoch - 1) vs h v hmem
    have hnonzero : mintTotal (epoch - 1) v ≠ 0 := of_decide_eq_true hne
    change 0 < mintTotal (epoch - 1) v
    omega
  have hnil : (([] : List (String × Int)).map Prod.fst).Nodup := List.nodup_nil
  have hlost := (total_written hnil (fun _ hentry => absurd hentry List.not_mem_nil) hpos).2
  have hkeys : ((assigned (epoch - 1) vs).map Prod.fst).Nodup ↔ MintsOnce epoch vs := by
    have hmap : (assigned (epoch - 1) vs).map Prod.fst =
        (vs.filter fun v => mintTotal (epoch - 1) v ≠ 0).map Validator.address := by
      rw [assigned, List.map_map]
      rfl
    rw [hmap, List.Nodup, List.pairwise_map, List.pairwise_filter, MintsOnce]
    apply List.Pairwise.iff_of_mem
    intro v w hv hw
    rw [decide_eq_true_iff, decide_eq_true_iff, mintTotal_pos_iff h hv, mintTotal_pos_iff h hw]
    tauto
  have hempty : total id ([] : List (String × Int)) = 0 := rfl
  rw [hempty, Int.zero_add, sum_assigned] at hlost
  rw [hlost, hkeys]
  simp

theorem total_credited (ms : List Mint) :
    total id (grouped Mint.delegator 0 credited [] ms) = (ms.map Mint.minted).sum := by
  have hnil : (([] : List (String × Int)).map Prod.fst).Nodup := List.nodup_nil
  have hcredited : ∀ (m : Mint) (held : Int), True → id (credited m held) = id held + m.minted :=
    fun _ _ _ => rfl
  have hsum := total_grouped Mint.delegator 0 credited (P := fun _ => True) trivial rfl
    (fun _ _ _ => trivial) hcredited hnil (fun _ _ => trivial) ms
  rw [hsum]
  exact Int.zero_add _

/-- The sorted entries are those of the mints in some order. -/
theorem exists_sorted_mints {entries : List Entry} {all : List Mint}
    (h : entries = all.map Mint.entry) :
    ∃ ms : List Mint, ms.Perm all ∧ entries.insertionSort EntryBefore = ms.map Mint.entry := by
  have hlisted : List.Forall₂ (fun entry (m : Mint) => entry = m.entry) entries all := by
    rw [h, List.forall₂_map_left_iff, List.forall₂_same]
    exact fun _ _ => rfl
  obtain ⟨ms, hentries, hms⟩ :=
    List.perm_comp_forall₂ (List.perm_insertionSort EntryBefore entries) hlisted
  refine ⟨ms, hms, ?_⟩
  rw [← List.forall₂_eq_eq_eq, List.forall₂_map_right_iff]
  exact hentries

/-- The parts of the result that follow the mints one by one. -/
theorem Scanned.follows {vs : List Validator} {st : ScanState} (h : Scanned lastPaidEpoch vs st)
    (block : Block) :
    (∀ total, AddsTo ((result block st).byDelegator.map AmountRow.atto) total ↔
        ((allMints lastPaidEpoch vs).map Mint.minted).sum = total) ∧
      (∀ total, AddsTo ((result block st).entries.map Entry.mintAtto) total ↔
        ((allMints lastPaidEpoch vs).map Mint.minted).sum = total) ∧
      (result block st).badUndelegationEntries = (result block st).entries.length ∧
      (result block st).affectedDelegators =
        ((result block st).entries.map Entry.delegator).dedup.length := by
  have hperm := List.perm_insertionSort EntryBefore st.affectedEntries
  refine ⟨?_, ?_, ?_, ?_⟩
  · intro total
    rw [← total_credited, ← h.delegatorTotals]
    exact addsTo_amountRows st.delegatorTotals total
  · intro total
    obtain ⟨ms, hms, hsorted⟩ := exists_sorted_mints h.entries
    change AddsTo ((st.affectedEntries.insertionSort EntryBefore).map Entry.mintAtto) total ↔ _
    rw [hsorted, List.map_map, ← (hms.map Mint.minted).sum_eq]
    exact addsTo_iff Mint.minted ms total
  · have hlength : st.entries = st.affectedEntries.length := by
      rw [h.count, h.entries, List.length_map]
    exact hlength.trans hperm.length_eq.symm
  · have hdelegators : st.delegators.Perm
        ((st.affectedEntries.insertionSort EntryBefore).map Entry.delegator).dedup := by
      apply (List.perm_ext_iff_of_nodup h.distinct (List.nodup_dedup _)).mpr
      intro delegator
      rw [List.mem_dedup, (hperm.map Entry.delegator).mem_iff, h.entries, h.delegators,
        List.map_map, List.mem_map]
      rfl
    exact hdelegators.length_eq

/-- For any pages of the node, the views of the result agree exactly when no two
validators of one address have both minted. -/
theorem views_agree_iff {node : Node} {block : Block} (hblock : node.blockByNumber = .ok block)
    {pages : List (List Validator)} (hserves : Serves node 0 pages)
    (hamounts : NonnegativeAmounts pages.flatten) {fuel : Nat} (hfuel : pages.length < fuel) :
    ∃ r, main node fuel = some (.ok r) ∧
      (ViewsAgree r ↔ MintsOnce block.epoch pages.flatten) := by
  obtain ⟨st, hscan, hscanned⟩ :=
    scanPages_serves hserves hfuel (scanned_start (block.epoch - 1))
  rw [List.nil_append] at hscanned
  have hmain : main node fuel = some (.ok (result block st)) := by
    rw [main, hblock]
    simp only [hscan]
  refine ⟨result block st, hmain, ?_⟩
  obtain ⟨hdelegators, hentries, hcount, haffected⟩ := hscanned.follows block
  have htotal : readInt (result block st).totalAtto = some (total id st.validatorTotals) :=
    readInt_toString _
  rw [← total_assigned_iff hamounts, ← hscanned.validatorTotals]
  constructor
  · intro hagree
    obtain ⟨amount, hread, -, hview, -⟩ := hagree.total
    have hsame := Option.some.inj (htotal.symm.trans hread)
    exact hsame.trans ((hdelegators amount).mp hview).symm
  · intro hsum
    refine ⟨⟨_, htotal, ?_, ?_, ?_⟩, hcount, haffected⟩
    · exact (addsTo_amountRows st.validatorTotals _).mpr rfl
    · exact (hdelegators _).mpr hsum.symm
    · exact (hentries _).mpr hsum.symm

/-! ## A validator on two pages -/

/-- A validator of which one undelegation of 100 atto was paid in two epochs too many. -/
def samplePage (epoch : Int) : List Validator :=
  [⟨"one1validator", [⟨"one1delegator", [⟨epoch - 10, 100⟩]⟩]⟩]

def sampleNode (pages : List (List Validator)) : Node where
  blockByNumber := .ok ⟨"0x01", 1700⟩
  validators page := .ok ((pages[page]?).getD [])

theorem views_agree_sample : ∃ r, main (sampleNode [samplePage 1700]) 2 = some (.ok r) ∧
    ViewsAgree r := by
  have hserves : Serves (sampleNode [samplePage 1700]) 0 [samplePage 1700] :=
    ⟨List.cons_ne_nil _ _, rfl, rfl⟩
  have hamounts : NonnegativeAmounts [samplePage 1700].flatten := by
    simp [NonnegativeAmounts, samplePage]
  obtain ⟨r, hmain, hiff⟩ := views_agree_iff rfl hserves hamounts (by decide : 1 < 2)
  exact ⟨r, hmain, hiff.mpr (List.pairwise_singleton _ _)⟩

/-- The same validator on both pages is credited twice and counted once. -/
theorem repeated_validator_disagrees : ∃ r,
    main (sampleNode [samplePage 1700, samplePage 1700]) 3 = some (.ok r) ∧
      r.totalAtto = "200" ∧ r.byDelegator.map AmountRow.atto = ["400"] ∧
      r.entries.map Entry.mintAtto = ["200", "200"] ∧ ¬ ViewsAgree r := by
  have hrun : ((main (sampleNode [samplePage 1700, samplePage 1700]) 3).map fun answer =>
      answer.map fun r => (r.totalAtto, r.byDelegator.map AmountRow.atto,
        r.entries.map Entry.mintAtto)) = some (.ok ("200", ["400"], ["200", "200"])) := by
    decide +kernel
  cases hmain : main (sampleNode [samplePage 1700, samplePage 1700]) 3 with
  | none =>
    rw [hmain] at hrun
    cases hrun
  | some answer =>
    cases answer with
    | error err =>
      rw [hmain] at hrun
      cases hrun
    | ok r =>
      rw [hmain] at hrun
      have hparts := Except.ok.inj (Option.some.inj hrun)
      have htotal : r.totalAtto = "200" := congrArg Prod.fst hparts
      have hdelegators : r.byDelegator.map AmountRow.atto = ["400"] :=
        congrArg (fun parts => parts.2.1) hparts
      refine ⟨r, rfl, htotal, hdelegators, congrArg (fun parts => parts.2.2) hparts, ?_⟩
      intro hagree
      obtain ⟨amount, hread, -, ⟨amounts, hamounts, hsum⟩, -⟩ := hagree.total
      rw [htotal, (by decide +kernel : readInt "200" = some 200)] at hread
      rw [hdelegators, (by decide +kernel : ["400"].mapM readInt = some [400])] at hamounts
      cases hread
      cases hamounts
      cases hsum

end MintViews
