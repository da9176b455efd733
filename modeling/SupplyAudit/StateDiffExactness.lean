import Mathlib.Data.List.ReduceOption
import SupplyAudit.FallibleScan
import SupplyAudit.HistoricalStateDiff
import SupplyAudit.IndependentSums
import SupplyAudit.KeyedDifference
import SupplyAudit.WrapperTotals

/-!
# The state difference is complete and exact

If the iterator over a difference serves what one trie has beyond the other,
the two passes report every changed account once, as what it was and what it
is, and the deltas add up to the difference of the total balances.
-/

namespace StateDiffExactness

open ByteWords ReceiptKeys ChainDatabase FallibleScan KeyedTable KeyedDifference StateTrie
open WrapperTotals HistoricalStateDiff

/-! ## What the passes decide about one leaf -/

section Rows
variable (codec : StateCodec) (db : Database)

/-- The row of a leaf in the forward pass. -/
def forwardRow (old : AccountTrie) (leaf : Hash × Bytes) : Except String ChangeRow :=
  match old.tryGet leaf.1 with
  | .error err => .error ("read old account " ++ NumeralText.hexText leaf.1.data ++ ": " ++ err)
  | .ok found => do
    let oldValue ← decodeAccount codec (found.getD []) leaf.1
    let newValue ← decodeAccount codec leaf.2 leaf.1
    let address ← changeAddress codec db leaf.1
    let changeType := if (found.getD []).length = 0 then ChangeType.created else .changed
    .ok ⟨leaf.1, address, changeType, oldValue, newValue⟩

/-- The row of a leaf in the reverse pass, if the new trie does not have its key. -/
def reverseRow (new : AccountTrie) (leaf : Hash × Bytes) : Except String (Option ChangeRow) :=
  match new.tryGet leaf.1 with
  | .error err => .error ("read new account " ++ NumeralText.hexText leaf.1.data ++ ": " ++ err)
  | .ok found =>
    if (found.getD []).length ≠ 0 then .ok none
    else do
      let oldValue ← decodeAccount codec leaf.2 leaf.1
      let address ← changeAddress codec db leaf.1
      .ok (some ⟨leaf.1, address, .deleted, oldValue, .absent⟩)

/-- The progress after one more row. -/
def recordRow (p : Progress) (row : ChangeRow) : Progress where
  rows := p.rows ++ [row]
  positiveDelta := p.positiveDelta + if 0 < row.delta then row.delta else 0
  negativeDelta := p.negativeDelta + if row.delta < 0 then -row.delta else 0
  netDelta := p.netDelta + row.delta
  created := p.created + if row.changeType = .created then 1 else 0
  changed := p.changed + if row.changeType = .changed then 1 else 0
  deleted := p.deleted + if row.changeType = .deleted then 1 else 0
  missingPreimages :=
    p.missingPreimages + if (readPreimage db row.key).length = 0 then 1 else 0

theorem forwardLeaf_eq (old : AccountTrie) (p : Progress) (leaf : Hash × Bytes) :
    forwardLeaf codec db old p leaf = (forwardRow codec db old leaf).map (recordRow db p) := by
  rw [forwardLeaf, forwardRow]
  cases old.tryGet leaf.1 with
  | error err => rfl
  | ok found =>
    dsimp only
    cases decodeAccount codec (found.getD []) leaf.1 with
    | error err => rfl
    | ok oldValue =>
      cases decodeAccount codec leaf.2 leaf.1 with
      | error err => rfl
      | ok newValue =>
        simp only [bind_ok, writeChange]
        cases changeAddress codec db leaf.1 with
        | error err => split <;> rfl
        | ok address =>
          by_cases hcreated : (found.getD []).length = 0
          · simp only [if_pos hcreated]
            rfl
          · simp only [if_neg hcreated]
            rfl

theorem reverseLeaf_eq (new : AccountTrie) (p : Progress) (leaf : Hash × Bytes) :
    reverseLeaf codec db new p leaf =
      (reverseRow codec db new leaf).map fun row => row.elim p (recordRow db p) := by
  rw [reverseLeaf, reverseRow]
  cases new.tryGet leaf.1 with
  | error err => rfl
  | ok found =>
    dsimp only
    by_cases hkept : (found.getD []).length ≠ 0
    · rw [if_pos hkept, if_pos hkept]
      rfl
    · rw [if_neg hkept, if_neg hkept]
      cases decodeAccount codec leaf.2 leaf.1 with
      | error err => rfl
      | ok oldValue =>
        have habsent : decodeAccount codec [] leaf.1 = .ok .absent := rfl
        simp only [bind_ok, habsent, writeChange]
        cases changeAddress codec db leaf.1 <;> rfl

end Rows

variable {codec : StateCodec} {db : Database} {forward reverse : Difference}
variable {old new : AccountTrie}

theorem checkIteration_ok {direction : String} {iteration : Difference} {u : Unit}
    (h : checkIteration direction iteration = .ok u) : iteration.err = none := by
  rw [checkIteration] at h
  split at h
  · cases h
  · assumption

/-- Leaves without a row leave the progress as it was. -/
theorem foldl_kept (kept : List (Option ChangeRow)) (p : Progress) :
    kept.foldl (fun p row => row.elim p (recordRow db p)) p =
      kept.reduceOption.foldl (recordRow db) p := by
  induction kept generalizing p with
  | nil => rfl
  | cons row kept ih =>
    cases row with
    | none => exact ih p
    | some row => exact ih (recordRow db p row)

/-- A completed run has recorded the rows of both passes, in order. -/
theorem collect_ok {p : Progress} (h : collect codec db forward reverse old new = .ok p) :
    forward.err = none ∧ reverse.err = none ∧ ∃ rows kept,
      forward.leaves.mapM (forwardRow codec db old) = .ok rows ∧
      reverse.leaves.mapM (reverseRow codec db new) = .ok kept ∧
      p = (rows ++ kept.reduceOption).foldl (recordRow db) {} := by
  simp only [collect, bind_eq_ok, foldlM_eq_mapM (forwardLeaf_eq codec db old),
    foldlM_eq_mapM (reverseLeaf_eq codec db new)] at h
  obtain ⟨q, hforward, u, hcheck, q', hreverse, u', hcheck', h⟩ := h
  cases h
  refine ⟨checkIteration_ok hcheck, checkIteration_ok hcheck', ?_⟩
  cases hrows : forward.leaves.mapM (forwardRow codec db old) with
  | error err => rw [hrows] at hforward; cases hforward
  | ok rows =>
    rw [hrows] at hforward
    cases hforward
    cases hkept : reverse.leaves.mapM (reverseRow codec db new) with
    | error err => rw [hkept] at hreverse; cases hreverse
    | ok kept =>
      rw [hkept] at hreverse
      cases hreverse
      exact ⟨rows, kept, rfl, rfl, (foldl_kept kept _).trans List.foldl_append.symm⟩

/-! ## What a row says -/

/-- The value of a key under a root; a key without an account has the absent value. -/
def valueAt (codec : StateCodec) (trie : AccountTrie) (key : Hash) : Except String AccountValue :=
  decodeAccount codec ((trie.leaves.lookup key).getD []) key

/-- The change at a key, by what the two tries hold there. -/
def changeAt (old new : AccountTrie) (key : Hash) : ChangeType :=
  if old.leaves.lookup key = none then .created
  else if new.leaves.lookup key = none then .deleted
  else .changed

/-- A row that reports the change at its key as it is. -/
structure Reports (codec : StateCodec) (db : Database) (old new : AccountTrie) (row : ChangeRow) :
    Prop where
  changeType : row.changeType = changeAt old new row.key
  oldValue : valueAt codec old row.key = .ok row.oldValue
  newValue : valueAt codec new row.key = .ok row.newValue
  address : changeAddress codec db row.key = .ok row.address

theorem keys_nodup (trie : AccountTrie) : (trie.leaves.map Prod.fst).Nodup :=
  nodup_of_increasing trie.increasing

/-- Only a key without an account looks up nothing. -/
theorem length_eq_zero_iff (trie : AccountTrie) (key : Hash) :
    ((trie.leaves.lookup key).getD []).length = 0 ↔ trie.leaves.lookup key = none := by
  cases hfound : trie.leaves.lookup key with
  | none => simp
  | some encoded =>
    have hne : encoded ≠ [] := trie.nonempty _ (mem_of_lookup hfound)
    simpa using hne

theorem forwardRow_ok {leaf : Hash × Bytes} {row : ChangeRow}
    (hleaf : leaf ∈ new.leaves) (h : forwardRow codec db old leaf = .ok row) :
    row.key = leaf.1 ∧ Reports codec db old new row := by
  rw [forwardRow] at h
  cases hget : old.tryGet leaf.1 with
  | error err => rw [hget] at h; cases h
  | ok found =>
    have hfound := old.truthful _ _ hget
    subst hfound
    simp only [hget, bind_eq_ok] at h
    obtain ⟨oldValue, hold, newValue, hnew, address, haddress, h⟩ := h
    cases h
    have hlookup := lookup_of_mem (keys_nodup new) hleaf
    refine ⟨rfl, ?_, hold, ?_, haddress⟩
    · simp only [changeAt, length_eq_zero_iff, hlookup, reduceCtorEq, if_false]
    · rw [valueAt, hlookup]
      exact hnew

theorem reverseRow_ok {leaf : Hash × Bytes} {kept : Option ChangeRow}
    (hleaf : leaf ∈ old.leaves) (h : reverseRow codec db new leaf = .ok kept) :
    kept.map ChangeRow.key = (if (new.leaves.lookup leaf.1).isNone then some leaf.1 else none) ∧
      ∀ row ∈ kept, Reports codec db old new row := by
  rw [reverseRow] at h
  cases hget : new.tryGet leaf.1 with
  | error err => rw [hget] at h; cases h
  | ok found =>
    have hfound := new.truthful _ _ hget
    subst hfound
    simp only [hget] at h
    by_cases hkept : ((new.leaves.lookup leaf.1).getD []).length ≠ 0
    · rw [if_pos hkept] at h
      cases h
      rw [ne_eq, length_eq_zero_iff] at hkept
      refine ⟨?_, nofun⟩
      rw [if_neg (by simpa using hkept)]
      rfl
    · rw [if_neg hkept] at h
      simp only [bind_eq_ok] at h
      obtain ⟨oldValue, hold, address, haddress, h⟩ := h
      cases h
      rw [ne_eq, not_not, length_eq_zero_iff] at hkept
      have hlookup := lookup_of_mem (keys_nodup old) hleaf
      constructor
      · rw [if_pos (by simpa using hkept)]
        rfl
      · rintro row ⟨rfl⟩
        refine ⟨?_, ?_, ?_, haddress⟩
        · simp only [changeAt, hlookup, hkept, reduceCtorEq, if_false, if_true]
        · rw [valueAt, hlookup]
          exact hold
        · rw [valueAt, hkept]
          rfl

/-! ## All rows -/

/-- The iterator serves exactly what one trie has beyond the other, each leaf once. -/
def YieldsDifference (difference : AccountTrie → AccountTrie → Difference)
    (a b : AccountTrie) : Prop :=
  (difference a b).err = none → Lists a.leaves b.leaves (difference a b).leaves

/-- The rows of both passes have the keys that the passes find. -/
theorem keys_of_rows (hforward : Lists old.leaves new.leaves forward.leaves)
    (hreverse : Lists new.leaves old.leaves reverse.leaves) {rows : List ChangeRow}
    {kept : List (Option ChangeRow)}
    (hrows : forward.leaves.mapM (forwardRow codec db old) = .ok rows)
    (hkept : reverse.leaves.mapM (reverseRow codec db new) = .ok kept) :
    (rows ++ kept.reduceOption).map ChangeRow.key =
        forward.leaves.map Prod.fst ++ (dropped new.leaves reverse.leaves).map Prod.fst ∧
      ∀ row ∈ rows ++ kept.reduceOption, Reports codec db old new row := by
  have hfirst : forward.leaves.map Prod.fst = rows.map ChangeRow.key :=
    map_eq_of_mapM_ok_mem hrows fun leaf hleaf row hrow =>
      (forwardRow_ok ((hforward.exact leaf).mp hleaf).1 hrow).1.symm
  have hsecond : (dropped new.leaves reverse.leaves).map Prod.fst =
      kept.reduceOption.map ChangeRow.key := by
    have hkeys := map_eq_of_mapM_ok_mem hkept fun leaf hleaf row hrow =>
      (reverseRow_ok ((hreverse.exact leaf).mp hleaf).1 hrow).1.symm
    rw [← List.reduceOption_map, ← hkeys, dropped]
    induction reverse.leaves with
    | nil => rfl
    | cons leaf rest ih =>
      rw [List.filter_cons, List.map_cons]
      split
      · rw [List.map_cons, List.reduceOption_cons_of_some, ih]
      · rw [List.reduceOption_cons_of_none, ih]
  refine ⟨by rw [List.map_append, ← hfirst, ← hsecond], fun row hrow => ?_⟩
  rcases List.mem_append.mp hrow with hrow | hrow
  · obtain ⟨leaf, hleaf, hok⟩ := mapM_ok_right hrows hrow
    exact (forwardRow_ok ((hforward.exact leaf).mp hleaf).1 hok).2
  · obtain ⟨leaf, hleaf, hok⟩ := mapM_ok_right hkept (List.reduceOption_mem_iff.mp hrow)
    exact (reverseRow_ok ((hreverse.exact leaf).mp hleaf).1 hok).2 row rfl

/-! ## The deltas -/

/-- The balance of an encoded account. -/
def balanceIn (codec : StateCodec) (encoded : Bytes) : Int :=
  match codec.decodeAccount encoded with
  | .error _ => 0
  | .ok account => amountOf account.balance

def totalBalance (codec : StateCodec) (trie : AccountTrie) : Int :=
  total (balanceIn codec) trie.leaves

theorem balance_of_valueAt {trie : AccountTrie} {key : Hash} {value : AccountValue}
    (h : valueAt codec trie key = .ok value) :
    value.balance = shareAt (balanceIn codec) trie.leaves key := by
  rw [shareAt]
  cases hfound : trie.leaves.lookup key with
  | none =>
    rw [valueAt, hfound] at h
    cases h
    rfl
  | some encoded =>
    have hne : encoded.length ≠ 0 := by
      simpa using trie.nonempty _ (mem_of_lookup hfound)
    rw [valueAt, hfound, Option.getD_some, decodeAccount, if_neg hne] at h
    rw [Option.elim_some, balanceIn]
    cases haccount : codec.decodeAccount encoded with
    | error err =>
      rw [haccount] at h
      cases h
    | ok account =>
      rw [haccount] at h
      cases hbalance : account.balance with
      | none =>
        simp only [hbalance] at h
        cases h
      | some balance =>
        simp only [hbalance] at h
        split at h
        · cases h
        · cases h
          simp only [hbalance, amountOf, Option.getD_some]

/-- The deltas of the rows, as the run adds them up. -/
theorem foldl_recordRow (db : Database) (rows : List ChangeRow) (p : Progress) :
    (rows.foldl (recordRow db) p).rows = p.rows ++ rows ∧
      (rows.foldl (recordRow db) p).netDelta = p.netDelta + (rows.map ChangeRow.delta).sum ∧
      (rows.foldl (recordRow db) p).positiveDelta - (rows.foldl (recordRow db) p).negativeDelta =
        p.positiveDelta - p.negativeDelta + (rows.map ChangeRow.delta).sum := by
  have hrow : ∀ p row, (recordRow db p row).rows = p.rows ++ [row] := fun _ _ => rfl
  refine ⟨?_, foldl_total (fun p : Progress => p.netDelta) (fun _ _ => rfl) rows p, ?_⟩
  · simpa using foldl_listed (fun p : Progress => p.rows) hrow rows p
  · refine foldl_total (fun p : Progress => p.positiveDelta - p.negativeDelta) ?_ rows p
    intro p row
    simp only [recordRow]
    split <;> split <;> omega

/-- The rows report every changed account, once and as it is. -/
structure ListsChanges (codec : StateCodec) (db : Database) (old new : AccountTrie)
    (rows : List ChangeRow) : Prop where
  once : (rows.map ChangeRow.key).Nodup
  complete : ∀ key, key ∈ rows.map ChangeRow.key ↔
    old.leaves.lookup key ≠ new.leaves.lookup key
  reports : ∀ row ∈ rows, Reports codec db old new row

/-- The rows of a completed run, and what it has added up. -/
theorem collect_lists (hforward : Lists old.leaves new.leaves forward.leaves)
    (hreverse : Lists new.leaves old.leaves reverse.leaves) {p : Progress}
    (h : collect codec db forward reverse old new = .ok p) :
    ListsChanges codec db old new p.rows ∧ p.netDelta = (p.rows.map ChangeRow.delta).sum ∧
      p.positiveDelta - p.negativeDelta = (p.rows.map ChangeRow.delta).sum := by
  obtain ⟨-, -, rows, kept, hrows, hkept, rfl⟩ := collect_ok h
  obtain ⟨hkeys, hreports⟩ := keys_of_rows hforward hreverse hrows hkept
  obtain ⟨hlisted, hnet, hsplit⟩ := foldl_recordRow db (rows ++ kept.reduceOption) {}
  rw [List.nil_append] at hlisted
  rw [hlisted, hnet, hsplit]
  refine ⟨⟨?_, fun key => ?_, hreports⟩, zero_add _, zero_add _⟩
  · rw [hkeys]
    exact nodup_passes (keys_nodup old) (keys_nodup new) hforward hreverse
  · rw [hkeys]
    exact mem_passes_iff (keys_nodup old) (keys_nodup new) hforward hreverse key

/-- The deltas add up to the difference of the total balances. -/
theorem ListsChanges.sum_deltas {rows : List ChangeRow}
    (h : ListsChanges codec db old new rows) :
    (rows.map ChangeRow.delta).sum = totalBalance codec new - totalBalance codec old := by
  rw [totalBalance, totalBalance, ← sum_changes (balanceIn codec) (keys_nodup old)
    (keys_nodup new) h.once (fun key hkey => (h.complete key).mpr hkey), List.map_map]
  congr 1
  apply List.map_congr_left
  intro row hrow
  rw [ChangeRow.delta, balance_of_valueAt (h.reports row hrow).newValue,
    balance_of_valueAt (h.reports row hrow).oldValue]
  rfl

/-- Setting the new values of all changed keys gives the new values of all keys. -/
theorem ListsChanges.applies {rows : List ChangeRow} (h : ListsChanges codec db old new rows) :
    applied (valueAt codec old) (rows.map fun row => (row.key, Except.ok row.newValue)) =
      valueAt codec new := by
  have hkeys : (rows.map fun row => (row.key, Except.ok (ε := String) row.newValue)).map Prod.fst =
      rows.map ChangeRow.key := by
    rw [List.map_map]
    rfl
  funext key
  rw [applied_eq _ (hkeys ▸ h.once)]
  by_cases hkey : key ∈ rows.map ChangeRow.key
  · obtain ⟨row, hrow, rfl⟩ := List.mem_map.mp hkey
    have hmem : (row.key, Except.ok (ε := String) row.newValue) ∈
        rows.map fun row => (row.key, Except.ok row.newValue) :=
      List.mem_map_of_mem hrow
    rw [lookup_of_mem (hkeys ▸ h.once) hmem, Option.getD_some, (h.reports row hrow).newValue]
  · have hsame := hkey
    rw [h.complete, not_not] at hsame
    rw [← hkeys] at hkey
    rw [(lookup_eq_none_iff _ key).mpr hkey, Option.getD_none, valueAt, valueAt, hsame]

/-- The rows of a completed run, against the two states. -/
structure ExactDifference (codec : StateCodec) (db : Database) (old new : AccountTrie)
    (output : Output) : Prop where
  changes : ListsChanges codec db old new output.rows
  applies : applied (valueAt codec old)
    (output.rows.map fun row => (row.key, Except.ok row.newValue)) = valueAt codec new
  deltas : ∃ positive negative net : Int,
    output.summary.positiveDeltaAtto = toString positive ∧
    output.summary.negativeDeltaAtto = toString negative ∧
    output.summary.netLiquidDeltaAtto = toString net ∧
    positive - negative = net ∧ net = totalBalance codec new - totalBalance codec old

variable {difference : AccountTrie → AccountTrie → Difference} {oldRoot newRoot : Hash}
variable {output : Output}

/-- What a completed run publishes. -/
theorem main_ok (h : HistoricalStateDiff.main codec db difference oldRoot newRoot old new =
      .ok output) (hforward : YieldsDifference difference old new)
    (hreverse : YieldsDifference difference new old) :
    ∃ p, collect codec db (difference old new) (difference new old) old new = .ok p ∧
      Lists old.leaves new.leaves (difference old new).leaves ∧
      Lists new.leaves old.leaves (difference new old).leaves ∧ output.rows = p.rows ∧
      output.summary.positiveDeltaAtto = toString p.positiveDelta ∧
      output.summary.negativeDeltaAtto = toString p.negativeDelta ∧
      output.summary.netLiquidDeltaAtto = toString p.netDelta := by
  rw [HistoricalStateDiff.main, bind_eq_ok] at h
  obtain ⟨p, hp, h⟩ := h
  cases h
  obtain ⟨hferr, hrerr, -⟩ := collect_ok hp
  exact ⟨p, hp, hforward hferr, hreverse hrerr, rfl, rfl, rfl, rfl⟩

/-- If the iterator yields exactly the two differences, a completed run reports
every changed account once and exactly. -/
theorem state_diff_exact (codec : StateCodec) (db : Database)
    (difference : AccountTrie → AccountTrie → Difference) (oldRoot newRoot : Hash)
    (old new : AccountTrie) (hforward : YieldsDifference difference old new)
    (hreverse : YieldsDifference difference new old) {output : Output}
    (h : HistoricalStateDiff.main codec db difference oldRoot newRoot old new = .ok output) :
    ExactDifference codec db old new output := by
  obtain ⟨p, hp, hlists, hlists', hrows, hpositive, hnegative, hnet⟩ :=
    main_ok h hforward hreverse
  obtain ⟨hchanges, hnetSum, hsplit⟩ := collect_lists hlists hlists' hp
  refine ⟨hrows ▸ hchanges, hrows ▸ hchanges.applies, _, _, _, hpositive, hnegative, hnet,
    hsplit.trans hnetSum.symm, hnetSum.trans hchanges.sum_deltas⟩

/-! ## A state that loses one account, changes one and gains one -/

/-- An account trie of which every node is there. -/
def fullTrie (leaves : List (Hash × Bytes))
    (increasing : leaves.Pairwise (fun a b => a.1.data < b.1.data))
    (nonempty : ∀ leaf ∈ leaves, leaf.2 ≠ []) : AccountTrie where
  leaves := leaves
  increasing := increasing
  nonempty := nonempty
  tryGet key := .ok (leaves.lookup key)
  truthful _ _ h := (Except.ok.inj h).symm

/-- The difference of two tries, leaf by leaf. -/
def leafDifference (a b : AccountTrie) : Difference where
  leaves := b.leaves.filter fun leaf => leaf ∉ a.leaves
  nodesScanned := b.leaves.length
  err := none

theorem leafDifference_yields (a b : AccountTrie) : YieldsDifference leafDifference a b := by
  intro _
  constructor
  · exact (List.Nodup.of_map Prod.fst (keys_nodup b)).filter _
  · intro leaf
    simp [leafDifference]

def sampleOld : AccountTrie :=
  fullTrie
    [(IndependentSums.keyA, IndependentSums.accountBytes 1 7 IndependentSums.codeHashA),
      (IndependentSums.keyB, IndependentSums.accountBytes 0x80 5 emptyCodeHash)]
    (by decide) (by decide)

def sampleNew : AccountTrie :=
  fullTrie
    [(IndependentSums.keyB, IndependentSums.accountBytes 0x80 2 emptyCodeHash),
      (IndependentSums.keyC, IndependentSums.accountBytes 2 0x80 IndependentSums.codeHashC)]
    (by decide) (by decide)

theorem state_diff_exact_sample : ∃ output,
    HistoricalStateDiff.main IndependentSums.sampleStateCodec IndependentSums.sampleStateDB
        leafDifference IndependentSums.sampleRoot0 IndependentSums.sampleRoot1 sampleOld
        sampleNew = .ok output ∧
      output.rows.length = 3 ∧
      ExactDifference IndependentSums.sampleStateCodec IndependentSums.sampleStateDB sampleOld
        sampleNew output := by
  have hrows : (HistoricalStateDiff.main IndependentSums.sampleStateCodec
      IndependentSums.sampleStateDB leafDifference IndependentSums.sampleRoot0
      IndependentSums.sampleRoot1 sampleOld sampleNew).map (fun output => output.rows.length) =
        .ok 3 := by decide +kernel
  cases hmain : HistoricalStateDiff.main IndependentSums.sampleStateCodec
      IndependentSums.sampleStateDB leafDifference IndependentSums.sampleRoot0
      IndependentSums.sampleRoot1 sampleOld sampleNew with
  | error err => rw [hmain] at hrows; cases hrows
  | ok output =>
    rw [hmain] at hrows
    exact ⟨output, rfl, Except.ok.inj hrows, state_diff_exact _ _ _ _ _ _ _
      (leafDifference_yields _ _) (leafDifference_yields _ _) hmain⟩

end StateDiffExactness
