import SupplyAudit.LedgerMerge

/-!
# What the ledger adds up to

A merge that returns has written one row for every key of its inputs, in
increasing order. A row holds what the inputs hold for its key, and every total
of the summary is the sum of the input column it is named after. Inputs that are
out of order, negative or contradictory are refused.
-/

namespace LedgerTotals

open ScriptValues FallibleScan KeyedTable KeyedMerge ActualSupplyLedger LedgerReaders
  PendingReceipts LedgerMerge

variable {py : PyText}

/-- What a run that returns has read and joined. -/
structure Run (py : PyText) (inputs : InputFiles) (l0 l1 ls : List KeyedRow)
    (cs : List ReceiptClaim) (claims : PendingClaims) (out : List LedgerRow) : Prop where
  shard0 : KeyedAs py inputs.shard0Liquid l0
  shard1 : KeyedAs py inputs.shard1Liquid l1
  staking : KeyedAs py inputs.staking ls
  receipts : List.Forall₂ (ReadsReceipt py) inputs.receipts.receipts cs
  collected : Collected py cs claims
  reported : py.int inputs.receipts.pendingActiveAtto = some (cs.map ReceiptClaim.amount).sum
  joined : Joined py claims l0 l1 ls ((claims.map Prod.fst).insertionSort (· ≤ ·)) out

/-- The totals as the summary prints them. -/
structure Publishes (summary : LedgerSummary) (t : Totals) : Prop where
  rows : summary.rows = t.rows
  rowsWithoutAddress : summary.rowsWithoutAddress = t.rowsWithoutAddress
  liquidShard0 : summary.liquidShard0Atto = toString t.liquidShard0
  liquidShard1 : summary.liquidShard1Atto = toString t.liquidShard1
  activeDelegation : summary.activeDelegationAtto = toString t.activeDelegation
  pendingUndelegation : summary.pendingUndelegationAtto = toString t.pendingUndelegation
  unclaimedReward : summary.unclaimedRewardAtto = toString t.unclaimedReward
  pendingCrossShard : summary.pendingCrossShardAtto = toString t.pendingCrossShard
  totalClaim : summary.totalClaimAtto = toString t.totalClaim

theorem increasing_sorted {keys : List String} (h : keys.Nodup) :
    Increasing id (keys.insertionSort (· ≤ ·)) := by
  have hsorted := List.pairwise_insertionSort (· ≤ ·) keys
  have hnodup : (keys.insertionSort (· ≤ ·)).Nodup :=
    (List.perm_insertionSort (· ≤ ·) keys).nodup_iff.mpr h
  exact (hsorted.and hnodup).imp fun hle => lt_of_le_of_ne hle.1 hle.2

/-- The totals of the rows that have been written. -/
def totalsOf (out : List LedgerRow) : Totals where
  rows := out.length
  rowsWithoutAddress := out.countP fun row => row.address = ""
  liquidShard0 := (out.map LedgerRow.liquidShard0).sum
  liquidShard1 := (out.map LedgerRow.liquidShard1).sum
  activeDelegation := (out.map LedgerRow.activeDelegation).sum
  pendingUndelegation := (out.map LedgerRow.pendingUndelegation).sum
  unclaimedReward := (out.map LedgerRow.unclaimedReward).sum
  pendingCrossShard := (out.map LedgerRow.pendingCrossShard).sum
  totalClaim := (out.map LedgerRow.totalClaim).sum

theorem foldl_add (out : List LedgerRow) : out.foldl Totals.add {} = totalsOf out := by
  ext
  · rw [foldl_total Totals.rows (fun t row => (rfl : (t.add row).rows = t.rows + 1))]
    simp [totalsOf]
  · rw [foldl_total Totals.rowsWithoutAddress (fun _ _ => rfl)]
    simp [totalsOf, ← sum_map_one_eq_countP]
  · rw [foldl_total Totals.liquidShard0 (fun _ _ => rfl), zero_add, totalsOf]
  · rw [foldl_total Totals.liquidShard1 (fun _ _ => rfl), zero_add, totalsOf]
  · rw [foldl_total Totals.activeDelegation (fun _ _ => rfl), zero_add, totalsOf]
  · rw [foldl_total Totals.pendingUndelegation (fun _ _ => rfl), zero_add, totalsOf]
  · rw [foldl_total Totals.unclaimedReward (fun _ _ => rfl), zero_add, totalsOf]
  · rw [foldl_total Totals.pendingCrossShard (fun _ _ => rfl), zero_add, totalsOf]
  · rw [foldl_total Totals.totalClaim (fun _ _ => rfl), zero_add, totalsOf]

/-- The spec of the whole run. -/
theorem merge_ok {files : Files} {args : Args} {inputs : InputFiles} {out : List LedgerRow}
    {summary : LedgerSummary} (h : merge py files args inputs = .ok (out, summary)) :
    ∃ l0 l1 ls cs claims, Run py inputs l0 l1 ls cs claims out ∧
      Publishes summary (totalsOf out) := by
  rw [merge] at h
  split at h
  · cases h
  simp only [bind_eq_ok] at h
  obtain ⟨claims, hclaims, start, hstart, st, hrun, h⟩ := h
  obtain ⟨cs, hcs, hcollected, hreported⟩ := loadPendingReceipts_ok hclaims
  simp only [mergeStart, bind_eq_ok] at hstart
  obtain ⟨c0, hc0, c1, hc1, c2, hc2, hstart⟩ := hstart
  cases hstart
  have hend := mergeLoop_ends _ hrun (le_refl _)
  obtain ⟨l0, l1, ls, hpending⟩ := mergeLoop_reads _ hrun hend (settled_start hc0)
    (settled_start hc1) (settled_start hc2)
  have h0 := hpending.liquid0.keyedAs_start hc0
  have h1 := hpending.liquid1.keyedAs_start hc1
  have hs := hpending.staking.keyedAs_start hc2
  have hordered : Ordered l0 l1 ls ((claims.map Prod.fst).insertionSort (· ≤ ·)) :=
    ⟨h0.increasing, h1.increasing, hs.increasing, increasing_sorted hcollected.nodup⟩
  obtain ⟨written, hwritten, htotals, hjoined⟩ := mergeLoop_joined _ hrun hend hpending hordered
  rw [List.nil_append] at hwritten
  cases h
  refine ⟨l0, l1, ls, cs, claims, ⟨h0, h1, hs, hcs, hcollected, hreported, ?_⟩, ?_⟩
  · rw [hwritten]
    exact hjoined
  · rw [hwritten, ← foldl_add, ← htotals]
    exact ⟨rfl, rfl, rfl, rfl, rfl, rfl, rfl, rfl, rfl⟩

/-! ## Columns -/

/-- A column of a file, added up. -/
def columnSum (py : PyText) (field : String) (l : List KeyedRow) : Except PyError Int := do
  let values ← l.mapM fun r => intField py (some r) field
  .ok values.sum

/-- Rows that show a column under each key add up to the column. -/
theorem columnSum_eq {field : String} {l : List KeyedRow} {out : List LedgerRow}
    {value : LedgerRow → Int} (hout : Increasing LedgerRow.secureKey out)
    (hl : Increasing KeyedRow.secureKey l)
    (hcover : ∀ r ∈ l, ∃ row ∈ out, row.secureKey = r.secureKey)
    (hvalue : ∀ row ∈ out,
      intField py (find KeyedRow.secureKey row.secureKey l) field = .ok (value row)) :
    columnSum py field l = .ok (out.map value).sum := by
  have hreadable : ∀ r ∈ l, intField py (some r) field = .ok (column py field r) := by
    intro r hr
    obtain ⟨row, hrow, hkey⟩ := hcover r hr
    have hfield := hvalue row hrow
    rw [hkey, find_of_mem hl hr] at hfield
    rw [hfield, intField_eq_column hfield, Option.elim_some]
  have hmapM : l.mapM (fun r => intField py (some r) field) = .ok (l.map (column py field)) :=
    mapM_ok_of hreadable
  have hrows : out.map value = out.map fun row =>
      (find KeyedRow.secureKey row.secureKey l).elim 0 (column py field) := by
    apply List.map_congr_left
    intro row hrow
    exact intField_eq_column (hvalue row hrow)
  rw [columnSum, hmapM, bind_ok, hrows, sum_find _ hout hl hcover]

/-- The rows' pending amounts add up to the receipts. -/
theorem pendingCrossShard_eq {inputs : InputFiles} {l0 l1 ls : List KeyedRow}
    {cs : List ReceiptClaim} {claims : PendingClaims} {out : List LedgerRow}
    (h : Run py inputs l0 l1 ls cs claims out) :
    (out.map LedgerRow.pendingCrossShard).sum = (cs.map ReceiptClaim.amount).sum := by
  have hperm := List.perm_insertionSort (· ≤ ·) (claims.map Prod.fst)
  have hkeys := increasing_sorted h.collected.nodup
  have hshare : out.map LedgerRow.pendingCrossShard = out.map fun row =>
      (find id row.secureKey ((claims.map Prod.fst).insertionSort (· ≤ ·))).elim 0
        (shareAt PendingClaim.amount claims) := by
    apply List.map_congr_left
    intro row hrow
    rw [(h.joined.rows row hrow).pendingCrossShard, claimed_eq_shareAt]
    cases hfind : find id row.secureKey ((claims.map Prod.fst).insertionSort (· ≤ ·)) with
    | some key =>
      obtain ⟨-, hkey⟩ := mem_of_find hfind
      rw [id_eq] at hkey
      rw [hkey, Option.elim_some]
    | none =>
      have hnone : claims.lookup row.secureKey = none := by
        rw [lookup_eq_none_iff]
        intro hmem
        have hsome := find_of_mem hkeys (hperm.mem_iff.mpr hmem)
        rw [id_eq, hfind] at hsome
        cases hsome
      rw [shareAt, hnone, Option.elim_none, Option.elim_none]
  rw [hshare, sum_find _ h.joined.increasing hkeys, sum_shareAt _ h.collected.nodup hperm,
    h.collected.total]
  intro key hkey
  exact (h.joined.covered key).mpr (Or.inr (Or.inr (Or.inr ⟨key, hkey, rfl⟩)))

/-! ## The exact keyed sum -/

/-- What the ledger says of one key. -/
structure EntryOf (py : PyText) (l0 l1 ls : List KeyedRow) (cs : List ReceiptClaim)
    (row : LedgerRow) : Prop where
  liquidShard0 : intField py (find KeyedRow.secureKey row.secureKey l0) "balance_atto" =
    .ok row.liquidShard0
  liquidShard1 : intField py (find KeyedRow.secureKey row.secureKey l1) "balance_atto" =
    .ok row.liquidShard1
  activeDelegation : intField py (find KeyedRow.secureKey row.secureKey ls)
    "active_delegation_atto" = .ok row.activeDelegation
  pendingUndelegation : intField py (find KeyedRow.secureKey row.secureKey ls)
    "pending_undelegation_atto" = .ok row.pendingUndelegation
  unclaimedReward : intField py (find KeyedRow.secureKey row.secureKey ls)
    "unclaimed_reward_atto" = .ok row.unclaimedReward
  pendingCrossShard : row.pendingCrossShard =
    ((cs.filter fun c => c.key = row.secureKey).map ReceiptClaim.amount).sum
  liquidTotal : row.liquidTotal = row.liquidShard0 + row.liquidShard1
  totalClaim : row.totalClaim = row.liquidShard0 + row.liquidShard1 + row.activeDelegation +
    row.pendingUndelegation + row.unclaimedReward + row.pendingCrossShard

/-- The output is the exact keyed sum of the inputs, and the summary its totals. -/
structure ExactLedger (py : PyText) (inputs : InputFiles) (l0 l1 ls : List KeyedRow)
    (cs : List ReceiptClaim) (out : List LedgerRow) (summary : LedgerSummary)
    (t : Totals) : Prop where
  shard0 : KeyedAs py inputs.shard0Liquid l0
  shard1 : KeyedAs py inputs.shard1Liquid l1
  staking : KeyedAs py inputs.staking ls
  receipts : List.Forall₂ (ReadsReceipt py) inputs.receipts.receipts cs
  increasing : Increasing LedgerRow.secureKey out
  covered : ∀ k, (∃ row ∈ out, row.secureKey = k) ↔
    (∃ r ∈ l0, r.secureKey = k) ∨ (∃ r ∈ l1, r.secureKey = k) ∨ (∃ r ∈ ls, r.secureKey = k) ∨
      ∃ c ∈ cs, c.key = k
  entries : ∀ row ∈ out, EntryOf py l0 l1 ls cs row
  rows : t.rows = out.length
  rowsWithoutAddress : t.rowsWithoutAddress = out.countP fun row => row.address = ""
  liquidShard0 : columnSum py "balance_atto" l0 = .ok t.liquidShard0
  liquidShard1 : columnSum py "balance_atto" l1 = .ok t.liquidShard1
  activeDelegation : columnSum py "active_delegation_atto" ls = .ok t.activeDelegation
  pendingUndelegation : columnSum py "pending_undelegation_atto" ls = .ok t.pendingUndelegation
  unclaimedReward : columnSum py "unclaimed_reward_atto" ls = .ok t.unclaimedReward
  pendingCrossShard : t.pendingCrossShard = (cs.map ReceiptClaim.amount).sum
  reported : py.int inputs.receipts.pendingActiveAtto = some t.pendingCrossShard
  totalClaim : t.totalClaim = t.liquidShard0 + t.liquidShard1 + t.activeDelegation +
    t.pendingUndelegation + t.unclaimedReward + t.pendingCrossShard
  published : Publishes summary t

theorem totalClaim_eq {out : List LedgerRow} (h : ∀ row ∈ out, row.totalClaim =
    row.liquidShard0 + row.liquidShard1 + row.activeDelegation + row.pendingUndelegation +
      row.unclaimedReward + row.pendingCrossShard) :
    (out.map LedgerRow.totalClaim).sum = (out.map LedgerRow.liquidShard0).sum +
      (out.map LedgerRow.liquidShard1).sum + (out.map LedgerRow.activeDelegation).sum +
      (out.map LedgerRow.pendingUndelegation).sum + (out.map LedgerRow.unclaimedReward).sum +
      (out.map LedgerRow.pendingCrossShard).sum := by
  induction out with
  | nil => rfl
  | cons row out ih =>
    have hrow := h row List.mem_cons_self
    have hrest := ih fun r hr => h r (List.mem_cons_of_mem row hr)
    simp only [List.map_cons, List.sum_cons]
    omega

theorem Run.entryOf {inputs : InputFiles} {l0 l1 ls : List KeyedRow} {cs : List ReceiptClaim}
    {claims : PendingClaims} {out : List LedgerRow} (h : Run py inputs l0 l1 ls cs claims out)
    {row : LedgerRow} (hrow : row ∈ out) : EntryOf py l0 l1 ls cs row := by
  have hof := h.joined.rows row hrow
  refine ⟨hof.liquidShard0, hof.liquidShard1, hof.activeDelegation, hof.pendingUndelegation,
    hof.unclaimedReward, ?_, hof.liquidTotal, ?_⟩
  · rw [hof.pendingCrossShard, claimed_eq_shareAt]
    exact h.collected.amount row.secureKey
  · rw [hof.totalClaim, hof.liquidTotal]

theorem Run.covered {inputs : InputFiles} {l0 l1 ls : List KeyedRow} {cs : List ReceiptClaim}
    {claims : PendingClaims} {out : List LedgerRow} (h : Run py inputs l0 l1 ls cs claims out)
    (k : String) : (∃ row ∈ out, row.secureKey = k) ↔
      (∃ r ∈ l0, r.secureKey = k) ∨ (∃ r ∈ l1, r.secureKey = k) ∨ (∃ r ∈ ls, r.secureKey = k) ∨
        ∃ c ∈ cs, c.key = k := by
  have hperm := List.perm_insertionSort (· ≤ ·) (claims.map Prod.fst)
  rw [h.joined.covered k, ← h.collected.keys k, ← hperm.mem_iff]
  simp only [exists_eq_right]

theorem Run.exactLedger {inputs : InputFiles} {l0 l1 ls : List KeyedRow} {cs : List ReceiptClaim}
    {claims : PendingClaims} {out : List LedgerRow} {summary : LedgerSummary}
    (h : Run py inputs l0 l1 ls cs claims out) (hsummary : Publishes summary (totalsOf out)) :
    ExactLedger py inputs l0 l1 ls cs out summary (totalsOf out) where
  shard0 := h.shard0
  shard1 := h.shard1
  staking := h.staking
  receipts := h.receipts
  increasing := h.joined.increasing
  covered := h.covered
  entries _ hrow := h.entryOf hrow
  rows := rfl
  rowsWithoutAddress := rfl
  liquidShard0 := columnSum_eq h.joined.increasing h.shard0.increasing
    (fun r hr => (h.covered _).mpr (Or.inl ⟨r, hr, rfl⟩))
    (fun _ hrow => (h.entryOf hrow).liquidShard0)
  liquidShard1 := columnSum_eq h.joined.increasing h.shard1.increasing
    (fun r hr => (h.covered _).mpr (Or.inr (Or.inl ⟨r, hr, rfl⟩)))
    (fun _ hrow => (h.entryOf hrow).liquidShard1)
  activeDelegation := columnSum_eq h.joined.increasing h.staking.increasing
    (fun r hr => (h.covered _).mpr (Or.inr (Or.inr (Or.inl ⟨r, hr, rfl⟩))))
    (fun _ hrow => (h.entryOf hrow).activeDelegation)
  pendingUndelegation := columnSum_eq h.joined.increasing h.staking.increasing
    (fun r hr => (h.covered _).mpr (Or.inr (Or.inr (Or.inl ⟨r, hr, rfl⟩))))
    (fun _ hrow => (h.entryOf hrow).pendingUndelegation)
  unclaimedReward := columnSum_eq h.joined.increasing h.staking.increasing
    (fun r hr => (h.covered _).mpr (Or.inr (Or.inr (Or.inl ⟨r, hr, rfl⟩))))
    (fun _ hrow => (h.entryOf hrow).unclaimedReward)
  pendingCrossShard := pendingCrossShard_eq h
  reported := by
    rw [h.reported, ← pendingCrossShard_eq h]
    rfl
  totalClaim := totalClaim_eq fun _ hrow => (h.entryOf hrow).totalClaim
  published := hsummary

/-! ## Refused inputs -/

def NegativeField (py : PyText) (row : Row) (field : String) : Prop :=
  ∃ text value, row.get field = .ok (some text) ∧ py.int text = some value ∧ value < 0

/-- Some input names this address for this key. -/
def Names (py : PyText) (inputs : InputFiles) (key address : String) : Prop :=
  (∃ row ∈ inputs.shard0Liquid ++ inputs.shard1Liquid ++ inputs.staking,
    rowKey py row = .ok key ∧ row.get "address" = .ok (some address)) ∨
  ∃ row ∈ inputs.receipts.receipts,
    rowKey py row = .ok key ∧ row.get "to" = .ok (some address)

/-- The faults that no merge lets through. -/
inductive Faulty (py : PyText) (inputs : InputFiles) : Prop where
  | unordered (rows : List Row)
      (file : rows ∈ [inputs.shard0Liquid, inputs.shard1Liquid, inputs.staking])
      (keys : OutOfOrder py rows)
  | negativeBalance (row : Row) (file : row ∈ inputs.shard0Liquid ++ inputs.shard1Liquid)
      (amount : NegativeField py row "balance_atto")
  | negativeStake (row : Row) (file : row ∈ inputs.staking) (field : String)
      (stake : field ∈
        ["active_delegation_atto", "pending_undelegation_atto", "unclaimed_reward_atto"])
      (amount : NegativeField py row field)
  | negativeReceipt (row : Row) (report : row ∈ inputs.receipts.receipts)
      (amount : NegativeField py row "amount_atto")
  | addresses (key a b : String) (first : Names py inputs key a) (second : Names py inputs key b)
      (first_nonempty : a ≠ "") (second_nonempty : b ≠ "") (different : py.lower a ≠ py.lower b)

/-- A column that the ledger shows for every key of a file has no negative entry. -/
theorem not_negativeField {rows : List Row} {l : List KeyedRow} (h : KeyedAs py rows l)
    {out : List LedgerRow} {field : String} {value : LedgerRow → Int}
    (hcover : ∀ r ∈ l, ∃ row ∈ out, row.secureKey = r.secureKey)
    (hvalue : ∀ row ∈ out,
      intField py (find KeyedRow.secureKey row.secureKey l) field = .ok (value row))
    {row : Row} (hrow : row ∈ rows) : ¬ NegativeField py row field := by
  rintro ⟨text, v, htext, hv, hneg⟩
  rw [← h.fields] at hrow
  obtain ⟨r, hr, rfl⟩ := List.mem_map.mp hrow
  obtain ⟨row, hout, hkey⟩ := hcover r hr
  have hfield := hvalue row hout
  rw [hkey, KeyedMerge.find_of_mem h.increasing hr] at hfield
  simp only [intField, htext, bind_ok, PyText.parsed, hv, if_pos hneg] at hfield
  cases hfield

theorem not_negativeReceipt {row : Row} {c : ReceiptClaim} (h : ReadsReceipt py row c) :
    ¬ NegativeField py row "amount_atto" := by
  rintro ⟨text, v, htext, hv, hneg⟩
  obtain ⟨text', htext', hv'⟩ := h.amount
  rw [htext, Except.ok.injEq, Option.some.injEq] at htext'
  subst htext'
  rw [hv, Option.some.injEq] at hv'
  have hnonneg := h.nonneg
  omega

theorem mem_namedAddresses {candidates : List (Option String)} {a : String} :
    a ∈ namedAddresses candidates ↔ some a ∈ candidates ∧ a ≠ "" := by
  rw [namedAddresses, List.mem_filterMap]
  constructor
  · rintro ⟨candidate, hmem, hfilter⟩
    obtain ⟨rfl, hne⟩ := Option.filter_eq_some_iff.mp hfilter
    exact ⟨hmem, by simpa using hne⟩
  · rintro ⟨hmem, hne⟩
    exact ⟨some a, hmem, Option.filter_eq_some_iff.mpr ⟨rfl, by simpa using hne⟩⟩

/-- A nonempty address agrees with the one in the ledger. -/
theorem Run.names {inputs : InputFiles} {l0 l1 ls : List KeyedRow} {cs : List ReceiptClaim}
    {claims : PendingClaims} {out : List LedgerRow} (h : Run py inputs l0 l1 ls cs claims out)
    {key a : String} (hnames : Names py inputs key a) (hne : a ≠ "") :
    ∀ row ∈ out, row.secureKey = key → py.lower a = py.lower row.address := by
  rintro row hout rfl
  obtain ⟨address0, address1, addressStake, h0, h1, hs, hall⟩ := (h.joined.rows row hout).addresses
  have hagree : ∀ b, some b ∈ [address0, address1, addressStake,
      (claims.lookup row.secureKey).map PendingClaim.address] → b ≠ "" →
      py.lower b = py.lower row.address :=
    fun b hb hbne => hall b (mem_namedAddresses.mpr ⟨hb, hbne⟩)
  rcases hnames with ⟨r, hr, hkey, haddress⟩ | ⟨receipt, hreceipt, hkey, haddress⟩
  · rcases List.mem_append.mp hr with hr | hr
    · rcases List.mem_append.mp hr with hr | hr
      · obtain ⟨k, -, -, rfl, hfind⟩ := h.shard0.find_of_mem hr hkey
        rw [hfind, optionalField, haddress, Except.ok.injEq] at h0
        exact hagree a (by simp [h0]) hne
      · obtain ⟨k, -, -, rfl, hfind⟩ := h.shard1.find_of_mem hr hkey
        rw [hfind, optionalField, haddress, Except.ok.injEq] at h1
        exact hagree a (by simp [h1]) hne
    · obtain ⟨k, -, -, rfl, hfind⟩ := h.staking.find_of_mem hr hkey
      rw [hfind, optionalField, haddress, Except.ok.injEq] at hs
      exact hagree a (by simp [hs]) hne
  · obtain ⟨c, hc, hreads⟩ := forall₂_exists_left h.receipts hreceipt
    have hckey := hreads.key
    have hcaddress := hreads.address
    rw [hkey, Except.ok.injEq] at hckey
    rw [haddress, Except.ok.injEq, Option.some.injEq] at hcaddress
    obtain ⟨claim, hclaim⟩ : ∃ claim, claims.lookup row.secureKey = some claim := by
      rw [← Option.ne_none_iff_exists', ne_eq, lookup_eq_none_iff, not_not, h.collected.keys]
      exact ⟨c, hc, hckey.symm⟩
    have hsame := h.collected.address c hc claim (hckey ▸ hclaim)
    rw [← hcaddress] at hsame
    -- an empty claim address would make the receipt's empty too
    have hclaimNe : claim.address ≠ "" := by
      intro hempty
      rw [hempty, py.lower_empty] at hsame
      exact hne (py.lower_eq_empty a hsame.symm)
    rw [← hsame]
    exact hagree claim.address (by simp [hclaim]) hclaimNe

theorem Run.exists_row {inputs : InputFiles} {l0 l1 ls : List KeyedRow} {cs : List ReceiptClaim}
    {claims : PendingClaims} {out : List LedgerRow} (h : Run py inputs l0 l1 ls cs claims out)
    {key a : String} (hnames : Names py inputs key a) : ∃ row ∈ out, row.secureKey = key := by
  rw [h.covered]
  rcases hnames with ⟨r, hr, hkey, -⟩ | ⟨receipt, hreceipt, hkey, -⟩
  · rcases List.mem_append.mp hr with hr | hr
    · rcases List.mem_append.mp hr with hr | hr
      · obtain ⟨k, hk, hkk, -⟩ := h.shard0.find_of_mem hr hkey
        exact Or.inl ⟨k, hk, hkk⟩
      · obtain ⟨k, hk, hkk, -⟩ := h.shard1.find_of_mem hr hkey
        exact Or.inr (Or.inl ⟨k, hk, hkk⟩)
    · obtain ⟨k, hk, hkk, -⟩ := h.staking.find_of_mem hr hkey
      exact Or.inr (Or.inr (Or.inl ⟨k, hk, hkk⟩))
  · obtain ⟨c, hc, hreads⟩ := forall₂_exists_left h.receipts hreceipt
    have hckey := hreads.key
    rw [hkey, Except.ok.injEq] at hckey
    exact Or.inr (Or.inr (Or.inr ⟨c, hc, hckey.symm⟩))

theorem Run.not_faulty {inputs : InputFiles} {l0 l1 ls : List KeyedRow} {cs : List ReceiptClaim}
    {claims : PendingClaims} {out : List LedgerRow} (h : Run py inputs l0 l1 ls cs claims out) :
    ¬ Faulty py inputs := by
  have hcover0 : ∀ r ∈ l0, ∃ row ∈ out, row.secureKey = r.secureKey :=
    fun r hr => (h.covered _).mpr (Or.inl ⟨r, hr, rfl⟩)
  have hcover1 : ∀ r ∈ l1, ∃ row ∈ out, row.secureKey = r.secureKey :=
    fun r hr => (h.covered _).mpr (Or.inr (Or.inl ⟨r, hr, rfl⟩))
  have hcoverS : ∀ r ∈ ls, ∃ row ∈ out, row.secureKey = r.secureKey :=
    fun r hr => (h.covered _).mpr (Or.inr (Or.inr (Or.inl ⟨r, hr, rfl⟩)))
  intro hfault
  cases hfault with
  | unordered rows file keys =>
    simp only [List.mem_cons, List.not_mem_nil, or_false] at file
    rcases file with rfl | rfl | rfl
    · exact h.shard0.not_outOfOrder keys
    · exact h.shard1.not_outOfOrder keys
    · exact h.staking.not_outOfOrder keys
  | negativeBalance row file amount =>
    rcases List.mem_append.mp file with hrow | hrow
    · exact not_negativeField h.shard0 hcover0
        (fun _ hout => (h.entryOf hout).liquidShard0) hrow amount
    · exact not_negativeField h.shard1 hcover1
        (fun _ hout => (h.entryOf hout).liquidShard1) hrow amount
  | negativeStake row file field stake amount =>
    simp only [List.mem_cons, List.not_mem_nil, or_false] at stake
    rcases stake with rfl | rfl | rfl
    · exact not_negativeField h.staking hcoverS
        (fun _ hout => (h.entryOf hout).activeDelegation) file amount
    · exact not_negativeField h.staking hcoverS
        (fun _ hout => (h.entryOf hout).pendingUndelegation) file amount
    · exact not_negativeField h.staking hcoverS
        (fun _ hout => (h.entryOf hout).unclaimedReward) file amount
  | negativeReceipt row report amount =>
    obtain ⟨c, -, hreads⟩ := forall₂_exists_left h.receipts report
    exact not_negativeReceipt hreads amount
  | addresses key a b first second first_nonempty second_nonempty different =>
    obtain ⟨row, hout, hkey⟩ := h.exists_row first
    have ha := h.names first first_nonempty row hout hkey
    have hb := h.names second second_nonempty row hout hkey
    exact different (ha.trans hb.symm)

/-- A merge either is the exact keyed sum of its inputs or raises, and it raises
on every faulty input. -/
theorem merge_exact (py : PyText) (files : Files) (args : Args) (inputs : InputFiles) :
    (∀ out summary, merge py files args inputs = .ok (out, summary) →
      ∃ l0 l1 ls cs t, ExactLedger py inputs l0 l1 ls cs out summary t) ∧
    (Faulty py inputs → ∃ err, merge py files args inputs = .error err) := by
  constructor
  · intro out summary h
    obtain ⟨l0, l1, ls, cs, claims, hrun, hsummary⟩ := merge_ok h
    exact ⟨l0, l1, ls, cs, totalsOf out, hrun.exactLedger hsummary⟩
  · intro hfault
    cases hmerge : merge py files args inputs with
    | error err => exact ⟨err, rfl⟩
    | ok result =>
      obtain ⟨out, summary⟩ := result
      obtain ⟨l0, l1, ls, cs, claims, hrun, -⟩ := merge_ok hmerge
      exact absurd hfault hrun.not_faulty

/-! ## A small ledger -/

def sampleLiquid (key address balance : String) : Row :=
  [("secure_key", some key), ("address", some address), ("balance_atto", some balance),
    ("nonce", some "1"), ("code_hash", some "0xc5")]

def sampleReceiptRow (key address amount : String) : Row :=
  [("secure_key", some key), ("to", some address), ("amount_atto", some amount)]

/-- One account on both shards that is owed a receipt, and one that only stakes. -/
def sampleInputs : InputFiles where
  shard0Liquid := [sampleLiquid "0xAA" "0xE1" "5"]
  shard1Liquid := [sampleLiquid "0xaa" "" "2"]
  staking := [[("secure_key", some "0xab"), ("address", some "0xe2"),
    ("active_delegation_atto", some "3"), ("pending_undelegation_atto", some "0"),
    ("unclaimed_reward_atto", some "4")]]
  receipts :=
    { directions := [⟨some [⟨some [sampleReceiptRow "0xaa" "0xe1" "7"]⟩]⟩]
      pendingActiveAtto := "7"
      unsupportedPendingAtto := "0" }

def sampleArgs : Args := ⟨"liquid0", "liquid1", "staking", "receipts", "ledger", "summary"⟩

def sampleFiles : Files := ⟨fun _ => false, fun _ => "", fun _ => ""⟩

/-- The same account listed twice on shard 0. -/
def sampleRepeated : InputFiles :=
  { sampleInputs with
    shard0Liquid := [sampleLiquid "0xaa" "0xe1" "5", sampleLiquid "0xAA" "0xe1" "5"] }

theorem sampleRepeated_faulty : Faulty PyText.ascii sampleRepeated :=
  .unordered sampleRepeated.shard0Liquid List.mem_cons_self
    ⟨_, _, "0xaa", "0xaa", List.Sublist.refl _, by decide +kernel, by decide +kernel, le_refl _⟩

theorem sampleInputs_merged :
    (merge PyText.ascii sampleFiles sampleArgs sampleInputs).isOk = true := by decide +kernel

theorem merge_exact_sample :
    (∃ out summary, merge PyText.ascii sampleFiles sampleArgs sampleInputs = .ok (out, summary) ∧
      ∃ l0 l1 ls cs t,
        ExactLedger PyText.ascii sampleInputs l0 l1 ls cs out summary t) ∧
    ∃ err, merge PyText.ascii sampleFiles sampleArgs sampleRepeated = .error err := by
  obtain ⟨hexact, -⟩ := merge_exact PyText.ascii sampleFiles sampleArgs sampleInputs
  obtain ⟨-, hraises⟩ := merge_exact PyText.ascii sampleFiles sampleArgs sampleRepeated
  obtain ⟨⟨out, summary⟩, h⟩ := exists_of_isOk sampleInputs_merged
  exact ⟨⟨out, summary, h, hexact out summary h⟩, hraises sampleRepeated_faulty⟩

end LedgerTotals
