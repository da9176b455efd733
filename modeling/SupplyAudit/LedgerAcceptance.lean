import SupplyAudit.LedgerTotals

/-!
# When the ledger accepts its inputs

The merge raises for no other reason than a report that does not load, keys out
of order, or a key whose merged row is refused. Where none of these occurs it
runs to its end.
-/

namespace LedgerAcceptance

open ScriptValues FallibleScan KeyedTable KeyedMerge ActualSupplyLedger LedgerReaders
  PendingReceipts LedgerMerge LedgerTotals

variable {py : PyText}

/-! ## Readers -/

/-- A reader of well-keyed rows never raises. -/
theorem next_of_keyedAs {s : RowStream} {l : List KeyedRow} (hl : KeyedAs py s.rest l)
    (hafter : ∀ p ∈ s.previous, ∀ r ∈ l, p < r.secureKey) :
    ∃ head s', s.next py = .ok (head, s') ∧ Reads py ⟨head, s'⟩ l := by
  induction l generalizing s with
  | nil =>
    have hrest : s.rest = [] := by rw [← hl.fields, List.map_nil]
    refine ⟨none, s, ?_, .done s hrest⟩
    rw [RowStream.next]
    simp only [hrest]
  | cons r l ih =>
    have hrest : s.rest = r.fields :: l.map KeyedRow.fields := by rw [← hl.fields, List.map_cons]
    have hkey := hl.keys r List.mem_cons_self
    rw [rowKey, bind_eq_ok] at hkey
    obtain ⟨value, hvalue, hlower⟩ := hkey
    have hgt : ¬ ∃ p ∈ s.previous, r.secureKey ≤ p := by
      rintro ⟨p, hp, hle⟩
      exact absurd (hafter p hp r List.mem_cons_self) (not_lt.mpr hle)
    have hlater : ∀ p ∈ some r.secureKey, ∀ r' ∈ l, p < r'.secureKey := by
      rintro p ⟨⟩ r' hr'
      exact List.rel_of_pairwise_cons hl.increasing hr'
    have htail : KeyedAs py (l.map KeyedRow.fields) l :=
      ⟨rfl, fun r' hr => hl.keys r' (List.mem_cons_of_mem r hr),
        (List.pairwise_cons.mp hl.increasing).2⟩
    let rest : RowStream := ⟨s.path, l.map KeyedRow.fields, some r.secureKey, s.line + 1⟩
    obtain ⟨head, s', hnext, hreads⟩ := ih (s := rest) htail hlater
    refine ⟨some r, rest, ?_, .more r rest s' head l hnext hreads⟩
    rw [RowStream.next]
    simp only [hrest, hvalue, hlower, bind_ok, if_neg hgt]
    rfl

theorem start_of_keyedAs (path : String) {rows : List Row} {l : List KeyedRow}
    (hl : KeyedAs py rows l) : ∃ c, Cursor.start py path rows = .ok c ∧ Reads py c l := by
  obtain ⟨head, s', hnext, hreads⟩ :=
    next_of_keyedAs (s := ⟨path, rows, none, 2⟩) hl (fun _ hp => by cases hp)
  refine ⟨⟨head, s'⟩, ?_, hreads⟩
  rw [Cursor.start, hnext, bind_ok]

theorem take_of_reads {c : Cursor} {l : List KeyedRow} (h : Reads py c l) (key : String) :
    ∃ taken c', c.take py key = .ok (taken, c') := by
  rw [Cursor.take]
  cases h with
  | done s exhausted => exact ⟨none, ⟨none, s⟩, rfl⟩
  | more row s s' head l next reads =>
    by_cases hkey : row.secureKey = key
    · refine ⟨some row, ⟨head, s'⟩, ?_⟩
      simp only [Option.filter, hkey, decide_true, if_true, next, bind_ok]
    · refine ⟨none, ⟨some row, s⟩, ?_⟩
      simp only [Option.filter, hkey, decide_false, Bool.false_eq_true, if_false]

/-! ## Rows -/

/-- What the liquid row of a key reads as. -/
structure LiquidFields (py : PyText) (current : Option KeyedRow) (address : Option String)
    (balance : Int) : Prop where
  address : optionalField current "address" = .ok address
  balance : intField py current "balance_atto" = .ok balance
  nonce : ∃ nonce, optionalField current "nonce" = .ok nonce
  codeHash : ∃ codeHash, optionalField current "code_hash" = .ok codeHash

/-- What the staking row of a key reads as. -/
structure StakeFields (py : PyText) (current : Option KeyedRow) (address : Option String)
    (active undelegation reward : Int) : Prop where
  address : optionalField current "address" = .ok address
  active : intField py current "active_delegation_atto" = .ok active
  undelegation : intField py current "pending_undelegation_atto" = .ok undelegation
  reward : intField py current "unclaimed_reward_atto" = .ok reward

/-- Readable rows of one address and a positive sum merge. -/
theorem mergedRow_of_fields {key : String} {current0 current1 currentStake : Option KeyedRow}
    {currentReceipt : Option PendingClaim} {address0 address1 addressStake : Option String}
    {liquid0 liquid1 active undelegation reward : Int}
    (h0 : LiquidFields py current0 address0 liquid0)
    (h1 : LiquidFields py current1 address1 liquid1)
    (hs : StakeFields py currentStake addressStake active undelegation reward)
    (hagree : ∀ a ∈ namedAddresses [address0, address1, addressStake,
        currentReceipt.map PendingClaim.address],
      ∀ b ∈ namedAddresses [address0, address1, addressStake,
        currentReceipt.map PendingClaim.address], py.lower a = py.lower b)
    (hpositive : 0 < liquid0 + liquid1 + active + undelegation + reward +
      (currentReceipt.map PendingClaim.amount).getD 0) :
    ∃ row, mergedRow py key current0 current1 currentStake currentReceipt = .ok row := by
  obtain ⟨nonce0, hnonce0⟩ := h0.nonce
  obtain ⟨nonce1, hnonce1⟩ := h1.nonce
  obtain ⟨codeHash0, hcodeHash0⟩ := h0.codeHash
  obtain ⟨codeHash1, hcodeHash1⟩ := h1.codeHash
  have hsame : ¬ ∃ first ∈ (namedAddresses [address0, address1, addressStake,
        currentReceipt.map PendingClaim.address]).head?,
      ∃ a ∈ (namedAddresses [address0, address1, addressStake,
        currentReceipt.map PendingClaim.address]).tail, py.lower a ≠ py.lower first := by
    rintro ⟨first, hfirst, a, ha, hne⟩
    exact hne (hagree a (List.mem_of_mem_tail ha) first (List.mem_of_mem_head? hfirst))
  simp only [mergedRow, h0.address, h1.address, hs.address, h0.balance, h1.balance, hs.active,
    hs.undelegation, hs.reward, hnonce0, hnonce1, hcodeHash0, hcodeHash1, bind_ok,
    if_neg hsame, if_neg (Int.not_le.mpr hpositive)]
  exact ⟨_, rfl⟩

/-! ## The loop -/

/-- Every key in the inputs has a merged row. -/
def AllMerge (py : PyText) (claims : PendingClaims) (l0 l1 ls : List KeyedRow)
    (keys : List String) : Prop :=
  ∀ k, ((∃ r ∈ l0, r.secureKey = k) ∨ (∃ r ∈ l1, r.secureKey = k) ∨
      (∃ r ∈ ls, r.secureKey = k) ∨ ∃ key ∈ keys, key = k) →
    ∃ row, mergedRow py k (find KeyedRow.secureKey k l0) (find KeyedRow.secureKey k l1)
      (find KeyedRow.secureKey k ls) (claims.lookup k) = .ok row

theorem mem_of_mem_advance {α κ : Type} [LinearOrder κ] {key : α → κ} {k : κ} {l : List α} {a : α}
    (h : a ∈ advance key k l) : a ∈ l := by
  rw [← current_append_advance key k l]
  exact List.mem_append_right _ h

/-- What is left after a step still merges. -/
theorem AllMerge.advance {claims : PendingClaims} {l0 l1 ls : List KeyedRow} {keys : List String}
    (h : AllMerge py claims l0 l1 ls keys) (ho : Ordered l0 l1 ls keys) {key : String}
    (hfrom : From KeyedRow.secureKey key l0 ∧ From KeyedRow.secureKey key l1 ∧
      From KeyedRow.secureKey key ls ∧ From id key keys) :
    AllMerge py claims (KeyedMerge.advance KeyedRow.secureKey key l0)
      (KeyedMerge.advance KeyedRow.secureKey key l1)
      (KeyedMerge.advance KeyedRow.secureKey key ls) (KeyedMerge.advance id key keys) := by
  obtain ⟨hfrom0, hfrom1, hfromS, hfromK⟩ := hfrom
  intro k hk
  have hboth : k ≠ key ∧ ((∃ r ∈ l0, r.secureKey = k) ∨ (∃ r ∈ l1, r.secureKey = k) ∨
      (∃ r ∈ ls, r.secureKey = k) ∨ ∃ key ∈ keys, key = k) := by
    rcases hk with ⟨r, hr, rfl⟩ | ⟨r, hr, rfl⟩ | ⟨r, hr, rfl⟩ | ⟨r, hr, rfl⟩
    · exact ⟨ne_of_gt (lt_of_mem_advance ho.liquid0 hfrom0 hr),
        Or.inl ⟨r, mem_of_mem_advance hr, rfl⟩⟩
    · exact ⟨ne_of_gt (lt_of_mem_advance ho.liquid1 hfrom1 hr),
        Or.inr (Or.inl ⟨r, mem_of_mem_advance hr, rfl⟩)⟩
    · exact ⟨ne_of_gt (lt_of_mem_advance ho.staking hfromS hr),
        Or.inr (Or.inr (Or.inl ⟨r, mem_of_mem_advance hr, rfl⟩))⟩
    · exact ⟨ne_of_gt (lt_of_mem_advance ho.receiptKeys hfromK hr),
        Or.inr (Or.inr (Or.inr ⟨r, mem_of_mem_advance hr, rfl⟩))⟩
  obtain ⟨hne, hin⟩ := hboth
  rw [find_advance hne, find_advance hne, find_advance hne]
  exact h k hin

theorem mem_of_current {α κ : Type} [LinearOrder κ] (key : α → κ) {k : κ} {l : List α}
    (h : (current key k l).isSome) : ∃ a ∈ l, key a = k := by
  rw [mem_keys_iff key k k l]
  exact Or.inl ⟨rfl, h⟩

/-- A step on inputs that merge does not raise. -/
theorem mergeStep_of_allMerge {claims : PendingClaims} {st : MergeState} {key : String}
    (hkey : st.key = some key) {l0 l1 ls : List KeyedRow} {keys : List String}
    (hp : Pending py st l0 l1 ls keys) (ho : Ordered l0 l1 ls keys)
    (hall : AllMerge py claims l0 l1 ls keys) :
    ∃ st', mergeStep py claims st key = .ok st' := by
  obtain ⟨hfrom0, hfrom1, hfromS, -⟩ := key_from hkey hp ho
  obtain ⟨taken0, c0, h0⟩ := take_of_reads hp.liquid0 key
  obtain ⟨taken1, c1, h1⟩ := take_of_reads hp.liquid1 key
  obtain ⟨takenS, cs, hs⟩ := take_of_reads hp.staking key
  have hin : (∃ r ∈ l0, r.secureKey = key) ∨ (∃ r ∈ l1, r.secureKey = key) ∨
      (∃ r ∈ ls, r.secureKey = key) ∨ ∃ k ∈ keys, k = key :=
    (key_current hkey hp).imp (mem_of_current _) (Or.imp (mem_of_current _)
      (Or.imp (mem_of_current _) (mem_of_current id)))
  obtain ⟨row, hrow⟩ := hall key hin
  rw [← current_eq_find ho.liquid0 hfrom0, ← current_eq_find ho.liquid1 hfrom1,
    ← current_eq_find ho.staking hfromS, ← (hp.liquid0.advance h0).1,
    ← (hp.liquid1.advance h1).1, ← (hp.staking.advance hs).1] at hrow
  simp only [mergeStep, h0, h1, hs, hrow, bind_ok]
  exact ⟨_, rfl⟩

/-- The loop does not raise on inputs that merge. -/
theorem mergeLoop_of_allMerge {claims : PendingClaims} (fuel : Nat) {st : MergeState}
    {l0 l1 ls : List KeyedRow} {keys : List String} (hp : Pending py st l0 l1 ls keys)
    (ho : Ordered l0 l1 ls keys) (hall : AllMerge py claims l0 l1 ls keys) :
    ∃ st', mergeLoop py claims fuel st = .ok st' := by
  induction fuel generalizing st l0 l1 ls keys with
  | zero => exact ⟨st, rfl⟩
  | succ fuel ih =>
    rw [mergeLoop]
    cases hkey : st.key with
    | none => exact ⟨st, rfl⟩
    | some key =>
      obtain ⟨next, hstep⟩ := mergeStep_of_allMerge hkey hp ho hall
      obtain ⟨_, _, _, _, ht0, ht1, hts, hreceipts, -⟩ := mergeStep_ok hstep
      rw [hp.receiptKeys] at hreceipts
      simp only [hstep, bind_ok]
      exact ih ⟨(hp.liquid0.advance ht0).2, (hp.liquid1.advance ht1).2, (hp.staking.advance hts).2,
        hreceipts⟩ (ho.advance key) (hall.advance ho (key_from hkey hp ho))

/-- Well-keyed files, a report that loads and rows that merge are accepted. -/
theorem merge_of_allMerge {files : Files} {args : Args} {inputs : InputFiles}
    {l0 l1 ls : List KeyedRow} {claims : PendingClaims}
    (hfree : [args.output, args.summaryOutput].find? files.taken = none)
    (h0 : KeyedAs py inputs.shard0Liquid l0) (h1 : KeyedAs py inputs.shard1Liquid l1)
    (hs : KeyedAs py inputs.staking ls) (hclaims : loadPendingReceipts py inputs.receipts = .ok claims)
    (hall : AllMerge py claims l0 l1 ls ((claims.map Prod.fst).insertionSort (· ≤ ·))) :
    ∃ out summary, merge py files args inputs = .ok (out, summary) := by
  obtain ⟨cs, -, hcollected, -⟩ := loadPendingReceipts_ok hclaims
  obtain ⟨c0, hc0, hr0⟩ := start_of_keyedAs args.shard0Liquid h0
  obtain ⟨c1, hc1, hr1⟩ := start_of_keyedAs args.shard1Liquid h1
  obtain ⟨c2, hc2, hrs⟩ := start_of_keyedAs args.staking hs
  let keys := (claims.map Prod.fst).insertionSort (· ≤ ·)
  let start : MergeState := ⟨c0, c1, c2, keys, [], {}⟩
  have hpending : Pending py start l0 l1 ls keys := ⟨hr0, hr1, hrs, rfl⟩
  have hordered : Ordered l0 l1 ls keys :=
    ⟨h0.increasing, h1.increasing, hs.increasing, increasing_sorted hcollected.nodup⟩
  obtain ⟨st', hrun⟩ := mergeLoop_of_allMerge start.left hpending hordered hall
  rw [merge, hfree]
  simp only [hclaims, mergeStart, hc0, hc1, hc2, bind_ok]
  rw [hrun, bind_ok]
  exact ⟨_, _, rfl⟩

end LedgerAcceptance
