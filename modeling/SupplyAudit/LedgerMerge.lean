import SupplyAudit.PendingReceipts

/-!
# The merge is an exact keyed sum

The loop over three cursors and the sorted receipt keys is followed key by key.
Each step writes the row of the least key in sight, made from what each input
holds for exactly that key. A run that returns has therefore joined the four
inputs: one row a key, every amount in exactly one row.
-/

namespace LedgerMerge

open ScriptValues FallibleScan ActualSupplyLedger KeyedMerge LedgerReaders PendingReceipts

variable {py : PyText}

/-- The merged row of one key says exactly what the inputs hold for it. -/
structure RowOf (py : PyText) (current0 current1 currentStake : Option KeyedRow)
    (currentReceipt : Option PendingClaim) (row : LedgerRow) : Prop where
  liquidShard0 : intField py current0 "balance_atto" = .ok row.liquidShard0
  liquidShard1 : intField py current1 "balance_atto" = .ok row.liquidShard1
  activeDelegation : intField py currentStake "active_delegation_atto" = .ok row.activeDelegation
  pendingUndelegation :
    intField py currentStake "pending_undelegation_atto" = .ok row.pendingUndelegation
  unclaimedReward : intField py currentStake "unclaimed_reward_atto" = .ok row.unclaimedReward
  pendingCrossShard : row.pendingCrossShard = (currentReceipt.map PendingClaim.amount).getD 0
  liquidTotal : row.liquidTotal = row.liquidShard0 + row.liquidShard1
  totalClaim : row.totalClaim = row.liquidTotal + row.activeDelegation +
    row.pendingUndelegation + row.unclaimedReward + row.pendingCrossShard
  positive : 0 < row.totalClaim
  addresses : ∃ address0 address1 addressStake,
    optionalField current0 "address" = .ok address0 ∧
    optionalField current1 "address" = .ok address1 ∧
    optionalField currentStake "address" = .ok addressStake ∧
    ∀ a ∈ namedAddresses [address0, address1, addressStake,
        currentReceipt.map PendingClaim.address], py.lower a = py.lower row.address

theorem lower_eq_of_agree {addresses : List String}
    (h : ¬ ∃ first ∈ addresses.head?, ∃ a ∈ addresses.tail, py.lower a ≠ py.lower first)
    {a : String} (ha : a ∈ addresses) : py.lower a = py.lower (addresses.head?.getD "") := by
  cases addresses with
  | nil => cases ha
  | cons first rest =>
    rcases List.mem_cons.mp ha with rfl | ha
    · rfl
    · by_contra hne
      exact h ⟨first, rfl, a, ha, hne⟩

theorem mergedRow_ok {key : String} {current0 current1 currentStake : Option KeyedRow}
    {currentReceipt : Option PendingClaim} {row : LedgerRow}
    (h : mergedRow py key current0 current1 currentStake currentReceipt = .ok row) :
    row.secureKey = key ∧ RowOf py current0 current1 currentStake currentReceipt row := by
  simp only [mergedRow, bind_eq_ok] at h
  obtain ⟨address0, h0, address1, h1, addressStake, hs, h⟩ := h
  split at h
  · cases h
  rename_i hagree
  simp only [bind_eq_ok] at h
  obtain ⟨liquid0, hl0, liquid1, hl1, active, ha, undelegation, hu, reward, hr, h⟩ := h
  split at h
  · cases h
  rename_i hpositive
  simp only [bind_eq_ok] at h
  obtain ⟨nonce0, -, nonce1, -, codeHash0, -, codeHash1, -, h⟩ := h
  cases h
  exact ⟨rfl, hl0, hl1, ha, hu, hr, rfl, rfl, rfl, Int.not_le.mp hpositive,
    address0, address1, addressStake, h0, h1, hs, fun a => lower_eq_of_agree hagree⟩

/-- The column value of one row; the merge never returns on an unreadable one. -/
def column (py : PyText) (field : String) (row : KeyedRow) : Int :=
  match intField py (some row) field with
  | .ok value => value
  | .error _ => 0

theorem intField_eq_column {current : Option KeyedRow} {field : String} {value : Int}
    (h : intField py current field = .ok value) : value = current.elim 0 (column py field) := by
  cases current with
  | none => cases h; rfl
  | some row => simp only [Option.elim_some, column, h]

/-! ## The loop -/

/-- The rows written are the join of three keyed lists and a list of receipt keys. -/
structure Joined (py : PyText) (claims : PendingClaims) (l0 l1 ls : List KeyedRow)
    (keys : List String) (out : List LedgerRow) : Prop where
  increasing : Increasing LedgerRow.secureKey out
  covered : ∀ k, (∃ row ∈ out, row.secureKey = k) ↔
    (∃ r ∈ l0, r.secureKey = k) ∨ (∃ r ∈ l1, r.secureKey = k) ∨ (∃ r ∈ ls, r.secureKey = k) ∨
      ∃ key ∈ keys, key = k
  rows : ∀ row ∈ out, RowOf py (find KeyedRow.secureKey row.secureKey l0)
    (find KeyedRow.secureKey row.secureKey l1) (find KeyedRow.secureKey row.secureKey ls)
    (claims.lookup row.secureKey) row

/-- What each of the four inputs still holds. -/
structure Pending (py : PyText) (st : MergeState) (l0 l1 ls : List KeyedRow)
    (keys : List String) : Prop where
  liquid0 : Reads py st.liquid0 l0
  liquid1 : Reads py st.liquid1 l1
  staking : Reads py st.staking ls
  receiptKeys : st.receiptKeys = keys

/-- All four inputs have increasing keys. -/
structure Ordered (l0 l1 ls : List KeyedRow) (keys : List String) : Prop where
  liquid0 : Increasing KeyedRow.secureKey l0
  liquid1 : Increasing KeyedRow.secureKey l1
  staking : Increasing KeyedRow.secureKey ls
  receiptKeys : Increasing id keys

theorem Ordered.advance {l0 l1 ls : List KeyedRow} {keys : List String}
    (h : Ordered l0 l1 ls keys) (key : String) :
    Ordered (KeyedMerge.advance KeyedRow.secureKey key l0)
      (KeyedMerge.advance KeyedRow.secureKey key l1)
      (KeyedMerge.advance KeyedRow.secureKey key ls) (KeyedMerge.advance id key keys) :=
  ⟨advance_increasing h.liquid0 key, advance_increasing h.liquid1 key,
    advance_increasing h.staking key, advance_increasing h.receiptKeys key⟩

theorem current_id (key : String) (keys : List String) :
    advance id key keys = if keys.head? = some key then keys.tail else keys := by
  cases keys with
  | nil => rfl
  | cons k rest => by_cases hk : k = key <;> simp [advance, hk]

/-- Everything that a step of the loop does. -/
theorem mergeStep_ok {claims : PendingClaims} {st st' : MergeState} {key : String}
    (h : mergeStep py claims st key = .ok st') :
    ∃ current0 current1 currentStake row,
      st.liquid0.take py key = .ok (current0, st'.liquid0) ∧
      st.liquid1.take py key = .ok (current1, st'.liquid1) ∧
      st.staking.take py key = .ok (currentStake, st'.staking) ∧
      st'.receiptKeys = advance id key st.receiptKeys ∧
      mergedRow py key current0 current1 currentStake (claims.lookup key) = .ok row ∧
      st'.written = st.written ++ [row] ∧ st'.totals = st.totals.add row := by
  simp only [mergeStep, bind_eq_ok] at h
  obtain ⟨⟨current0, c0⟩, h0, ⟨current1, c1⟩, h1, ⟨currentStake, cs⟩, hs, row, hrow, h⟩ := h
  cases h
  exact ⟨current0, current1, currentStake, row, h0, h1, hs, (current_id key _).symm, hrow, rfl, rfl⟩

/-- The least key in sight is at most every key that is left. -/
theorem key_from {st : MergeState} {key : String} (h : st.key = some key)
    {l0 l1 ls : List KeyedRow} {keys : List String} (hp : Pending py st l0 l1 ls keys)
    (ho : Ordered l0 l1 ls keys) :
    From KeyedRow.secureKey key l0 ∧ From KeyedRow.secureKey key l1 ∧
      From KeyedRow.secureKey key ls ∧ From id key keys := by
  rw [MergeState.key, List.min?_eq_some_iff] at h
  obtain ⟨-, hle⟩ := h
  refine ⟨from_of_head ho.liquid0 ?_, from_of_head ho.liquid1 ?_, from_of_head ho.staking ?_,
    from_of_head ho.receiptKeys ?_⟩
  · intro r hr
    rw [← hp.liquid0.head] at hr
    exact hle _ (by simp [Option.mem_def.mp hr])
  · intro r hr
    rw [← hp.liquid1.head] at hr
    exact hle _ (by simp [Option.mem_def.mp hr])
  · intro r hr
    rw [← hp.staking.head] at hr
    exact hle _ (by simp [Option.mem_def.mp hr])
  · intro k hk
    rw [← hp.receiptKeys] at hk
    exact hle _ (by simp [Option.mem_def.mp hk])

/-- The least key in sight belongs to an input that is on it. -/
theorem key_taken {st : MergeState} {key : String} (h : st.key = some key) :
    (st.liquid0.head.filter (fun r => r.secureKey = key)).isSome ∨
      (st.liquid1.head.filter (fun r => r.secureKey = key)).isSome ∨
      (st.staking.head.filter (fun r => r.secureKey = key)).isSome ∨
      st.receiptKeys.head? = some key := by
  rw [MergeState.key, List.min?_eq_some_iff] at h
  obtain ⟨hmem, -⟩ := h
  rw [List.mem_filterMap] at hmem
  obtain ⟨candidate, hc, hk⟩ := hmem
  rw [id_eq] at hk
  subst hk
  simp only [List.mem_cons, List.not_mem_nil, or_false] at hc
  rcases hc with hc | hc | hc | hc
  · obtain ⟨r, hr, hkey⟩ := Option.map_eq_some_iff.mp hc.symm
    exact Or.inl (by simp [hr, Option.filter, hkey])
  · obtain ⟨r, hr, hkey⟩ := Option.map_eq_some_iff.mp hc.symm
    exact Or.inr (Or.inl (by simp [hr, Option.filter, hkey]))
  · obtain ⟨r, hr, hkey⟩ := Option.map_eq_some_iff.mp hc.symm
    exact Or.inr (Or.inr (Or.inl (by simp [hr, Option.filter, hkey])))
  · exact Or.inr (Or.inr (Or.inr hc.symm))

theorem key_eq_none {st : MergeState} (h : st.key = none) :
    st.liquid0.head = none ∧ st.liquid1.head = none ∧ st.staking.head = none ∧
      st.receiptKeys = [] := by
  rw [MergeState.key, List.min?_eq_none_iff, List.filterMap_eq_nil_iff] at h
  simpa using h

theorem key_current {st : MergeState} {key : String} (h : st.key = some key)
    {l0 l1 ls : List KeyedRow} {keys : List String} (hp : Pending py st l0 l1 ls keys) :
    (current KeyedRow.secureKey key l0).isSome ∨ (current KeyedRow.secureKey key l1).isSome ∨
      (current KeyedRow.secureKey key ls).isSome ∨ (current id key keys).isSome := by
  have htaken := key_taken h
  rw [hp.liquid0.head, hp.liquid1.head, hp.staking.head, hp.receiptKeys] at htaken
  refine htaken.imp_right (Or.imp_right (Or.imp_right fun hhead => ?_))
  simp [current, hhead, Option.filter]

/-- Every step gives out a row, so the loop's measure decreases. -/
theorem left_mergeStep {claims : PendingClaims} {st st' : MergeState} {key : String}
    (h : mergeStep py claims st key = .ok st') (hkey : st.key = some key) : st'.left < st.left := by
  obtain ⟨current0, current1, currentStake, row, h0, h1, hs, hreceipts, -⟩ := mergeStep_ok h
  have hleft0 := left_take h0
  have hleft1 := left_take h1
  have hleftS := left_take hs
  have htaken0 := taken_eq h0
  have htaken1 := taken_eq h1
  have htakenS := taken_eq hs
  have hkeys := congrArg List.length (current_append_advance id key st.receiptKeys)
  rw [List.length_append, ← hreceipts] at hkeys
  rw [MergeState.left, MergeState.left]
  rcases key_taken hkey with hsome | hsome | hsome | hsome
  · rw [← htaken0, Option.isSome_iff_exists] at hsome
    obtain ⟨r, rfl⟩ := hsome
    rw [Option.toList_some, List.length_singleton] at hleft0
    omega
  · rw [← htaken1, Option.isSome_iff_exists] at hsome
    obtain ⟨r, rfl⟩ := hsome
    rw [Option.toList_some, List.length_singleton] at hleft1
    omega
  · rw [← htakenS, Option.isSome_iff_exists] at hsome
    obtain ⟨r, rfl⟩ := hsome
    rw [Option.toList_some, List.length_singleton] at hleftS
    omega
  · rw [show current id key st.receiptKeys = some key by simp [current, hsome, Option.filter],
      Option.toList_some, List.length_singleton] at hkeys
    omega

theorem key_eq_none_of_left {st : MergeState} (h : st.left = 0) : st.key = none := by
  simp only [MergeState.left, Cursor.left, Nat.add_eq_zero_iff, List.length_eq_zero_iff,
    Option.toList_eq_nil_iff] at h
  obtain ⟨⟨⟨⟨h0, -⟩, ⟨h1, -⟩⟩, ⟨hs, -⟩⟩, hkeys⟩ := h
  simp [MergeState.key, h0, h1, hs, hkeys]

/-- With a step for every row the loop runs until no key is in sight. -/
theorem mergeLoop_ends {claims : PendingClaims} (fuel : Nat) {st st' : MergeState}
    (h : mergeLoop py claims fuel st = .ok st') (hfuel : st.left ≤ fuel) : st'.key = none := by
  induction fuel generalizing st with
  | zero =>
    cases h
    exact key_eq_none_of_left (Nat.le_zero.mp hfuel)
  | succ fuel ih =>
    rw [mergeLoop] at h
    split at h
    · rename_i hnone
      cases h
      exact hnone
    · rename_i key hkey
      rw [bind_eq_ok] at h
      obtain ⟨next, hstep, hrest⟩ := h
      have hless := left_mergeStep hstep hkey
      exact ih hrest (by omega)

theorem pending_nil {st : MergeState} (hkey : st.key = none) (h0 : Settled st.liquid0)
    (h1 : Settled st.liquid1) (hs : Settled st.staking) : Pending py st [] [] [] [] := by
  have hdone : ∀ {c : Cursor}, Settled c → c.head = none → Reads py c [] := by
    rintro ⟨head, s⟩ hc rfl
    exact .done s (hc rfl)
  obtain ⟨hhead0, hhead1, hheadS, hkeys⟩ := key_eq_none hkey
  exact ⟨hdone h0 hhead0, hdone h1 hhead1, hdone hs hheadS, hkeys⟩

/-- A run that ends has read its three files completely. -/
theorem mergeLoop_reads {claims : PendingClaims} (fuel : Nat) {st st' : MergeState}
    (h : mergeLoop py claims fuel st = .ok st') (hend : st'.key = none)
    (h0 : Settled st.liquid0) (h1 : Settled st.liquid1) (hs : Settled st.staking) :
    ∃ l0 l1 ls, Pending py st l0 l1 ls st.receiptKeys := by
  induction fuel generalizing st with
  | zero =>
    cases h
    obtain ⟨hr0, hr1, hrs, -⟩ := pending_nil hend h0 h1 hs
    exact ⟨[], [], [], hr0, hr1, hrs, rfl⟩
  | succ fuel ih =>
    rw [mergeLoop] at h
    split at h
    · rename_i hkey
      obtain ⟨hr0, hr1, hrs, -⟩ := pending_nil hkey h0 h1 hs
      exact ⟨[], [], [], hr0, hr1, hrs, rfl⟩
    · rename_i key hkey
      rw [bind_eq_ok] at h
      obtain ⟨next, hstep, hrest⟩ := h
      obtain ⟨_, _, _, _, ht0, ht1, hts, -⟩ := mergeStep_ok hstep
      obtain ⟨l0, l1, ls, hnext⟩ := ih hrest (h0.take ht0) (h1.take ht1) (hs.take hts)
      obtain ⟨m0, hm0⟩ := hnext.liquid0.exists_before ht0
      obtain ⟨m1, hm1⟩ := hnext.liquid1.exists_before ht1
      obtain ⟨ms, hms⟩ := hnext.staking.exists_before hts
      exact ⟨m0, m1, ms, hm0, hm1, hms, rfl⟩

/-- The row of the least key in front of the join of what is left. -/
theorem Joined.cons {claims : PendingClaims} {l0 l1 ls : List KeyedRow} {keys : List String}
    {key : String} {row : LedgerRow} {out : List LedgerRow} (ho : Ordered l0 l1 ls keys)
    (hfrom : From KeyedRow.secureKey key l0 ∧ From KeyedRow.secureKey key l1 ∧
      From KeyedRow.secureKey key ls ∧ From id key keys)
    (hsight : (current KeyedRow.secureKey key l0).isSome ∨
      (current KeyedRow.secureKey key l1).isSome ∨
      (current KeyedRow.secureKey key ls).isSome ∨ (current id key keys).isSome)
    (hkey : row.secureKey = key)
    (hrow : RowOf py (current KeyedRow.secureKey key l0) (current KeyedRow.secureKey key l1)
      (current KeyedRow.secureKey key ls) (claims.lookup key) row)
    (h : Joined py claims (advance KeyedRow.secureKey key l0) (advance KeyedRow.secureKey key l1)
      (advance KeyedRow.secureKey key ls) (advance id key keys) out) :
    Joined py claims l0 l1 ls keys (row :: out) := by
  obtain ⟨hfrom0, hfrom1, hfromS, hfromK⟩ := hfrom
  have hafter : ∀ r ∈ out, key < r.secureKey := by
    intro r hr
    rcases (h.covered r.secureKey).mp ⟨r, hr, rfl⟩ with
      ⟨a, ha, heq⟩ | ⟨a, ha, heq⟩ | ⟨a, ha, heq⟩ | ⟨a, ha, heq⟩
    · exact heq ▸ lt_of_mem_advance ho.liquid0 hfrom0 ha
    · exact heq ▸ lt_of_mem_advance ho.liquid1 hfrom1 ha
    · exact heq ▸ lt_of_mem_advance ho.staking hfromS ha
    · exact heq ▸ lt_of_mem_advance ho.receiptKeys hfromK ha
  refine ⟨List.pairwise_cons.mpr ⟨fun r hr => hkey ▸ hafter r hr, h.increasing⟩, ?_, ?_⟩
  · intro k
    have hcovered := h.covered k
    rw [mem_keys_iff KeyedRow.secureKey key k l0, mem_keys_iff KeyedRow.secureKey key k l1,
      mem_keys_iff KeyedRow.secureKey key k ls,
      show (∃ x ∈ keys, x = k) ↔ _ from mem_keys_iff id key k keys]
    constructor
    · rintro ⟨r, hr, rfl⟩
      rcases List.mem_cons.mp hr with rfl | hr
      · rcases hsight with hsome | hsome | hsome | hsome
        · exact Or.inl (Or.inl ⟨hkey, hsome⟩)
        · exact Or.inr (Or.inl (Or.inl ⟨hkey, hsome⟩))
        · exact Or.inr (Or.inr (Or.inl (Or.inl ⟨hkey, hsome⟩)))
        · exact Or.inr (Or.inr (Or.inr (Or.inl ⟨hkey, hsome⟩)))
      · rcases hcovered.mp ⟨r, hr, rfl⟩ with hk | hk | hk | hk
        · exact Or.inl (Or.inr hk)
        · exact Or.inr (Or.inl (Or.inr hk))
        · exact Or.inr (Or.inr (Or.inl (Or.inr hk)))
        · exact Or.inr (Or.inr (Or.inr (Or.inr hk)))
    · have hhead : k = key → ∃ r ∈ row :: out, r.secureKey = k :=
        fun hk => ⟨row, List.mem_cons_self, hkey.trans hk.symm⟩
      have htail : ((∃ r ∈ advance KeyedRow.secureKey key l0, r.secureKey = k) ∨
          (∃ r ∈ advance KeyedRow.secureKey key l1, r.secureKey = k) ∨
          (∃ r ∈ advance KeyedRow.secureKey key ls, r.secureKey = k) ∨
          ∃ x ∈ advance id key keys, x = k) → ∃ r ∈ row :: out, r.secureKey = k := by
        intro hk
        obtain ⟨r, hr, hrk⟩ := hcovered.mpr hk
        exact ⟨r, List.mem_cons_of_mem row hr, hrk⟩
      rintro ((⟨hk, -⟩ | hk) | (⟨hk, -⟩ | hk) | (⟨hk, -⟩ | hk) | (⟨hk, -⟩ | hk))
      · exact hhead hk
      · exact htail (Or.inl hk)
      · exact hhead hk
      · exact htail (Or.inr (Or.inl hk))
      · exact hhead hk
      · exact htail (Or.inr (Or.inr (Or.inl hk)))
      · exact hhead hk
      · exact htail (Or.inr (Or.inr (Or.inr hk)))
  · intro r hr
    rcases List.mem_cons.mp hr with rfl | hr
    · rw [current_eq_find ho.liquid0 hfrom0, current_eq_find ho.liquid1 hfrom1,
        current_eq_find ho.staking hfromS] at hrow
      rw [hkey]
      exact hrow
    · have hne : r.secureKey ≠ key := ne_of_gt (hafter r hr)
      have hrest := h.rows r hr
      rw [find_advance hne, find_advance hne, find_advance hne] at hrest
      exact hrest

theorem Joined.nil {claims : PendingClaims} {st : MergeState} {l0 l1 ls : List KeyedRow}
    {keys : List String} (hp : Pending py st l0 l1 ls keys) (hkey : st.key = none) :
    Joined py claims l0 l1 ls keys [] := by
  obtain ⟨hhead0, hhead1, hheadS, hkeys⟩ := key_eq_none hkey
  rw [hp.liquid0.head, List.head?_eq_none_iff] at hhead0
  rw [hp.liquid1.head, List.head?_eq_none_iff] at hhead1
  rw [hp.staking.head, List.head?_eq_none_iff] at hheadS
  rw [hp.receiptKeys] at hkeys
  subst hhead0 hhead1 hheadS hkeys
  exact ⟨List.Pairwise.nil, fun k => by simp, fun row hrow => absurd hrow List.not_mem_nil⟩

/-- The run writes the join of the four inputs and adds up its rows. -/
theorem mergeLoop_joined {claims : PendingClaims} (fuel : Nat) {st st' : MergeState}
    (h : mergeLoop py claims fuel st = .ok st') (hend : st'.key = none)
    {l0 l1 ls : List KeyedRow} {keys : List String} (hp : Pending py st l0 l1 ls keys)
    (ho : Ordered l0 l1 ls keys) :
    ∃ out, st'.written = st.written ++ out ∧ st'.totals = out.foldl Totals.add st.totals ∧
      Joined py claims l0 l1 ls keys out := by
  induction fuel generalizing st l0 l1 ls keys with
  | zero =>
    cases h
    exact ⟨[], (List.append_nil _).symm, rfl, Joined.nil hp hend⟩
  | succ fuel ih =>
    rw [mergeLoop] at h
    split at h
    · rename_i hkey
      cases h
      exact ⟨[], (List.append_nil _).symm, rfl, Joined.nil hp hkey⟩
    · rename_i key hkey
      rw [bind_eq_ok] at h
      obtain ⟨next, hstep, hrest⟩ := h
      obtain ⟨current0, current1, currentStake, row, ht0, ht1, hts, hreceipts, hrow, hwritten,
        htotals⟩ := mergeStep_ok hstep
      obtain ⟨rfl, hr0⟩ := hp.liquid0.advance ht0
      obtain ⟨rfl, hr1⟩ := hp.liquid1.advance ht1
      obtain ⟨rfl, hrs⟩ := hp.staking.advance hts
      rw [hp.receiptKeys] at hreceipts
      obtain ⟨out, hout, hsum, hjoined⟩ := ih hrest ⟨hr0, hr1, hrs, hreceipts⟩ (ho.advance key)
      have hsight := key_current hkey hp
      obtain ⟨hrowKey, hrowOf⟩ := mergedRow_ok hrow
      refine ⟨row :: out, ?_, ?_, hjoined.cons ho (key_from hkey hp ho) hsight hrowKey hrowOf⟩
      · rw [hout, hwritten, List.append_assoc, List.singleton_append]
      · rw [hsum, htotals, List.foldl_cons]

end LedgerMerge
