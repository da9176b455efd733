import Mathlib.Algebra.Order.BigOperators.Group.List
import Mathlib.Algebra.Order.Group.Int
import SupplyAudit.CutConsistency
import SupplyAudit.IndependentSums
import SupplyAudit.LedgerAcceptance
import SupplyAudit.ReceiptReports

/-!
# What the ledger accepts of the scanners

The exports of any states and the report of any receipt scan are well keyed,
readable and agree about addresses, as long as Keccak-256 does not collide on
addresses. The one reason left to refuse them is a key with a pending receipt
of zero, no other pending receipt and no exported row.
-/

namespace PipelineAcceptance

open ByteWords NumeralText HexText ReceiptKeys ChainDatabase FallibleScan ScriptValues StateTrie
  SnapshotRows StakingTotals ActualSupplyLedger LedgerReaders PendingReceipts LedgerMerge
  LedgerTotals LedgerInputs IndependentSums LedgerAcceptance ReceiptReports

variable {state : StateCodec} {py : PyText}

/-- No two addresses have one digest. -/
def AddressInjective (keccak256 : Bytes → Hash) : Prop :=
  ∀ a b : Address, keccak256 a.data = keccak256 b.data → a = b

/-! ## Texts -/

theorem lower_prefixedHex (bs : Bytes) : py.lower (prefixedHex bs) = prefixedHex bs := by
  rw [py.lower_ascii _ (ascii_prefixedHex bs), toLower_prefixedHex]

theorem lower_addressHex (a : Address) : py.lower (addressHex state a) = prefixedHex a.data := by
  rw [addressHex, py.lower_ascii _ (ascii_checksumHex _ _), toLower_checksumHex]
  intro text
  have ha := a.size
  have hdigest := (state.keccak256 text).size
  omega

/-- The text is empty or names the address that the key was hashed from. -/
def NamesKey (state : StateCodec) (py : PyText) (key text : String) : Prop :=
  text = "" ∨ ∃ a : Address, prefixedHex (state.keccak256 a.data).data = key ∧
    py.lower text = prefixedHex a.data

theorem NamesKey.agree (hinjective : AddressInjective state.keccak256) {key a b : String}
    (ha : NamesKey state py key a) (hb : NamesKey state py key b) (hane : a ≠ "") (hbne : b ≠ "") :
    py.lower a = py.lower b := by
  rcases ha with rfl | ⟨address, hkey, hlower⟩
  · exact absurd rfl hane
  rcases hb with rfl | ⟨address', hkey', hlower'⟩
  · exact absurd rfl hbne
  have hdigest : state.keccak256 address.data = state.keccak256 address'.data := by
    apply FixedBytes.ext
    apply prefixedHex_injective
    · rw [(state.keccak256 address.data).size, (state.keccak256 address'.data).size]
    · rw [hkey, hkey']
  rw [hlower, hlower', hinjective address address' hdigest]

/-! ## The exports as keyed rows -/

def snapshotKeyed (row : BalanceRow) : KeyedRow := ⟨prefixedHex row.key.data, snapshotRow row⟩

def stakingKeyed (state : StateCodec) (entry : Hash × StakingClaims.Claim) : KeyedRow :=
  ⟨prefixedHex entry.1.data, stakingRow state entry⟩

/-- Rows with printed keys in byte order are well keyed. -/
theorem keyedAs_printed {α : Type} {entries : List α} {key : α → Hash} {toRow : α → Row}
    (hkey : ∀ e, (toRow e).get "secure_key" = .ok (some (prefixedHex (key e).data)))
    (hsorted : entries.Pairwise fun a b => (key a).data < (key b).data) :
    KeyedAs py (entries.map toRow)
      (entries.map fun e => ⟨prefixedHex (key e).data, toRow e⟩) where
  fields := by
    rw [List.map_map]
    rfl
  keys r hr := by
    obtain ⟨e, -, rfl⟩ := List.mem_map.mp hr
    rw [rowKey, hkey, bind_ok, PyText.lowered, lower_prefixedHex]
  increasing := by
    rw [KeyedMerge.Increasing, List.pairwise_map]
    refine hsorted.imp ?_
    intro a b hlt
    exact prefixedHex_lt ((key a).size.trans (key b).size.symm) hlt

/-- The balance rows that a snapshot exports. -/
def balanceRows (state : StateCodec) (db : Database) (trie : Trie) : List BalanceRow :=
  trie.leaves.filterMap (rowAt state db)

theorem snapshot_rows {db : Database} {trie : Trie} {root : Hash} {threshold : Int}
    {requirePreimages : Bool} {snapshot : AccountSnapshot.Output}
    (h : AccountSnapshot.main state db trie root threshold requirePreimages = .ok snapshot) :
    dictRows snapshot.csv = (balanceRows state db trie).map snapshotRow := by
  rw [(SnapshotRows.main_ok h).1, dictRows, List.map_map, balanceRows]
  rfl

theorem snapshot_keyedAs {db : Database} {trie : Trie} {root : Hash} {threshold : Int}
    {requirePreimages : Bool} {snapshot : AccountSnapshot.Output}
    (h : AccountSnapshot.main state db trie root threshold requirePreimages = .ok snapshot) :
    KeyedAs py (dictRows snapshot.csv) ((balanceRows state db trie).map snapshotKeyed) := by
  rw [snapshot_rows h]
  apply keyedAs_printed snapshotRow_key
  rw [balanceRows, List.pairwise_filterMap]
  refine trie.increasing.imp ?_
  intro a b hlt row hrow row' hrow'
  rw [(rowAt_spec hrow).1, (rowAt_spec hrow').1]
  exact hlt

theorem staking_rows {db : Database} {trie : Trie} {root : Hash} {discover : Bool}
    {staking : StakingClaims.Output}
    (h : StakingClaims.main state db trie root discover = .ok staking) :
    ∃ p, Claimed state p ∧
      dictRows staking.csv = (StakingClaims.reportedClaims p).map (stakingRow state) := by
  rw [StakingClaims.main, bind_eq_ok] at h
  obtain ⟨p, hp, h⟩ := h
  cases h
  obtain ⟨ws, hheld⟩ := collect_ok hp
  refine ⟨p, hheld.claimed, ?_⟩
  rw [dictRows, List.map_map]
  rfl

theorem staking_keyedAs {p : StakingClaims.Progress} (hp : Claimed state p) :
    KeyedAs py ((StakingClaims.reportedClaims p).map (stakingRow state))
      ((StakingClaims.reportedClaims p).map (stakingKeyed state)) :=
  keyedAs_printed stakingRow_key (reportedClaims_increasing hp)

/-! ## What the exports hold for a key -/

theorem optionalField_some {r : KeyedRow} {field text : String}
    (h : r.fields.get field = .ok (some text)) : optionalField (some r) field = .ok (some text) := h

/-- A snapshot's row of a key: readable, positive and with the key's address. -/
theorem snapshot_fields (state : StateCodec) (py : PyText) (db : Database) (trie : Trie)
    (k : String) :
    ∃ address balance,
      LiquidFields py (KeyedMerge.find KeyedRow.secureKey k
        ((balanceRows state db trie).map snapshotKeyed)) address balance ∧ 0 ≤ balance ∧
      ((∃ r ∈ (balanceRows state db trie).map snapshotKeyed, r.secureKey = k) → 0 < balance) ∧
      ∀ text, address = some text → NamesKey state py k text := by
  cases hfind : KeyedMerge.find KeyedRow.secureKey k
      ((balanceRows state db trie).map snapshotKeyed) with
  | none =>
    refine ⟨none, 0, ⟨rfl, rfl, ⟨none, rfl⟩, ⟨none, rfl⟩⟩, le_refl 0, ?_, nofun⟩
    rintro ⟨r, hr, hkey⟩
    rw [KeyedMerge.find, List.find?_eq_none] at hfind
    exact absurd hkey (by simpa using hfind r hr)
  | some r =>
    obtain ⟨hr, hkey⟩ := KeyedMerge.mem_of_find hfind
    obtain ⟨row, hrow, rfl⟩ := List.mem_map.mp hr
    obtain ⟨leaf, -, hat⟩ := List.mem_filterMap.mp hrow
    obtain ⟨-, haddress, hpositive⟩ := rowAt_spec hat
    refine ⟨some row.address, row.balance, ⟨?_, ?_, ?_, ?_⟩, le_of_lt hpositive,
      fun _ => hpositive, ?_⟩
    · exact optionalField_some (snapshotRow_address row)
    · exact intField_of_get (snapshotRow_balance row) (le_of_lt hpositive)
    · exact ⟨some (toString row.nonce.toNat), rfl⟩
    · exact ⟨some (prefixedHex row.codeHash), rfl⟩
    · rintro text ⟨⟩
      rw [haddress]
      rcases addressAt_spec state db row.key with hempty | ⟨a, hdigest, htext⟩
      · exact Or.inl hempty
      · refine Or.inr ⟨a, ?_, ?_⟩
        · rw [hdigest]
          exact hkey
        · rw [htext, lower_addressHex]

/-- A staking row of a key: readable, positive together and with the key's address. -/
theorem staking_fields (py : PyText) {p : StakingClaims.Progress} (hp : Claimed state p)
    (k : String) :
    ∃ address active undelegation reward,
      StakeFields py (KeyedMerge.find KeyedRow.secureKey k
        ((StakingClaims.reportedClaims p).map (stakingKeyed state))) address active undelegation
        reward ∧ 0 ≤ active ∧ 0 ≤ undelegation ∧ 0 ≤ reward ∧
      ((∃ r ∈ (StakingClaims.reportedClaims p).map (stakingKeyed state), r.secureKey = k) →
        0 < active + undelegation + reward) ∧
      ∀ text, address = some text → NamesKey state py k text := by
  cases hfind : KeyedMerge.find KeyedRow.secureKey k
      ((StakingClaims.reportedClaims p).map (stakingKeyed state)) with
  | none =>
    refine ⟨none, 0, 0, 0, ⟨rfl, rfl, rfl, rfl⟩, le_refl 0, le_refl 0, le_refl 0, ?_, nofun⟩
    rintro ⟨r, hr, hkey⟩
    rw [KeyedMerge.find, List.find?_eq_none] at hfind
    exact absurd hkey (by simpa using hfind r hr)
  | some r =>
    obtain ⟨hr, hkey⟩ := KeyedMerge.mem_of_find hfind
    obtain ⟨entry, hentry, rfl⟩ := List.mem_map.mp hr
    obtain ⟨hmem, hzero⟩ := (mem_reportedClaims_iff p entry).mp hentry
    obtain ⟨hactive, hpending, hreward⟩ := hp.nonneg entry hmem
    refine ⟨some (addressHex state entry.2.address), entry.2.active, entry.2.pendingUndelegation,
      entry.2.reward, ⟨?_, ?_, ?_, ?_⟩, hactive, hpending, hreward, fun _ => ?_, ?_⟩
    · exact optionalField_some (stakingRow_address entry)
    · exact intField_of_get (stakingRow_active entry) hactive
    · exact intField_of_get (stakingRow_pending entry) hpending
    · exact intField_of_get (stakingRow_reward entry) hreward
    · have hsome : ¬ (entry.2.active = 0 ∧ entry.2.pendingUndelegation = 0 ∧
          entry.2.reward = 0) := by
        simpa [StakingClaims.Claim.isZero] using hzero
      omega
    · rintro text ⟨⟩
      refine Or.inr ⟨entry.2.address, ?_, lower_addressHex _⟩
      rw [← hp.named entry hmem]
      exact hkey

/-! ## What the report holds for a key -/

section Report
variable {lib : CrossShardSupply.Codec} {rs : List CrossShardSupply.Receipt}

theorem key_eq_iff (r r' : CrossShardSupply.Receipt) :
    (claimOf lib r).key = (claimOf lib r').key ↔
      (detail lib r).secureKey = (detail lib r').secureKey := by
  constructor
  · intro hkey
    apply FixedBytes.ext
    apply prefixedHex_injective _ hkey
    exact (lib.keccak256 r.recipient.data).size.trans (lib.keccak256 r'.recipient.data).size.symm
  · intro hkey
    exact congrArg (fun key : Hash => prefixedHex key.data) hkey

theorem oneAddress (hinjective : AddressInjective lib.keccak256) :
    OneAddress py (rs.map (claimOf lib)) := by
  intro c hc c' hc' hkey
  obtain ⟨r, -, rfl⟩ := List.mem_map.mp hc
  obtain ⟨r', -, rfl⟩ := List.mem_map.mp hc'
  rw [claimOf, claimOf, hinjective _ _ ((key_eq_iff r r').mp hkey)]

theorem claim_namesKey (hkeccak : lib.keccak256 = state.keccak256) {claims : PendingClaims}
    (hc : Collected py (rs.map (claimOf lib)) claims) {k : String} {claim : PendingClaim}
    (hclaim : claims.lookup k = some claim) : NamesKey state py k claim.address := by
  have hmem : k ∈ claims.map Prod.fst := List.mem_map_of_mem (KeyedTable.mem_of_lookup hclaim)
  obtain ⟨c, hcmem, rfl⟩ := (hc.keys k).mp hmem
  have hsame := hc.address c hcmem claim hclaim
  obtain ⟨r, -, rfl⟩ := List.mem_map.mp hcmem
  refine Or.inr ⟨r.recipient, ?_, ?_⟩
  · rw [claimOf, hkeccak]
  · rw [hsame, claimOf, lower_prefixedHex]

theorem sum_nonneg_of_receipts (lib : CrossShardSupply.Codec)
    (rs : List CrossShardSupply.Receipt) (k : String) :
    0 ≤ (((rs.map (claimOf lib)).filter fun c => c.key = k).map ReceiptClaim.amount).sum := by
  apply List.sum_nonneg
  intro amount hamount
  obtain ⟨c, hc, rfl⟩ := List.mem_map.mp hamount
  obtain ⟨r, -, rfl⟩ := List.mem_map.mp (List.mem_filter.mp hc).1
  exact r.nonneg

variable (lib rs) in
/-- The receipts of a key are together positive when one of them is. -/
theorem sum_pos_iff (k : String) :
    0 < (((rs.map (claimOf lib)).filter fun c => c.key = k).map ReceiptClaim.amount).sum ↔
      ∃ r ∈ rs, (claimOf lib r).key = k ∧ 0 < r.amount := by
  induction rs with
  | nil => simp
  | cons r rest ih =>
    have hrest := sum_nonneg_of_receipts lib rest k
    have hr := r.nonneg
    rw [List.map_cons]
    by_cases hkey : (claimOf lib r).key = k
    · rw [List.filter_cons_of_pos (by simpa using hkey), List.map_cons, List.sum_cons]
      have hamount : (claimOf lib r).amount = r.amount := rfl
      constructor
      · intro hpos
        by_cases hzero : 0 < r.amount
        · exact ⟨r, List.mem_cons_self, hkey, hzero⟩
        · obtain ⟨r', hr', hkey', hpos'⟩ := ih.mp (by omega)
          exact ⟨r', List.mem_cons_of_mem r hr', hkey', hpos'⟩
      · rintro ⟨r', hr', hkey', hpos'⟩
        rcases List.mem_cons.mp hr' with rfl | hr'
        · omega
        · have hsum := ih.mpr ⟨r', hr', hkey', hpos'⟩
          omega
    · rw [List.filter_cons_of_neg (by simpa using hkey), ih]
      constructor
      · rintro ⟨r', hr', hkey', hpos'⟩
        exact ⟨r', List.mem_cons_of_mem r hr', hkey', hpos'⟩
      · rintro ⟨r', hr', hkey', hpos'⟩
        rcases List.mem_cons.mp hr' with rfl | hr'
        · exact absurd hkey' hkey
        · exact ⟨r', hr', hkey', hpos'⟩

end Report

/-! ## The pipeline -/

/-- Some export has a row of this key. -/
def Exported (key : Hash) (exports : List (List (List String))) : Prop :=
  ∃ csv ∈ exports, ∃ row ∈ dictRows csv,
    row.get "secure_key" = .ok (some (prefixedHex key.data))

/-- Every pending receipt goes to an exported key or to one that some pending
receipt pays a positive amount to. -/
def Funded (summary : CrossShardSupply.Summary) (exports : List (List (List String))) : Prop :=
  ∀ receipt ∈ pendingReceipts summary,
    Exported receipt.secureKey exports ∨
      ∃ other ∈ pendingReceipts summary, other.secureKey = receipt.secureKey ∧
        ∃ amount, readInt other.amountAtto = some amount ∧ 0 < amount

/-- A row of an export by its key in the ledger. -/
theorem exported_iff {rows : List Row} {l : List KeyedRow} (hl : KeyedAs py rows l)
    (hprinted : ∀ row ∈ rows, ∃ key : Hash,
      row.get "secure_key" = .ok (some (prefixedHex key.data))) (key : Hash) :
    (∃ r ∈ l, r.secureKey = prefixedHex key.data) ↔
      ∃ row ∈ rows, row.get "secure_key" = .ok (some (prefixedHex key.data)) := by
  have hread : ∀ {row : Row} {key : Hash},
      row.get "secure_key" = .ok (some (prefixedHex key.data)) →
      rowKey py row = .ok (prefixedHex key.data) := by
    intro row key hget
    rw [rowKey, hget, bind_ok, PyText.lowered, lower_prefixedHex]
  constructor
  · rintro ⟨r, hr, hkey⟩
    have hmem : r.fields ∈ rows := by
      rw [← hl.fields]
      exact List.mem_map_of_mem hr
    obtain ⟨key', hget⟩ := hprinted r.fields hmem
    have hown := hl.keys r hr
    rw [hread hget, Except.ok.injEq, hkey] at hown
    exact ⟨r.fields, hmem, hown ▸ hget⟩
  · rintro ⟨row, hrow, hget⟩
    obtain ⟨r, hr, hkey, -, -⟩ := hl.find_of_mem hrow (hread hget)
    exact ⟨r, hr, hkey⟩

section Merge
variable {lib : CrossShardSupply.Codec} {rs : List CrossShardSupply.Receipt} {db0 db1 : Database}
  {trie0 trie1 : Trie} {p : StakingClaims.Progress}

/-- Some row or receipt of the key is worth something. -/
def Worth (lib : CrossShardSupply.Codec) (rs : List CrossShardSupply.Receipt)
    (l0 l1 ls : List KeyedRow) (k : String) : Prop :=
  (∃ r ∈ l0, r.secureKey = k) ∨ (∃ r ∈ l1, r.secureKey = k) ∨ (∃ r ∈ ls, r.secureKey = k) ∨
    ∃ r ∈ rs, (claimOf lib r).key = k ∧ 0 < r.amount

/-- With a worth for every pending receipt every key merges. -/
theorem allMerge_of_worth (hkeccak : lib.keccak256 = state.keccak256)
    (hinjective : AddressInjective state.keccak256) (hp : Claimed state p) {claims : PendingClaims}
    (hc : Collected py (rs.map (claimOf lib)) claims)
    (hworth : ∀ r ∈ rs, Worth lib rs ((balanceRows state db0 trie0).map snapshotKeyed)
      ((balanceRows state db1 trie1).map snapshotKeyed)
      ((StakingClaims.reportedClaims p).map (stakingKeyed state)) (claimOf lib r).key) :
    AllMerge py claims ((balanceRows state db0 trie0).map snapshotKeyed)
      ((balanceRows state db1 trie1).map snapshotKeyed)
      ((StakingClaims.reportedClaims p).map (stakingKeyed state))
      ((claims.map Prod.fst).insertionSort (· ≤ ·)) := by
  intro k hk
  obtain ⟨address0, balance0, hfields0, hnonneg0, hpos0, hnames0⟩ :=
    snapshot_fields state py db0 trie0 k
  obtain ⟨address1, balance1, hfields1, hnonneg1, hpos1, hnames1⟩ :=
    snapshot_fields state py db1 trie1 k
  obtain ⟨addressStake, active, undelegation, reward, hfieldsS, hactive, hundelegation, hreward,
    hposS, hnamesS⟩ := staking_fields py hp k
  have hpending := sum_nonneg_of_receipts lib rs k
  have hamount : ((claims.lookup k).map PendingClaim.amount).getD 0 =
      (((rs.map (claimOf lib)).filter fun c => c.key = k).map ReceiptClaim.amount).sum := by
    rw [claimed_eq_shareAt, hc.amount]
  have hnames : ∀ a ∈ namedAddresses [address0, address1, addressStake,
      (claims.lookup k).map PendingClaim.address], a ≠ "" ∧ NamesKey state py k a := by
    intro a ha
    obtain ⟨hmem, hne⟩ := mem_namedAddresses.mp ha
    refine ⟨hne, ?_⟩
    simp only [List.mem_cons, List.not_mem_nil, or_false] at hmem
    rcases hmem with h | h | h | h
    · exact hnames0 a h.symm
    · exact hnames1 a h.symm
    · exact hnamesS a h.symm
    · obtain ⟨claim, hclaim, rfl⟩ := Option.map_eq_some_iff.mp h.symm
      exact claim_namesKey hkeccak hc hclaim
  have hsome : Worth lib rs ((balanceRows state db0 trie0).map snapshotKeyed)
      ((balanceRows state db1 trie1).map snapshotKeyed)
      ((StakingClaims.reportedClaims p).map (stakingKeyed state)) k := by
    rcases hk with h | h | h | ⟨key, hkey, rfl⟩
    · exact Or.inl h
    · exact Or.inr (Or.inl h)
    · exact Or.inr (Or.inr (Or.inl h))
    · rw [(List.perm_insertionSort _ _).mem_iff] at hkey
      obtain ⟨c, hcmem, rfl⟩ := (hc.keys key).mp hkey
      obtain ⟨r, hr, rfl⟩ := List.mem_map.mp hcmem
      exact hworth r hr
  refine mergedRow_of_fields hfields0 hfields1 hfieldsS ?_ ?_
  · intro a ha b hb
    obtain ⟨hane, hakey⟩ := hnames a ha
    obtain ⟨hbne, hbkey⟩ := hnames b hb
    exact hakey.agree hinjective hbkey hane hbne
  · rw [hamount]
    rcases hsome with h | h | h | h
    · have hpos := hpos0 h
      omega
    · have hpos := hpos1 h
      omega
    · have hpos := hposS h
      omega
    · have hpos := (sum_pos_iff _ _ k).mpr h
      omega

/-- A ledger has a positive row for every pending receipt. -/
theorem worth_of_run {inputs : InputFiles} {l0 l1 ls : List KeyedRow} {claims : PendingClaims}
    {out : List LedgerRow} (h : Run py inputs l0 l1 ls (rs.map (claimOf lib)) claims out)
    {r : CrossShardSupply.Receipt} (hr : r ∈ rs) : Worth lib rs l0 l1 ls (claimOf lib r).key := by
  have hmem : claimOf lib r ∈ rs.map (claimOf lib) := List.mem_map_of_mem hr
  obtain ⟨row, hout, hkey⟩ := (h.covered (claimOf lib r).key).mpr
    (Or.inr (Or.inr (Or.inr ⟨_, hmem, rfl⟩)))
  rw [← hkey]
  have hof := h.joined.rows row hout
  by_contra hnone
  rw [Worth, not_or, not_or, not_or] at hnone
  obtain ⟨hnone0, hnone1, hnoneS, hnoneR⟩ := hnone
  have hfind : ∀ {l : List KeyedRow}, (¬ ∃ r ∈ l, r.secureKey = row.secureKey) →
      KeyedMerge.find KeyedRow.secureKey row.secureKey l = none := by
    intro l hl
    rw [KeyedMerge.find, List.find?_eq_none]
    intro r hrl hrk
    exact hl ⟨r, hrl, by simpa using hrk⟩
  have hliquid0 := hof.liquidShard0
  have hliquid1 := hof.liquidShard1
  have hactive := hof.activeDelegation
  have hundelegation := hof.pendingUndelegation
  have hreward := hof.unclaimedReward
  rw [hfind hnone0, intField, Except.ok.injEq] at hliquid0
  rw [hfind hnone1, intField, Except.ok.injEq] at hliquid1
  rw [hfind hnoneS, intField, Except.ok.injEq] at hactive hundelegation hreward
  have hamount := hof.pendingCrossShard
  rw [claimed_eq_shareAt, h.collected.amount] at hamount
  have hzero := (sum_pos_iff lib rs row.secureKey).not.mpr hnoneR
  have htotal := hof.totalClaim
  have hliquid := hof.liquidTotal
  have hpositive := hof.positive
  omega

end Merge

/-- Funding, as the ledger's keys show it. -/
theorem funded_iff {lib : CrossShardSupply.Codec} {rs : List CrossShardSupply.Receipt}
    {summary : CrossShardSupply.Summary} (hrs : pendingReceipts summary = rs.map (detail lib))
    {csv0 csv1 csvS : List (List String)} {l0 l1 ls : List KeyedRow}
    (h0 : KeyedAs py (dictRows csv0) l0) (h1 : KeyedAs py (dictRows csv1) l1)
    (hs : KeyedAs py (dictRows csvS) ls)
    (hprinted : ∀ csv ∈ [csv0, csv1, csvS], ∀ row ∈ dictRows csv, ∃ key : Hash,
      row.get "secure_key" = .ok (some (prefixedHex key.data))) :
    Funded summary [csv0, csv1, csvS] ↔
      ∀ r ∈ rs, Worth lib rs l0 l1 ls (claimOf lib r).key := by
  have hexported : ∀ key : Hash, Exported key [csv0, csv1, csvS] ↔
      (∃ r ∈ l0, r.secureKey = prefixedHex key.data) ∨
      (∃ r ∈ l1, r.secureKey = prefixedHex key.data) ∨
      ∃ r ∈ ls, r.secureKey = prefixedHex key.data := by
    intro key
    rw [exported_iff h0 (hprinted csv0 (by simp)), exported_iff h1 (hprinted csv1 (by simp)),
      exported_iff hs (hprinted csvS (by simp))]
    simp [Exported]
  have hpaid : ∀ r : CrossShardSupply.Receipt,
      (∃ other ∈ rs.map (detail lib), other.secureKey = (detail lib r).secureKey ∧
        ∃ amount, readInt other.amountAtto = some amount ∧ 0 < amount) ↔
      ∃ r' ∈ rs, (claimOf lib r').key = (claimOf lib r).key ∧ 0 < r'.amount := by
    intro r
    constructor
    · rintro ⟨other, hother, hkey, amount, hamount, hpositive⟩
      obtain ⟨r', hr', rfl⟩ := List.mem_map.mp hother
      rw [detail, readInt_toString, Option.some.injEq] at hamount
      exact ⟨r', hr', (key_eq_iff r' r).mpr hkey, hamount ▸ hpositive⟩
    · rintro ⟨r', hr', hkey, hpositive⟩
      exact ⟨detail lib r', List.mem_map_of_mem hr', (key_eq_iff r' r).mp hkey, r'.amount,
        readInt_toString _, hpositive⟩
  rw [Funded, hrs, List.forall_mem_map]
  refine forall₂_congr fun r _ => ?_
  rw [hexported, hpaid, Worth, or_assoc, or_assoc]
  rfl

theorem free_of_merge {files : Files} {args : Args} {inputs : InputFiles}
    {result : List LedgerRow × LedgerSummary} (h : merge py files args inputs = .ok result) :
    [args.output, args.summaryOutput].find? files.taken = none := by
  rw [merge] at h
  split at h
  · cases h
  · assumption

/-- The merge accepts what the exporters and the receipt scan wrote exactly when
its output paths are free and every pending receipt is funded. -/
theorem merge_accepts_iff (state : StateCodec) (lib : CrossShardSupply.Codec)
    (hkeccak : lib.keccak256 = state.keccak256) (hinjective : AddressInjective state.keccak256)
    (db0 db1 dbS : Database) (trie0 trie1 trieS : Trie) (root0 root1 rootS : Hash)
    (threshold0 threshold1 : Int) (require0 require1 discover : Bool)
    (flags : CrossShardSupply.Flags) (shard0 shard1 : Database)
    (snapshot0 snapshot1 : AccountSnapshot.Output) (staking : StakingClaims.Output)
    (summary : CrossShardSupply.Summary)
    (h0 : AccountSnapshot.main state db0 trie0 root0 threshold0 require0 = .ok snapshot0)
    (h1 : AccountSnapshot.main state db1 trie1 root1 threshold1 require1 = .ok snapshot1)
    (hs : StakingClaims.main state dbS trieS rootS discover = .ok staking)
    (hr : CrossShardSupply.main lib flags shard0 shard1 = .ok summary)
    (py : PyText) (files : Files) (args : Args) :
    (∃ out ledger, merge py files args (ledgerInputs snapshot0 snapshot1 staking
        (reportOf summary)) = .ok (out, ledger)) ↔
      [args.output, args.summaryOutput].find? files.taken = none ∧
        Funded summary [snapshot0.csv, snapshot1.csv, staking.csv] := by
  obtain ⟨p, hp, hstaking⟩ := staking_rows hs
  obtain ⟨rs, hrs, htotal⟩ := main_pending hr
  have hreads : List.Forall₂ (ReadsReceipt py) (reportOf summary).receipts
      (rs.map (claimOf lib)) := by
    rw [reportOf_receipts, hrs]
    exact readsReceipts lib rs
  have hprinted : ∀ csv ∈ [snapshot0.csv, snapshot1.csv, staking.csv], ∀ row ∈ dictRows csv,
      ∃ key : Hash, row.get "secure_key" = .ok (some (prefixedHex key.data)) := by
    intro csv hcsv row hrow
    simp only [List.mem_cons, List.not_mem_nil, or_false] at hcsv
    rcases hcsv with rfl | rfl | rfl
    · rw [snapshot_rows h0] at hrow
      obtain ⟨b, -, rfl⟩ := List.mem_map.mp hrow
      exact ⟨b.key, snapshotRow_key b⟩
    · rw [snapshot_rows h1] at hrow
      obtain ⟨b, -, rfl⟩ := List.mem_map.mp hrow
      exact ⟨b.key, snapshotRow_key b⟩
    · rw [hstaking] at hrow
      obtain ⟨entry, -, rfl⟩ := List.mem_map.mp hrow
      exact ⟨entry.1, stakingRow_key entry⟩
  constructor
  · rintro ⟨out, ledger, hmerge⟩
    obtain ⟨l0, l1, ls, cs, claims, hrun, -⟩ := LedgerTotals.merge_ok hmerge
    have hcs : cs = rs.map (claimOf lib) :=
      List.right_unique_forall₂' (fun _ _ _ h h' => h.unique h') hrun.receipts hreads
    subst hcs
    exact ⟨free_of_merge hmerge, (funded_iff hrs hrun.shard0 hrun.shard1 hrun.staking
      hprinted).mpr fun r hr => worth_of_run hrun hr⟩
  · rintro ⟨hfree, hfunded⟩
    have hkeyedS : KeyedAs py (dictRows staking.csv)
        ((StakingClaims.reportedClaims p).map (stakingKeyed state)) := by
      rw [hstaking]
      exact staking_keyedAs hp
    have hreported : py.int (reportOf summary).pendingActiveAtto =
        some ((rs.map (claimOf lib)).map ReceiptClaim.amount).sum := by
      rw [reportOf, htotal, py.int_toString, List.map_map]
      rfl
    obtain ⟨claims, hclaims, hcollected⟩ := loadPendingReceipts_of_reads hreads
      (oneAddress (hkeccak ▸ hinjective)) hreported
    have hworth := (funded_iff hrs (snapshot_keyedAs h0) (snapshot_keyedAs h1) hkeyedS
      hprinted).mp hfunded
    exact merge_of_allMerge hfree (snapshot_keyedAs h0) (snapshot_keyedAs h1) hkeyedS hclaims
      (allMerge_of_worth hkeccak hinjective hp hcollected hworth)

/-! ## A receipt of zero -/

/-- Keccak-256 of an address that the sample states do not have. -/
def keyD : Hash where
  data :=
    [0x26, 0x9d, 0x91, 0xc9, 0x5e, 0x1a, 0xa5, 0xba, 0xe1, 0x8b, 0xd8, 0x75, 0x30, 0x90, 0x8c, 0xc5,
     0x11, 0xa0, 0xde, 0x42, 0x0a, 0x80, 0x11, 0x84, 0x2a, 0xfc, 0x2a, 0x48, 0xe4, 0x9d, 0x5d, 0x0d]
  size := rfl

def sampleDigests : List (Bytes × Hash) :=
  [(List.replicate 20 0xaa, keyA), (List.replicate 20 0xbb, keyB), (List.replicate 20 0xcc, keyC),
    (List.replicate 20 0xdd, keyD), (List.replicate 40 0x61, textA), (List.replicate 40 0x63, textC),
    (wrapperBytesA, codeHashA), (wrapperBytesC, codeHashC)]

/-- Keccak-256 where the sample uses it. -/
def sampleKeccak (bs : Bytes) : Hash := (sampleDigests.lookup bs).getD (FixedBytes.ofBytes 32 bs)

theorem sampleKeccak_injective : AddressInjective sampleKeccak := by
  have hleading : ∀ entry ∈ sampleDigests, entry.2.data.take 12 ≠ List.replicate 12 0 := by
    decide +kernel
  have hdistinct : ∀ entry ∈ sampleDigests, ∀ entry' ∈ sampleDigests,
      entry.2 = entry'.2 → entry.1 = entry'.1 := by decide +kernel
  have hpadded : ∀ a : Address,
      (FixedBytes.ofBytes 32 a.data).data = List.replicate 12 0 ++ a.data := by
    intro a
    show List.replicate (32 - a.data.length) 0 ++ a.data.drop (a.data.length - 32) = _
    rw [a.size]
    rfl
  have htake : ∀ a : Address,
      (FixedBytes.ofBytes 32 a.data).data.take 12 = List.replicate 12 0 := by
    intro a
    rw [hpadded, List.take_left' List.length_replicate]
  intro a b hab
  rw [sampleKeccak, sampleKeccak] at hab
  cases ha : sampleDigests.lookup a.data with
  | some d =>
    cases hb : sampleDigests.lookup b.data with
    | some d' =>
      rw [ha, hb] at hab
      exact FixedBytes.ext (hdistinct _ (KeyedTable.mem_of_lookup ha) _
        (KeyedTable.mem_of_lookup hb) hab)
    | none =>
      rw [ha, hb] at hab
      refine absurd ?_ (hleading _ (KeyedTable.mem_of_lookup ha))
      exact (congrArg (fun d : Hash => d.data.take 12) hab).trans (htake b)
  | none =>
    cases hb : sampleDigests.lookup b.data with
    | some d' =>
      rw [ha, hb] at hab
      refine absurd ?_ (hleading _ (KeyedTable.mem_of_lookup hb))
      exact (congrArg (fun d : Hash => d.data.take 12) hab).symm.trans (htake a)
    | none =>
      rw [ha, hb] at hab
      have hdata := congrArg FixedBytes.data hab
      simp only [Option.getD_none, hpadded, List.append_cancel_left_eq] at hdata
      exact FixedBytes.ext hdata

def sampleStates : StateCodec := { sampleStateCodec with keccak256 := sampleKeccak }

/-- A group of one receipt to the fresh address, of one byte amount. -/
def freshGroupBytes (amount : UInt8) : Bytes :=
  [0xf8, 0x50, 0xf8, 0x4e, 0xa0] ++ List.replicate 32 1 ++ [0x94] ++ List.replicate 20 0xaa ++
    [0x94] ++ List.replicate 20 0xdd ++ [0x80, 0x01, amount]

def freshReceipt (amount : Int) : CrossShardSupply.CxReceipt where
  txHash := .fill 32 1
  recipient := some (sampleAddress 0xdd)
  shardID := 0
  toShardID := 1
  amount := some amount

/-- Zero is encoded as the byte `0x80`. -/
def sampleReceipts : CrossShardSupply.Codec :=
  { CrossShardSupply.Codec.ofTables [] [(freshGroupBytes 0x80, [some (freshReceipt 0)]),
      (freshGroupBytes 0x64, [some (freshReceipt 100)])] [] with
    keccak256 := sampleKeccak }

/-- The receipt group in canonical block 10. -/
def freshSource (amount : UInt8) : Store :=
  (Store.empty.put (receiptKey 1 10 (.fill 32 10)) (freshGroupBytes amount)).put
    (canonicalHashKey 10) (List.replicate 32 10)

/-- The exports of the sample states, the report of one receipt and their merge. -/
def sampleRun (amount : UInt8) : Option (Except PyError (List LedgerRow × LedgerSummary)) := do
  let snapshot0 ←
    (AccountSnapshot.main sampleStates sampleStateDB sampleTrie0 sampleRoot0 1 true).toOption
  let snapshot1 ←
    (AccountSnapshot.main sampleStates Store.empty.database sampleTrie1 sampleRoot1 1 false).toOption
  let staking ← (StakingClaims.main sampleStates sampleStateDB sampleTrie0 sampleRoot0 true).toOption
  let summary ← (CrossShardSupply.main sampleReceipts (CutConsistency.cutFlags 10)
    (freshSource amount).database Store.empty.database).toOption
  some (merge PyText.ascii sampleFiles sampleArgs
    (ledgerInputs snapshot0 snapshot1 staking (reportOf summary)))

theorem toOption_eq_some {ε α : Type} {x : Except ε α} {a : α} (h : x.toOption = some a) :
    x = .ok a := by
  cases x with
  | error err => cases h
  | ok b =>
    cases h
    rfl

theorem sampleRun_some {amount : UInt8} {result : Except PyError (List LedgerRow × LedgerSummary)}
    (h : sampleRun amount = some result) :
    ∃ snapshot0 snapshot1 staking summary,
      AccountSnapshot.main sampleStates sampleStateDB sampleTrie0 sampleRoot0 1 true =
        .ok snapshot0 ∧
      AccountSnapshot.main sampleStates Store.empty.database sampleTrie1 sampleRoot1 1 false =
        .ok snapshot1 ∧
      StakingClaims.main sampleStates sampleStateDB sampleTrie0 sampleRoot0 true = .ok staking ∧
      CrossShardSupply.main sampleReceipts (CutConsistency.cutFlags 10)
        (freshSource amount).database Store.empty.database = .ok summary ∧
      merge PyText.ascii sampleFiles sampleArgs
        (ledgerInputs snapshot0 snapshot1 staking (reportOf summary)) = result := by
  simp only [sampleRun, Option.bind_eq_bind, Option.bind_eq_some_iff] at h
  obtain ⟨snapshot0, h0, snapshot1, h1, staking, hs, summary, hr, h⟩ := h
  exact ⟨snapshot0, snapshot1, staking, summary, toOption_eq_some h0, toOption_eq_some h1,
    toOption_eq_some hs, toOption_eq_some hr, Option.some.inj h⟩

/-- A pending receipt of zero for an address without a balance or a stake: every
export and the report are written, and the merge refuses them. -/
theorem zero_receipt_refused :
    AddressInjective sampleStates.keccak256 ∧ sampleReceipts.keccak256 = sampleStates.keccak256 ∧
    [sampleArgs.output, sampleArgs.summaryOutput].find? sampleFiles.taken = none ∧
    ∃ snapshot0 snapshot1 staking summary,
      AccountSnapshot.main sampleStates sampleStateDB sampleTrie0 sampleRoot0 1 true =
        .ok snapshot0 ∧
      AccountSnapshot.main sampleStates Store.empty.database sampleTrie1 sampleRoot1 1 false =
        .ok snapshot1 ∧
      StakingClaims.main sampleStates sampleStateDB sampleTrie0 sampleRoot0 true = .ok staking ∧
      CrossShardSupply.main sampleReceipts (CutConsistency.cutFlags 10)
        (freshSource 0x80).database Store.empty.database = .ok summary ∧
      merge PyText.ascii sampleFiles sampleArgs
        (ledgerInputs snapshot0 snapshot1 staking (reportOf summary)) =
          .error (.nonPositiveClaim (prefixedHex keyD.data)) := by
  have hrun : sampleRun 0x80 = some (.error (.nonPositiveClaim (prefixedHex keyD.data))) := by
    decide +kernel
  exact ⟨sampleKeccak_injective, rfl, rfl, sampleRun_some hrun⟩

/-- The same receipt of 100 is accepted. -/
theorem merge_accepts_fresh_receipt :
    ∃ snapshot0 snapshot1 staking summary,
      (∃ out ledger, merge PyText.ascii sampleFiles sampleArgs
        (ledgerInputs snapshot0 snapshot1 staking (reportOf summary)) = .ok (out, ledger)) ∧
      pendingReceipts summary ≠ [] ∧
      Funded summary [snapshot0.csv, snapshot1.csv, staking.csv] := by
  have hok : ((sampleRun 0x64).bind Except.toOption).isSome = true := by decide +kernel
  obtain ⟨merged, hmerged⟩ := Option.isSome_iff_exists.mp hok
  obtain ⟨result, hresult, hsame⟩ := Option.bind_eq_some_iff.mp hmerged
  cases result with
  | error err => cases hsame
  | ok merged =>
    obtain ⟨out, ledger⟩ := merged
    obtain ⟨snapshot0, snapshot1, staking, summary, h0, h1, hs, hr, hmerge⟩ :=
      sampleRun_some hresult
    have hiff := merge_accepts_iff sampleStates sampleReceipts rfl sampleKeccak_injective
      sampleStateDB Store.empty.database sampleStateDB sampleTrie0 sampleTrie1 sampleTrie0
      sampleRoot0 sampleRoot1 sampleRoot0 1 1 true false true (CutConsistency.cutFlags 10)
      (freshSource 0x64).database Store.empty.database snapshot0 snapshot1 staking summary h0 h1 hs
      hr PyText.ascii sampleFiles sampleArgs
    obtain ⟨-, hfunded⟩ := hiff.mp ⟨out, ledger, hmerge⟩
    have hpending : ((CrossShardSupply.main sampleReceipts (CutConsistency.cutFlags 10)
        (freshSource 0x64).database Store.empty.database).toOption.map
          fun summary => (pendingReceipts summary).isEmpty) = some false := by decide +kernel
    rw [hr] at hpending
    refine ⟨snapshot0, snapshot1, staking, summary, ⟨out, ledger, hmerge⟩, ?_, hfunded⟩
    rintro hempty
    simp [Except.toOption, hempty] at hpending

end PipelineAcceptance
