import SupplyAudit.ClaimsDiff
import SupplyAudit.DelegatorClaims
import SupplyAudit.StateDiffExactness

/-!
# The claims diff is the difference of the two full sums

The state difference lists only changed accounts, the staking exports only
delegators who hold something. Joined by address, they still account for every
address once, and the columns add up to the differences of the scanned totals.
-/

namespace ClaimsDiffTotals

open ByteWords NumeralText HexText ReceiptKeys ChainDatabase FallibleScan KeyedTable
open KeyedDifference ScriptValues StateTrie WrapperTotals StakingClaims StakingTotals
open PipelineAcceptance DelegatorClaims StateDiffExactness
open HistoricalStateDiff (AccountTrie Difference ChangeRow changeAddress)
open ClaimsDiff (Staked Liquid DiffRow)

variable {codec : StateCodec} {db : Database} {py : PyText}

/-! ## The state difference, as the script reads it -/

/-- A change row under its header. -/
def changeRow (row : ChangeRow) : Row := dictRow HistoricalStateDiff.header row.cells

theorem changeAddress_ok {key : Hash} {text : String}
    (h : changeAddress codec db key = .ok text) (hpreimage : readPreimage db key ≠ []) :
    ∃ a : Address, codec.keccak256 a.data = key ∧ text = addressHex codec a := by
  simp only [changeAddress] at h
  have hlength : (readPreimage db key).length ≠ 0 := by simpa using hpreimage
  rw [if_neg hlength] at h
  split at h
  · cases h
  · rename_i hsize
    split at h
    · cases h
    · rename_i hhash
      cases h
      exact ⟨⟨_, not_not.mp hsize⟩, not_not.mp hhash, rfl⟩

/-- The record of a change row, under its lower-cased address. -/
def liquidEntry (py : PyText) (row : ChangeRow) : String × Liquid :=
  (py.lower row.address,
    ⟨some (prefixedHex row.key.data), row.oldValue.balance, row.newValue.balance⟩)

theorem liquidOf_changeRow (row : ChangeRow) :
    ClaimsDiff.liquidOf py (changeRow row) = .ok (liquidEntry py row).2 := by
  have hkey : (changeRow row).get "secure_key" = .ok (some (prefixedHex row.key.data)) := by rfl
  have hold : (changeRow row).get "old_balance_atto" =
      .ok (some (toString row.oldValue.balance)) := by rfl
  have hnew : (changeRow row).get "new_balance_atto" =
      .ok (some (toString row.newValue.balance)) := by rfl
  simp only [ClaimsDiff.liquidOf, hkey, hold, hnew, bind_ok, PyText.parsed, py.int_toString,
    liquidEntry]

/-- A row with an address adds its record. -/
theorem addLiquid_changeRow {row : ChangeRow} (hrow : row.address ≠ "")
    (records : List (String × Liquid)) :
    ClaimsDiff.addLiquid py records (changeRow row) =
      .ok (KeyedTable.set records (liquidEntry py row).1 (liquidEntry py row).2) := by
  have haddress : (changeRow row).get "address" = .ok (some row.address) := by rfl
  have hne : py.lower row.address ≠ "" := fun h => hrow (py.lower_eq_empty _ h)
  simp only [ClaimsDiff.addLiquid, haddress, bind_ok, PyText.lowered, if_neg hne,
    liquidOf_changeRow]
  rfl

/-! ## A staking export, as the script reads it -/

def stakedOf (c : Claim) : Staked := ⟨c.active, c.pendingUndelegation, c.reward⟩

/-- The claim of a reported delegator, under its lower-cased address. -/
def stakedEntry (entry : Hash × Claim) : String × Staked :=
  (prefixedHex entry.2.address.data, stakedOf entry.2)

theorem addStaked_stakingRow (claims : List (String × Staked)) (entry : Hash × Claim) :
    ClaimsDiff.addStaked py claims (LedgerInputs.stakingRow codec entry) =
      .ok (KeyedTable.set claims (stakedEntry entry).1 (stakedEntry entry).2) := by
  simp only [ClaimsDiff.addStaked, LedgerInputs.stakingRow_active,
    LedgerInputs.stakingRow_pending, LedgerInputs.stakingRow_reward,
    LedgerInputs.stakingRow_address, bind_ok, PyText.parsed, py.int_toString, PyText.lowered,
    lower_addressHex]
  rfl

theorem text_injective {a b : Address} (h : prefixedHex a.data = prefixedHex b.data) : a = b :=
  FixedBytes.ext (prefixedHex_injective (a.size.trans b.size.symm) h)

/-- The reported claims have distinct addresses. -/
theorem nodup_stakedEntries {p : Progress} (hp : Claimed codec p) :
    (((reportedClaims p).map stakedEntry).map Prod.fst).Nodup := by
  rw [List.map_map]
  refine (List.Nodup.of_map Prod.fst ?_).map_on ?_
  · rw [((reportedClaims_perm p).map Prod.fst).nodup_iff]
    exact hp.nodup.sublist (List.filter_sublist.map Prod.fst)
  · intro e he e' he' htext
    have haddress : e.2.address = e'.2.address := text_injective htext
    have hmem := ((mem_reportedClaims_iff p e).mp he).1
    have hmem' := ((mem_reportedClaims_iff p e').mp he').1
    have hkey : e.1 = e'.1 := by rw [hp.named e hmem, hp.named e' hmem', haddress]
    have hvalue := lookup_of_mem hp.nodup hmem
    rw [hkey, lookup_of_mem hp.nodup hmem'] at hvalue
    exact Prod.ext hkey (Option.some.inj hvalue).symm

theorem readStaking_printed (py : PyText) {p : Progress} (hp : Claimed codec p) :
    ClaimsDiff.readStaking py
        (dictRows (StakingClaims.header :: (reportedClaims p).map (claimRecord codec))) =
      .ok ((reportedClaims p).map stakedEntry) := by
  rw [ClaimsDiff.readStaking, dictRows, List.map_map, List.foldlM_map]
  exact foldlM_set (fun claims entry _ => addStaked_stakingRow claims entry)
    (nodup_stakedEntries hp)

/-- A reported address is one whose claim is not zero. -/
theorem mem_stakedEntries_iff (hinjective : AddressInjective codec.keccak256) {p : Progress}
    (hp : Claimed codec p) (a : Address) (staked : Staked) :
    (prefixedHex a.data, staked) ∈ (reportedClaims p).map stakedEntry ↔
      ∃ c, p.claims.lookup (codec.keccak256 a.data) = some c ∧ c.isZero = false ∧
        stakedOf c = staked := by
  rw [List.mem_map]
  constructor
  · rintro ⟨e, he, hentry⟩
    rw [stakedEntry, Prod.mk.injEq] at hentry
    obtain ⟨htext, rfl⟩ := hentry
    obtain ⟨hmem, hzero⟩ := (mem_reportedClaims_iff p e).mp he
    have hkey : codec.keccak256 a.data = e.1 := by
      rw [hp.named e hmem, text_injective htext]
    exact ⟨e.2, hkey ▸ lookup_of_mem hp.nodup hmem, hzero, rfl⟩
  · rintro ⟨c, hlookup, hzero, rfl⟩
    have hmem := mem_of_lookup hlookup
    have haddress : c.address = a := (hinjective _ _ (hp.named _ hmem)).symm
    refine ⟨_, (mem_reportedClaims_iff p _).mpr ⟨hmem, hzero⟩, ?_⟩
    rw [stakedEntry, haddress]

theorem stakedOf_of_isZero {c : Claim} (h : c.isZero = true) : stakedOf c = .zero := by
  obtain ⟨hactive, hpending, hreward⟩ := IndependentSums.zero_of_isZero h
  rw [stakedOf, hactive, hpending, hreward, Staked.zero]

/-- What the script finds for an address is the delegator's claim. -/
theorem lookup_stakedEntries (hinjective : AddressInjective codec.keccak256) {p : Progress}
    (hp : Claimed codec p) (a : Address) :
    (((reportedClaims p).map stakedEntry).lookup (prefixedHex a.data)).getD .zero =
      stakedOf ((p.claims.lookup (codec.keccak256 a.data)).getD ⟨a, 0, 0, 0⟩) := by
  cases hfound : ((reportedClaims p).map stakedEntry).lookup (prefixedHex a.data) with
  | some staked =>
    obtain ⟨c, hlookup, -, hstaked⟩ :=
      (mem_stakedEntries_iff hinjective hp a staked).mp (mem_of_lookup hfound)
    rw [hlookup, Option.getD_some, Option.getD_some, hstaked]
  | none =>
    rw [Option.getD_none]
    cases hlookup : p.claims.lookup (codec.keccak256 a.data) with
    | none => rfl
    | some c =>
      cases hzero : c.isZero with
      | true => rw [Option.getD_some, stakedOf_of_isZero hzero]
      | false =>
        have hmem := (mem_stakedEntries_iff hinjective hp a _).mpr ⟨c, hlookup, hzero, rfl⟩
        exact absurd (List.mem_map_of_mem hmem) ((lookup_eq_none_iff _ _).mp hfound)

/-! ## The states -/

/-- What an address holds under a root, its account and its stakes together. -/
def claimAt (codec : StateCodec) (db : Database) (trie : Trie) (a : Address) : Int :=
  shareAt (balanceIn codec) trie.leaves (codec.keccak256 a.data) +
    held Contribution.active (wrappers codec db trie) a +
    held Contribution.pendingUndelegation (wrappers codec db trie) a +
    held Contribution.reward (wrappers codec db trie) a

/-- The address has staking claims under a root. -/
def HasStake (codec : StateCodec) (db : Database) (trie : Trie) (a : Address) : Prop :=
  held Contribution.active (wrappers codec db trie) a ≠ 0 ∨
    held Contribution.pendingUndelegation (wrappers codec db trie) a ≠ 0 ∨
    held Contribution.reward (wrappers codec db trie) a ≠ 0

section Export
variable (hinjective : AddressInjective codec.keccak256) {trie : Trie} {p : Progress}
variable (hp : ClaimsOf codec db trie p)
include hinjective hp

/-- The script finds what the state holds for an address. -/
theorem staked_eq (a : Address) :
    (((reportedClaims p).map stakedEntry).lookup (prefixedHex a.data)).getD .zero =
      ⟨held Contribution.active (wrappers codec db trie) a,
        held Contribution.pendingUndelegation (wrappers codec db trie) a,
        held Contribution.reward (wrappers codec db trie) a⟩ := by
  rw [lookup_stakedEntries hinjective hp.claimed, ← hp.shares activeColumn,
    ← hp.shares pendingColumn, ← hp.shares rewardColumn]
  simp only [shareAt]
  cases p.claims.lookup (codec.keccak256 a.data) <;> rfl

/-- The export has the addresses with staking claims. -/
theorem mem_stakedKeys_iff (text : String) :
    text ∈ ((reportedClaims p).map stakedEntry).map Prod.fst ↔
      ∃ a : Address, text = prefixedHex a.data ∧ HasStake codec db trie a := by
  have hstake (a : Address) : HasStake codec db trie a ↔
      ∃ c, p.claims.lookup (codec.keccak256 a.data) = some c ∧ c.isZero = false := by
    rw [HasStake, ← hp.shares activeColumn, ← hp.shares pendingColumn, ← hp.shares rewardColumn]
    simp only [shareAt]
    cases p.claims.lookup (codec.keccak256 a.data) with
    | none => simp
    | some c =>
      simp only [Option.elim_some, Option.some.injEq, exists_eq_left', Claim.isZero,
        decide_eq_false_iff_not]
      tauto
  constructor
  · intro hmem
    obtain ⟨entry, hentry, rfl⟩ := List.mem_map.mp hmem
    obtain ⟨e, he, rfl⟩ := List.mem_map.mp hentry
    obtain ⟨c, hlookup, hzero, -⟩ :=
      (mem_stakedEntries_iff hinjective hp.claimed e.2.address (stakedOf e.2)).mp hentry
    exact ⟨e.2.address, rfl, (hstake _).mpr ⟨c, hlookup, hzero⟩⟩
  · rintro ⟨a, rfl, ha⟩
    obtain ⟨c, hlookup, hzero⟩ := (hstake a).mp ha
    exact List.mem_map_of_mem
      ((mem_stakedEntries_iff hinjective hp.claimed a _).mpr ⟨c, hlookup, hzero, rfl⟩)

end Export

section Changes
variable {old new : AccountTrie} {rows : List ChangeRow}

/-- Every changed account of which the preimage is stored names its address. -/
theorem address_of_change (h : ListsChanges codec db old new rows)
    (hpreimages : ∀ key, old.leaves.lookup key ≠ new.leaves.lookup key → readPreimage db key ≠ [])
    {row : ChangeRow} (hrow : row ∈ rows) :
    ∃ a : Address, codec.keccak256 a.data = row.key ∧ row.address = addressHex codec a :=
  changeAddress_ok (h.reports row hrow).address
    (hpreimages _ ((h.complete _).mp (List.mem_map_of_mem hrow)))

variable (hinjective : AddressInjective codec.keccak256)
variable (h : ListsChanges codec db old new rows)
variable (hpreimages : ∀ key, old.leaves.lookup key ≠ new.leaves.lookup key →
  readPreimage db key ≠ [])
include h hpreimages

/-- The lower-cased addresses of the changed accounts. -/
theorem mem_liquidKeys_iff (text : String) :
    text ∈ (rows.map (liquidEntry py)).map Prod.fst ↔ ∃ a : Address, text = prefixedHex a.data ∧
      ∃ row ∈ rows, row.key = codec.keccak256 a.data ∧ py.lower row.address = text := by
  constructor
  · intro hmem
    obtain ⟨entry, hentry, rfl⟩ := List.mem_map.mp hmem
    obtain ⟨row, hrow, rfl⟩ := List.mem_map.mp hentry
    obtain ⟨a, hkey, haddress⟩ := address_of_change h hpreimages hrow
    refine ⟨a, ?_, row, hrow, hkey.symm, rfl⟩
    rw [liquidEntry, haddress, lower_addressHex]
  · rintro ⟨a, -, row, hrow, -, rfl⟩
    exact List.mem_map_of_mem (List.mem_map_of_mem (f := liquidEntry py) hrow)

theorem key_of_lower {row : ChangeRow} (hrow : row ∈ rows) {a : Address}
    (htext : py.lower row.address = prefixedHex a.data) : row.key = codec.keccak256 a.data := by
  obtain ⟨b, hb, haddress⟩ := address_of_change h hpreimages hrow
  rw [haddress, lower_addressHex] at htext
  rw [← hb, text_injective htext]

include hinjective

theorem lower_of_key {row : ChangeRow} (hrow : row ∈ rows) {a : Address}
    (hkey : row.key = codec.keccak256 a.data) : py.lower row.address = prefixedHex a.data := by
  obtain ⟨b, hb, haddress⟩ := address_of_change h hpreimages hrow
  rw [haddress, lower_addressHex, hinjective b a (hb.trans hkey)]

/-- The state difference has the addresses of the changed accounts. -/
theorem mem_liquidKeys_iff_changed (text : String) :
    text ∈ (rows.map (liquidEntry py)).map Prod.fst ↔ ∃ a : Address, text = prefixedHex a.data ∧
      old.leaves.lookup (codec.keccak256 a.data) ≠ new.leaves.lookup (codec.keccak256 a.data) := by
  rw [mem_liquidKeys_iff h hpreimages]
  constructor
  · rintro ⟨a, rfl, row, hrow, hkey, -⟩
    exact ⟨a, rfl, (h.complete _).mp (hkey ▸ List.mem_map_of_mem hrow)⟩
  · rintro ⟨a, rfl, hdiffers⟩
    obtain ⟨row, hrow, hkey⟩ := List.mem_map.mp ((h.complete _).mpr hdiffers)
    exact ⟨a, rfl, row, hrow, hkey, lower_of_key hinjective h hpreimages hrow hkey⟩

theorem nodup_liquidEntries : ((rows.map (liquidEntry py)).map Prod.fst).Nodup := by
  rw [List.map_map]
  refine (List.Nodup.of_map _ h.once).map_on ?_
  intro row hrow row' hrow' htext
  obtain ⟨a, hkey, haddress⟩ := address_of_change h hpreimages hrow
  have hlower : py.lower row.address = prefixedHex a.data :=
    lower_of_key hinjective h hpreimages hrow hkey.symm
  have hkey' := key_of_lower h hpreimages hrow' (htext.symm.trans hlower)
  exact List.inj_on_of_nodup_map h.once hrow hrow' (hkey.symm.trans hkey'.symm)

theorem foldlM_addLiquid :
    (dictRows (HistoricalStateDiff.header :: rows.map ChangeRow.cells)).foldlM
        (ClaimsDiff.addLiquid py) [] = .ok (rows.map (liquidEntry py)) := by
  rw [dictRows, List.map_map, List.foldlM_map]
  refine foldlM_set (fun records row hrow => addLiquid_changeRow ?_ records)
    (nodup_liquidEntries hinjective h hpreimages)
  obtain ⟨a, -, haddress⟩ := address_of_change h hpreimages hrow
  intro hnone
  have hlower : py.lower row.address = prefixedHex a.data := by rw [haddress, lower_addressHex]
  rw [hnone, py.lower_empty] at hlower
  exact absurd (congrArg String.toList hlower.symm) (by rw [toList_prefixedHex]; simp)

variable (py) in
/-- The script finds how the balance of an address changed. -/
theorem liquidDelta_eq (a : Address) :
    let liquid := ((rows.map (liquidEntry py)).lookup (prefixedHex a.data)).getD .unchanged
    liquid.newLiquid - liquid.oldLiquid =
      shareAt (balanceIn codec) new.leaves (codec.keccak256 a.data) -
        shareAt (balanceIn codec) old.leaves (codec.keccak256 a.data) := by
  dsimp only
  cases hfound : (rows.map (liquidEntry py)).lookup (prefixedHex a.data) with
  | some liquid =>
    obtain ⟨row, hrow, hentry⟩ := List.mem_map.mp (mem_of_lookup hfound)
    rw [liquidEntry, Prod.mk.injEq] at hentry
    obtain ⟨htext, rfl⟩ := hentry
    have hkey := key_of_lower h hpreimages hrow htext
    rw [← hkey, ← balance_of_valueAt (h.reports row hrow).newValue,
      ← balance_of_valueAt (h.reports row hrow).oldValue]
    rfl
  | none =>
    have hsame : old.leaves.lookup (codec.keccak256 a.data) =
        new.leaves.lookup (codec.keccak256 a.data) := by
      by_contra hdiffers
      exact (lookup_eq_none_iff _ _).mp hfound
        ((mem_liquidKeys_iff_changed hinjective h hpreimages _).mpr ⟨a, rfl, hdiffers⟩)
    rw [shareAt, shareAt, hsame, sub_self]
    rfl

end Changes

/-! ## The join -/

/-- A column over all addresses adds up to the column of its table. -/
theorem sum_lookup {β : Type} {table : List (String × β)} (h : (table.map Prod.fst).Nodup)
    (value : β → Int) (fresh : β) (hfresh : value fresh = 0) {texts : Finset String}
    (hcover : ∀ text ∈ table.map Prod.fst, text ∈ texts) :
    ∑ text ∈ texts, value ((table.lookup text).getD fresh) =
      (table.map fun e => value e.2).sum := by
  have hshare : ∀ text, value ((table.lookup text).getD fresh) = shareAt value table text := by
    intro text
    rw [shareAt]
    cases table.lookup text with
    | none => exact hfresh
    | some found => rfl
  simp only [hshare]
  rw [sum_shareAt_finset value h, total]
  intro text hnot
  exact (lookup_eq_none_iff table text).mpr fun hmem => hnot (hcover text hmem)

/-- The total column adds up to the three tables' columns. -/
theorem sum_diffRows {records : List (String × Liquid)}
    {oldStaking newStaking : List (String × Staked)} (hrecords : (records.map Prod.fst).Nodup)
    (hold : (oldStaking.map Prod.fst).Nodup) (hnew : (newStaking.map Prod.fst).Nodup)
    {texts : Finset String}
    (hcover : ∀ text ∈ ClaimsDiff.addresses records oldStaking newStaking, text ∈ texts) :
    ∑ text ∈ texts, (ClaimsDiff.diffRow records oldStaking newStaking text).total =
      (records.map fun e => e.2.newLiquid - e.2.oldLiquid).sum +
        ((newStaking.map fun e => e.2.active).sum - (oldStaking.map fun e => e.2.active).sum) +
        ((newStaking.map fun e => e.2.pendingUndelegation).sum -
          (oldStaking.map fun e => e.2.pendingUndelegation).sum) +
        ((newStaking.map fun e => e.2.unclaimedReward).sum -
          (oldStaking.map fun e => e.2.unclaimedReward).sum) := by
  have hmem : ∀ text, text ∈ records.map Prod.fst ∨ text ∈ oldStaking.map Prod.fst ∨
      text ∈ newStaking.map Prod.fst → text ∈ texts := by
    intro text h
    refine hcover text ?_
    rwa [ClaimsDiff.addresses, List.mem_dedup, List.mem_append, List.mem_append, or_assoc]
  have hrecordsIn := fun text h => hmem text (Or.inl h)
  have holdIn := fun text h => hmem text (Or.inr (Or.inl h))
  have hnewIn := fun text h => hmem text (Or.inr (Or.inr h))
  rw [← sum_lookup hrecords (fun l => l.newLiquid - l.oldLiquid) .unchanged rfl hrecordsIn,
    ← sum_lookup hnew Staked.active .zero rfl hnewIn,
    ← sum_lookup hold Staked.active .zero rfl holdIn,
    ← sum_lookup hnew Staked.pendingUndelegation .zero rfl hnewIn,
    ← sum_lookup hold Staked.pendingUndelegation .zero rfl holdIn,
    ← sum_lookup hnew Staked.unclaimedReward .zero rfl hnewIn,
    ← sum_lookup hold Staked.unclaimedReward .zero rfl holdIn]
  simp only [← Finset.sum_sub_distrib, ← Finset.sum_add_distrib]
  rfl

theorem foldl_addTotals (rows : List DiffRow) (t : ClaimsDiff.ComponentTotals) :
    rows.foldl ClaimsDiff.addTotals t =
      { liquid := t.liquid + (rows.map DiffRow.liquidDelta).sum
        active := t.active + (rows.map DiffRow.activeDelta).sum
        pending := t.pending + (rows.map DiffRow.pendingDelta).sum
        reward := t.reward + (rows.map DiffRow.rewardDelta).sum
        total := t.total + (rows.map DiffRow.total).sum } := by
  induction rows generalizing t with
  | nil => simp
  | cons row rows ih =>
    rw [List.foldl_cons, ih]
    simp only [ClaimsDiff.addTotals, List.map_cons, List.sum_cons, add_assoc]

/-- The five printed totals are the sums of the columns. -/
structure SumsColumns (out : ClaimsDiff.Output) : Prop where
  addresses : out.summary.addresses = out.rows.length
  liquid : out.summary.liquidDeltaAtto = toString (out.rows.map DiffRow.liquidDelta).sum
  active : out.summary.activeDelegationDeltaAtto = toString (out.rows.map DiffRow.activeDelta).sum
  pending :
    out.summary.pendingUndelegationDeltaAtto = toString (out.rows.map DiffRow.pendingDelta).sum
  reward : out.summary.unclaimedRewardDeltaAtto = toString (out.rows.map DiffRow.rewardDelta).sum
  total : out.summary.totalClaimDeltaAtto = toString (out.rows.map DiffRow.total).sum

/-- Where the three files are read, the run completes with one row for each address. -/
theorem main_of_tables (order : List String → List String)
    {liquidDiff oldRows newRows : List Row} {records : List (String × Liquid)}
    {oldStaking newStaking : List (String × Staked)}
    (hold : ClaimsDiff.readStaking py oldRows = .ok oldStaking)
    (hnew : ClaimsDiff.readStaking py newRows = .ok newStaking)
    (hliquid : liquidDiff.foldlM (ClaimsDiff.addLiquid py) [] = .ok records) :
    ∃ out, ClaimsDiff.main py order liquidDiff oldRows newRows = .ok out ∧
      out.rows.Perm ((order (ClaimsDiff.addresses records oldStaking newStaking)).map
        (ClaimsDiff.diffRow records oldStaking newStaking)) ∧ SumsColumns out := by
  have hperm := List.perm_insertionSort ClaimsDiff.Precedes
    ((order (ClaimsDiff.addresses records oldStaking newStaking)).map
      (ClaimsDiff.diffRow records oldStaking newStaking))
  have hcolumn (column : DiffRow → Int) := (hperm.map column).sum_eq
  simp only [ClaimsDiff.main, hold, hnew, hliquid, Except.mapError, bind_ok, foldl_addTotals,
    zero_add, ← hcolumn]
  exact ⟨_, rfl, hperm, rfl, rfl, rfl, rfl, rfl, rfl⟩

/-- The joined rows of two states, against what the states hold. -/
structure ExactClaims (codec : StateCodec) (db : Database) (old new : Trie)
    (oldTotals newTotals : ActualSupply.Totals) (out : ClaimsDiff.Output) : Prop where
  once : (out.rows.map DiffRow.address).Nodup
  listed : ∀ text, text ∈ out.rows.map DiffRow.address ↔ ∃ a : Address, text = prefixedHex a.data ∧
    (old.leaves.lookup (codec.keccak256 a.data) ≠ new.leaves.lookup (codec.keccak256 a.data) ∨
      HasStake codec db old a ∨ HasStake codec db new a)
  total : ∀ row ∈ out.rows, ∀ a : Address, row.address = prefixedHex a.data →
    row.total = claimAt codec db new a - claimAt codec db old a
  unlisted : ∀ a : Address, prefixedHex a.data ∉ out.rows.map DiffRow.address →
    claimAt codec db new a = claimAt codec db old a
  columns : SumsColumns out
  grand : ∃ before after : Int, oldTotals.accountAndStakingClaimsAtto = toString before ∧
    newTotals.accountAndStakingClaimsAtto = toString after ∧
    out.summary.totalClaimDeltaAtto = toString (after - before)

/-- The files of two states, as the scanners have written them. -/
structure Exports (codec : StateCodec) (db : Database) (old new : Trie)
    (oldAccounts newAccounts : AccountTrie) (rows : List ChangeRow) (p q : Progress) : Prop where
  oldLeaves : oldAccounts.leaves = old.leaves
  newLeaves : newAccounts.leaves = new.leaves
  changes : ListsChanges codec db oldAccounts newAccounts rows
  preimages : ∀ key, oldAccounts.leaves.lookup key ≠ newAccounts.leaves.lookup key →
    readPreimage db key ≠ []
  oldClaims : ClaimsOf codec db old p
  newClaims : ClaimsOf codec db new q

section Exports
variable (hinjective : AddressInjective codec.keccak256) {old new : Trie}
variable {oldAccounts newAccounts : AccountTrie} {rows : List ChangeRow} {p q : Progress}
variable (h : Exports codec db old new oldAccounts newAccounts rows p q)
include hinjective h

variable (py) in
/-- The row of an address has the difference of what the states hold for it. -/
theorem total_diffRow (a : Address) :
    (ClaimsDiff.diffRow (rows.map (liquidEntry py)) ((reportedClaims p).map stakedEntry)
        ((reportedClaims q).map stakedEntry) (prefixedHex a.data)).total =
      claimAt codec db new a - claimAt codec db old a := by
  have hliquid := liquidDelta_eq py hinjective h.changes h.preimages a
  dsimp only at hliquid
  simp only [ClaimsDiff.diffRow, hliquid, staked_eq hinjective h.oldClaims,
    staked_eq hinjective h.newClaims, claimAt, h.oldLeaves, h.newLeaves]
  ring

variable (py) in
theorem mem_addresses_iff (text : String) :
    text ∈ ClaimsDiff.addresses (rows.map (liquidEntry py)) ((reportedClaims p).map stakedEntry)
        ((reportedClaims q).map stakedEntry) ↔
      ∃ a : Address, text = prefixedHex a.data ∧
        (old.leaves.lookup (codec.keccak256 a.data) ≠ new.leaves.lookup (codec.keccak256 a.data) ∨
          HasStake codec db old a ∨ HasStake codec db new a) := by
  rw [ClaimsDiff.addresses, List.mem_dedup, List.mem_append, List.mem_append,
    mem_liquidKeys_iff_changed hinjective h.changes h.preimages,
    mem_stakedKeys_iff hinjective h.oldClaims, mem_stakedKeys_iff hinjective h.newClaims,
    h.oldLeaves, h.newLeaves, ← exists_or, ← exists_or]
  refine exists_congr fun a => ?_
  rw [← and_or_left, ← and_or_left, or_assoc]

/-- All rows together have the difference of the two full sums. -/
theorem sum_totals {texts : List String} (htexts : texts.Nodup)
    (hcover : ∀ text ∈ ClaimsDiff.addresses (rows.map (liquidEntry py))
      ((reportedClaims p).map stakedEntry) ((reportedClaims q).map stakedEntry), text ∈ texts) :
    (texts.map fun text => (ClaimsDiff.diffRow (rows.map (liquidEntry py))
        ((reportedClaims p).map stakedEntry) ((reportedClaims q).map stakedEntry) text).total).sum =
      (liquid codec new + active (wrappers codec db new) + undelegated (wrappers codec db new) +
          reward (wrappers codec db new)) -
        (liquid codec old + active (wrappers codec db old) + undelegated (wrappers codec db old) +
          reward (wrappers codec db old)) := by
  have hdeltas : ((rows.map (liquidEntry py)).map fun e => e.2.newLiquid - e.2.oldLiquid).sum =
      liquid codec new - liquid codec old := by
    rw [List.map_map]
    refine h.changes.sum_deltas.trans ?_
    rw [totalBalance, totalBalance, h.oldLeaves, h.newLeaves]
    rfl
  have hactive (r : Progress) : (((reportedClaims r).map stakedEntry).map fun e => e.2.active).sum =
      total Claim.active r.claims := by
    rw [List.map_map]
    exact sum_reportedClaims Claim.active (fun c hc => (IndependentSums.zero_of_isZero hc).1) r
  have hpending (r : Progress) :
      (((reportedClaims r).map stakedEntry).map fun e => e.2.pendingUndelegation).sum =
        total Claim.pendingUndelegation r.claims := by
    rw [List.map_map]
    exact sum_reportedClaims Claim.pendingUndelegation
      (fun c hc => (IndependentSums.zero_of_isZero hc).2.1) r
  have hreward (r : Progress) :
      (((reportedClaims r).map stakedEntry).map fun e => e.2.unclaimedReward).sum =
        total Claim.reward r.claims := by
    rw [List.map_map]
    exact sum_reportedClaims Claim.reward (fun c hc => (IndependentSums.zero_of_isZero hc).2.2) r
  rw [← List.sum_toFinset _ htexts,
    sum_diffRows (nodup_liquidEntries hinjective h.changes h.preimages)
      (nodup_stakedEntries h.oldClaims.claimed) (nodup_stakedEntries h.newClaims.claimed)
      fun text hmem => List.mem_toFinset.mpr (hcover text hmem),
    hdeltas, hactive, hactive, hpending, hpending, hreward, hreward, h.oldClaims.active,
    h.newClaims.active, h.oldClaims.pending, h.newClaims.pending, h.oldClaims.reward,
    h.newClaims.reward]
  ring

/-- The script completes on the files of two states and joins them exactly. -/
theorem exactClaims_of_exports {order : List String → List String}
    (horder : ∀ l, (order l).Perm l) {oldTotals newTotals : ActualSupply.Totals}
    (hold : IndependentSums.Scanned codec db old oldTotals)
    (hnew : IndependentSums.Scanned codec db new newTotals) :
    ∃ out, ClaimsDiff.main py order
        (dictRows (HistoricalStateDiff.header :: rows.map ChangeRow.cells))
        (dictRows (StakingClaims.header :: (reportedClaims p).map (claimRecord codec)))
        (dictRows (StakingClaims.header :: (reportedClaims q).map (claimRecord codec))) = .ok out ∧
      ExactClaims codec db old new oldTotals newTotals out := by
  obtain ⟨out, hout, hperm, hcolumns⟩ := main_of_tables order
    (readStaking_printed py h.oldClaims.claimed) (readStaking_printed py h.newClaims.claimed)
    (foldlM_addLiquid hinjective h.changes h.preimages)
  have htexts := horder (ClaimsDiff.addresses (rows.map (liquidEntry py))
    ((reportedClaims p).map stakedEntry) ((reportedClaims q).map stakedEntry))
  have hnodup := htexts.nodup_iff.mpr (List.nodup_dedup _)
  have haddresses := hperm.map DiffRow.address
  rw [List.map_map] at haddresses
  have hids : ∀ texts : List String, texts.map (DiffRow.address ∘
      ClaimsDiff.diffRow (rows.map (liquidEntry py)) ((reportedClaims p).map stakedEntry)
        ((reportedClaims q).map stakedEntry)) = texts := fun texts => List.map_id texts
  rw [hids] at haddresses
  have hlisted := fun text => haddresses.mem_iff.trans
    (htexts.mem_iff.trans (mem_addresses_iff py hinjective h text))
  refine ⟨out, hout, haddresses.nodup_iff.mpr hnodup, hlisted, ?_, ?_, hcolumns, ?_⟩
  · intro row hrow a haddress
    obtain ⟨text, -, rfl⟩ := List.mem_map.mp (hperm.mem_iff.mp hrow)
    have htext : text = prefixedHex a.data := haddress
    rw [htext]
    exact total_diffRow py hinjective h a
  · intro a hnot
    rw [hlisted] at hnot
    have hnone : ¬ (old.leaves.lookup (codec.keccak256 a.data) ≠
        new.leaves.lookup (codec.keccak256 a.data) ∨ HasStake codec db old a ∨
          HasStake codec db new a) := fun hany => hnot ⟨a, rfl, hany⟩
    simp only [HasStake, not_or, ne_eq, not_not] at hnone
    obtain ⟨hsame, ⟨hactive, hpending, hreward⟩, hactive', hpending', hreward'⟩ := hnone
    rw [claimAt, claimAt, hactive, hpending, hreward, hactive', hpending', hreward', shareAt,
      shareAt, hsame]
  · refine ⟨_, _, hold.claims, hnew.claims, ?_⟩
    rw [hcolumns.total, (hperm.map DiffRow.total).sum_eq, List.map_map]
    exact congrArg toString
      (sum_totals hinjective h hnodup fun text hmem => htexts.mem_iff.mpr hmem)

end Exports

/-- A scan of all accounts meets no missing node. -/
theorem iterErr_of_scan {flags : ActualSupply.Flags} (hfull : flags.validatorOnly = false)
    {trie : Trie} {root : Hash} {order : List Address → List Address}
    {totals : ActualSupply.Totals}
    (h : ActualSupply.main codec db flags trie root order = .ok totals) :
    trie.iterErr = none := by
  simp only [ActualSupply.main, ActualSupply.collect, bind_eq_ok] at h
  obtain ⟨sum, ⟨-, -, listed, -, -, -, start, -, sum', haccounts, -⟩, -⟩ := h
  exact (ActualSupplyTotals.addAccounts_ok hfull haccounts).1

def textB : Hash where
  data :=
    [0x5d, 0x7d, 0xdc, 0xd7, 0x29, 0x98, 0x60, 0x0e, 0x27, 0xa6, 0x54, 0x28, 0xf4, 0xa1, 0x11, 0x78,
     0x2a, 0x35, 0xca, 0x3d, 0x42, 0x75, 0xa0, 0x0f, 0xad, 0x1a, 0x18, 0xa5, 0x69, 0xa0, 0xc6, 0x23]
  size := rfl

def sampleTexts : List (Bytes × Hash) := (List.replicate 40 0x62, textB) :: sampleDigests

/-- Keccak-256 where the states use it, without a collision of addresses. -/
def claimsKeccak (bs : Bytes) : Hash :=
  if bs.length = 20 then sampleKeccak bs else (sampleTexts.lookup bs).getD (FixedBytes.zero 32)

def claimsCodec : StateCodec := { IndependentSums.sampleStateCodec with keccak256 := claimsKeccak }

theorem claimsKeccak_injective : AddressInjective claimsKeccak := by
  intro a b h
  rw [claimsKeccak, claimsKeccak, if_pos a.size, if_pos b.size] at h
  exact sampleKeccak_injective a b h

theorem claimsKeccak_emptyCodeUnique : EmptyCodeUnique claimsCodec := by
  have hlisted : ∀ d ∈ sampleTexts, d.2 ≠ emptyCodeHash := by decide +kernel
  intro encoded _
  change claimsKeccak encoded ≠ emptyCodeHash
  rw [claimsKeccak]
  split
  · rename_i hlength
    rw [sampleKeccak]
    cases hd : sampleDigests.lookup encoded with
    | some d => exact hlisted _ (List.mem_cons_of_mem _ (mem_of_lookup hd))
    | none =>
      intro hempty
      have hfirst : (FixedBytes.ofBytes 32 encoded).data.head? = some 0 := by
        show (List.replicate (32 - encoded.length) 0 ++
          encoded.drop (encoded.length - 32)).head? = some 0
        rw [hlength]
        rfl
      rw [Option.getD_none] at hempty
      rw [hempty] at hfirst
      exact absurd hfirst (by decide)
  · cases hd : sampleTexts.lookup encoded with
    | some d => exact hlisted _ (mem_of_lookup hd)
    | none => decide

/-- The validator code of the states, and the preimages of their accounts. -/
def claimsDB : Database :=
  (Store.empty.write [(ascii ['v', 'c'] ++ IndependentSums.codeHashA.data,
      IndependentSums.wrapperBytesA),
    (IndependentSums.codeHashC.data, IndependentSums.wrapperBytesC),
    (preimagePrefix ++ IndependentSums.keyA.data, List.replicate 20 0xaa),
    (preimagePrefix ++ IndependentSums.keyB.data, List.replicate 20 0xbb),
    (preimagePrefix ++ IndependentSums.keyC.data, List.replicate 20 0xcc)]).database

def oldAccounts : AccountTrie :=
  fullTrie IndependentSums.sampleTrie1.leaves (by decide) (by decide)

def newAccounts : AccountTrie :=
  fullTrie IndependentSums.sampleTrie0.leaves (by decide) (by decide)

theorem sample_preimages (key : Hash) (h : IndependentSums.sampleTrie1.leaves.lookup key ≠
    IndependentSums.sampleTrie0.leaves.lookup key) : readPreimage claimsDB key ≠ [] := by
  have hlisted : ∀ key ∈ IndependentSums.sampleTrie0.leaves.map Prod.fst,
      readPreimage claimsDB key ≠ [] := by decide +kernel
  have hsubset : IndependentSums.sampleTrie1.leaves.map Prod.fst ⊆
      IndependentSums.sampleTrie0.leaves.map Prod.fst := by decide
  refine hlisted key ?_
  by_contra hnot
  refine h ?_
  rw [(lookup_eq_none_iff _ _).mpr fun hmem => hnot (hsubset hmem),
    (lookup_eq_none_iff _ _).mpr hnot]

end ClaimsDiffTotals
