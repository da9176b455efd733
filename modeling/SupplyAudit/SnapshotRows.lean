import SupplyAudit.AccountSnapshot
import SupplyAudit.WrapperTotals

/-!
# The rows of an account snapshot

A snapshot that completes has one row for every account with a positive
balance, in key order, and the balances in the rows add up to the liquid
balance of the state.
-/

namespace SnapshotRows

open ByteWords NumeralText ReceiptKeys ChainDatabase FallibleScan StateTrie WrapperTotals
  AccountSnapshot

variable {codec : StateCodec} {db : Database}

structure BalanceRow where
  key : Hash
  address : String
  balance : Int
  nonce : UInt64
  codeHash : Bytes

def BalanceRow.cells (row : BalanceRow) : List String :=
  [prefixedHex row.key.data, row.address, toString row.balance, toString row.nonce.toNat,
    prefixedHex row.codeHash]

/-- The address text of a secure key; a key whose preimage is unusable stops the run. -/
def addressAt (codec : StateCodec) (db : Database) (key : Hash) : String :=
  match preimageAddress codec db key with
  | .ok address => address
  | .error _ => ""

/-- The row of a leaf, if its account has a positive balance. -/
def rowAt (codec : StateCodec) (db : Database) (leaf : Hash × Bytes) : Option BalanceRow :=
  match codec.decodeAccount leaf.2 with
  | .error _ => none
  | .ok account =>
    if 0 < amountOf account.balance then
      some ⟨leaf.1, addressAt codec db leaf.1, amountOf account.balance, account.nonce,
        account.codeHash⟩
    else none

/-- An address in a row is the one its key was hashed from. -/
theorem addressAt_spec (codec : StateCodec) (db : Database) (key : Hash) :
    addressAt codec db key = "" ∨
      ∃ a : Address, codec.keccak256 a.data = key ∧ addressAt codec db key = addressHex codec a := by
  rw [addressAt]
  split
  · rename_i address hok
    rw [preimageAddress] at hok
    split at hok
    · cases hok
      exact Or.inl rfl
    · split at hok
      · cases hok
      · rename_i hlen
        split at hok
        · cases hok
        · rename_i hhash
          cases hok
          exact Or.inr ⟨⟨_, not_not.mp hlen⟩, not_not.mp hhash, rfl⟩
  · exact Or.inl rfl

theorem rowAt_spec {leaf : Hash × Bytes} {row : BalanceRow} (h : rowAt codec db leaf = some row) :
    row.key = leaf.1 ∧ row.address = addressAt codec db row.key ∧ 0 < row.balance := by
  rw [rowAt] at h
  split at h
  · cases h
  · split at h
    · rename_i hpos
      cases h
      exact ⟨rfl, rfl, hpos⟩
    · cases h

/-- What a snapshot has written after some leaves. -/
structure Written (codec : StateCodec) (db : Database) (done : List (Hash × Bytes))
    (p : Progress) : Prop where
  records : p.records = (done.filterMap (rowAt codec db)).map BalanceRow.cells
  nonneg : ∀ leaf ∈ done, 0 ≤ balanceAt codec leaf
  total : p.totalBalance = (done.map (balanceAt codec)).sum

theorem snapshotLeaf_ok {threshold : Int} {done : List (Hash × Bytes)} {leaf : Hash × Bytes}
    {p p' : Progress} (hp : Written codec db done p)
    (h : snapshotLeaf codec db threshold p leaf = .ok p') :
    Written codec db (done ++ [leaf]) p' := by
  simp only [snapshotLeaf, bind_eq_ok] at h
  obtain ⟨account, haccount, balance, hbalance, q, hq, h⟩ := h
  obtain ⟨hvalue, hnonneg⟩ := checkedBalance_ok hbalance
  have hat : balanceAt codec leaf = balance := by
    rw [balanceAt, decodedAccount_ok haccount]
    simp only [hvalue, amountOf, Option.getD_some]
  have hwritten : Written codec db (done ++ [leaf]) q := by
    have htotal : p.totalBalance + balance = ((done ++ [leaf]).map (balanceAt codec)).sum := by
      rw [List.map_append, List.sum_append, ← hp.total, List.map_singleton, List.sum_singleton, hat]
    have hall : ∀ l ∈ done ++ [leaf], 0 ≤ balanceAt codec l := by
      intro l hl
      rcases List.mem_append.mp hl with hl | hl
      · exact hp.nonneg l hl
      · rw [List.mem_singleton.mp hl, hat]
        exact hnonneg
    rw [writeAccount] at hq
    split at hq
    · rename_i hpos
      rw [bind_eq_ok] at hq
      obtain ⟨address, haddress, hq⟩ := hq
      cases hq
      have hrow : rowAt codec db leaf =
          some ⟨leaf.1, address, balance, account.nonce, account.codeHash⟩ := by
        rw [rowAt, decodedAccount_ok haccount]
        simp only [hvalue, amountOf, Option.getD_some, if_pos hpos, addressAt, haddress]
      refine ⟨?_, hall, htotal⟩
      rw [filterMap_concat, hrow, Option.toList_some, List.map_append, ← hp.records]
      rfl
    · rename_i hpos
      cases hq
      have hrow : rowAt codec db leaf = none := by
        rw [rowAt, decodedAccount_ok haccount]
        simp only [hvalue, amountOf, Option.getD_some, if_neg hpos]
      refine ⟨?_, hall, htotal⟩
      rw [filterMap_concat, hrow, Option.toList_none, List.append_nil]
      exact hp.records
  cases h
  rw [qualify]
  split
  · exact ⟨hwritten.records, hwritten.nonneg, hwritten.total⟩
  · exact hwritten

/-- A completed snapshot: its rows, and their sum. -/
theorem main_ok {trie : Trie} {root : Hash} {threshold : Int} {requirePreimages : Bool}
    {output : Output} (h : main codec db trie root threshold requirePreimages = .ok output) :
    output.csv = header :: (trie.leaves.filterMap (rowAt codec db)).map BalanceRow.cells ∧
      ((trie.leaves.filterMap (rowAt codec db)).map BalanceRow.balance).sum = liquid codec trie := by
  rw [main] at h
  split at h
  · cases h
  rw [bind_eq_ok] at h
  obtain ⟨p, hrun, h⟩ := h
  have hp : Written codec db trie.leaves p := by
    refine foldlM_invariant (Written codec db) ?_ [] ⟨rfl, nofun, rfl⟩ hrun
    exact fun done p leaf p' hp hstep => snapshotLeaf_ok hp hstep
  split at h
  · cases h
  · cases h
    refine ⟨congrArg (header :: ·) hp.records, ?_⟩
    rw [sum_filterMap, liquid]
    congr 1
    apply List.map_congr_left
    intro leaf hleaf
    have hnonneg := hp.nonneg leaf hleaf
    rw [balanceAt] at hnonneg ⊢
    rw [rowAt]
    cases hdecoded : codec.decodeAccount leaf.2 with
    | error err => rfl
    | ok account =>
      rw [hdecoded] at hnonneg
      dsimp only at hnonneg ⊢
      by_cases hpos : 0 < amountOf account.balance
      · rw [if_pos hpos]
        rfl
      · rw [if_neg hpos]
        show (0 : Int) = amountOf account.balance
        omega

end SnapshotRows
