import SupplyAudit.FallibleScan
import SupplyAudit.KeyedTable
import SupplyAudit.StateTrie

/-!
# What a state holds

The liquid balance of a state is the sum over its accounts. Its validator
wrappers are those that the accounts' own code decodes to, each at the secure
key of its own address. Both are read off the trie's leaves, whichever way a
scanner goes about it.
-/

namespace WrapperTotals

open ByteWords ReceiptKeys ChainDatabase FallibleScan StateTrie

variable (codec : StateCodec) (db : Database) (trie : Trie)

/-- The wrapper that code stands for at an account. -/
def wrapperIn (secureKey codeHash : Hash) (encoded : Bytes) : Option ValidatorWrapper :=
  if encoded.length = 0 ∨ codec.keccak256 encoded ≠ codeHash then none
  else match codec.decodeWrapper encoded with
    | .error _ => none
    | .ok wrapper =>
      if codec.keccak256 wrapper.address.data ≠ secureKey then none else some wrapper

/-- The wrapper of an account. -/
def accountWrapper (secureKey : Hash) (account : StateAccount) : Option ValidatorWrapper :=
  let codeHash := FixedBytes.ofBytes 32 account.codeHash
  wrapperIn codec secureKey codeHash (validatorCode db codeHash).1

/-- The wrapper at a leaf. -/
def wrapperAt (leaf : Hash × Bytes) : Option ValidatorWrapper :=
  match codec.decodeAccount leaf.2 with
  | .error _ => none
  | .ok account => accountWrapper codec db leaf.1 account

/-- All wrappers of a state, in key order. -/
def wrappers : List ValidatorWrapper := trie.leaves.filterMap (wrapperAt codec db)

def amountOf (value : Option Int) : Int := value.getD 0

def balanceAt (leaf : Hash × Bytes) : Int :=
  match codec.decodeAccount leaf.2 with
  | .error _ => 0
  | .ok account => amountOf account.balance

def liquid : Int := (trie.leaves.map (balanceAt codec)).sum

def pendingOf (us : List Undelegation) : Int := (us.map fun u => amountOf u.amount).sum

def activeOf (ds : List Delegation) : Int := (ds.map fun d => amountOf d.amount).sum

def undelegatedOf (ds : List Delegation) : Int := (ds.map fun d => pendingOf d.undelegations).sum

def rewardOf (ds : List Delegation) : Int := (ds.map fun d => amountOf d.reward).sum

def active (ws : List ValidatorWrapper) : Int := (ws.map fun w => activeOf w.delegations).sum

def undelegated (ws : List ValidatorWrapper) : Int :=
  (ws.map fun w => undelegatedOf w.delegations).sum

def reward (ws : List ValidatorWrapper) : Int := (ws.map fun w => rewardOf w.delegations).sum

/-- No code that is stored passes for the empty code. -/
def EmptyCodeUnique : Prop := ∀ encoded, encoded ≠ [] → codec.keccak256 encoded ≠ emptyCodeHash

theorem emptyCodeUnique_ofTables {digests : List (Bytes × Hash)}
    {accounts : List (Bytes × StateAccount)} {wrappers : List (Bytes × ValidatorWrapper)}
    {lists : List (Bytes × List Address)} (h : ∀ d ∈ digests, d.2 ≠ emptyCodeHash) :
    EmptyCodeUnique (.ofTables digests accounts wrappers lists) := by
  intro encoded _
  change (digests.lookup encoded).getD (FixedBytes.zero 32) ≠ emptyCodeHash
  cases hd : digests.lookup encoded with
  | none => decide
  | some digest => exact h _ (KeyedTable.mem_of_lookup hd)

variable {codec} {db} {trie}

theorem wrapperIn_address {secureKey codeHash : Hash} {encoded : Bytes} {w : ValidatorWrapper}
    (h : wrapperIn codec secureKey codeHash encoded = some w) :
    codec.keccak256 w.address.data = secureKey := by
  rw [wrapperIn] at h
  split at h
  · cases h
  · split at h
    · cases h
    · split at h
      · cases h
      · rename_i hkey
        cases h
        exact not_not.mp hkey

/-- A wrapper names the account it is found at. -/
theorem wrapperAt_address {leaf : Hash × Bytes} {w : ValidatorWrapper}
    (h : wrapperAt codec db leaf = some w) : codec.keccak256 w.address.data = leaf.1 := by
  rw [wrapperAt] at h
  split at h
  · cases h
  · exact wrapperIn_address h

/-- An account with the empty code hash has no wrapper. -/
theorem accountWrapper_empty (hempty : EmptyCodeUnique codec) {secureKey : Hash}
    {account : StateAccount} (h : FixedBytes.ofBytes 32 account.codeHash = emptyCodeHash) :
    accountWrapper codec db secureKey account = none := by
  rw [accountWrapper, h, wrapperIn]
  apply if_pos
  by_cases hnil : (validatorCode db emptyCodeHash).1 = []
  · exact Or.inl (List.length_eq_zero_iff.mpr hnil)
  · exact Or.inr (hempty _ hnil)

theorem accountWrapper_no_code {secureKey : Hash} {account : StateAccount}
    (h : (validatorCode db (FixedBytes.ofBytes 32 account.codeHash)).1.length = 0) :
    accountWrapper codec db secureKey account = none := by
  rw [accountWrapper, wrapperIn]
  exact if_pos (Or.inl h)

/-- Increasing keys are distinct. -/
theorem nodup_of_increasing {leaves : List (Hash × Bytes)}
    (h : leaves.Pairwise (fun a b => a.1.data < b.1.data)) : (leaves.map Prod.fst).Nodup := by
  rw [List.Nodup, List.pairwise_map]
  refine h.imp ?_
  intro a b hlt heq
  rw [heq] at hlt
  exact Std.lt_irrefl hlt

theorem leaves_nodup (trie : Trie) : (trie.leaves.map Prod.fst).Nodup :=
  nodup_of_increasing trie.increasing

theorem requireNonNegative_ok {value : Option Int} {name : String} {validator delegator : Address}
    {z : Int} (h : requireNonNegative codec value name validator delegator = .ok z) :
    value = some z ∧ 0 ≤ z := by
  cases value with
  | none => cases h
  | some value =>
    simp only [requireNonNegative] at h
    split at h
    · cases h
    · rename_i hneg
      cases h
      exact ⟨rfl, Int.not_lt.mp hneg⟩

theorem decodedAccount_ok {key : Hash} {value : Bytes} {account : StateAccount}
    (h : decodedAccount codec key value = .ok account) :
    codec.decodeAccount value = .ok account := by
  rw [decodedAccount] at h
  split at h
  · cases h
  · rename_i found hfound
    cases h
    exact hfound

theorem checkedBalance_ok {key : Hash} {account : StateAccount} {balance : Int}
    (h : checkedBalance key account = .ok balance) :
    account.balance = some balance ∧ 0 ≤ balance := by
  rw [checkedBalance] at h
  split at h
  · cases h
  · rename_i found hfound
    split at h
    · cases h
    · rename_i hneg
      cases h
      exact ⟨hfound, Int.not_lt.mp hneg⟩

end WrapperTotals
