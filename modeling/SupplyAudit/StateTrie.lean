import SupplyAudit.ChainDatabase
import SupplyAudit.HexText

/-!
# State tries and validator code

A state root opens a trie of accounts under hashed addresses. Iterating it
serves the leaves in key order and may stop at a missing node. Validator
wrappers are stored as the code of their accounts, under a prefixed or a bare
code hash.
-/

namespace StateTrie

open ByteWords NumeralText HexText ReceiptKeys ChainDatabase

structure StateAccount where
  nonce : UInt64
  balance : Option Int
  codeHash : Bytes
  deriving DecidableEq

structure Undelegation where
  amount : Option Int
  epoch : Option Int
  deriving DecidableEq

structure Delegation where
  delegatorAddress : Address
  amount : Option Int
  reward : Option Int
  undelegations : List Undelegation
  deriving DecidableEq

structure ValidatorWrapper where
  address : Address
  delegations : List Delegation
  blockReward : Option Int
  deriving DecidableEq

/-- The library functions that the state scanners call. -/
structure StateCodec where
  keccak256 : Bytes → Hash
  decodeAccount : Bytes → Except String StateAccount
  decodeWrapper : Bytes → Except String ValidatorWrapper
  decodeAddresses : Bytes → Except String (List Address)

/-- The library functions on finitely many known values; others are refused. -/
def StateCodec.ofTables (digests : List (Bytes × Hash)) (accounts : List (Bytes × StateAccount))
    (wrappers : List (Bytes × ValidatorWrapper)) (lists : List (Bytes × List Address)) :
    StateCodec where
  keccak256 bs := (digests.lookup bs).getD (FixedBytes.zero 32)
  decodeAccount bs := (accounts.lookup bs).elim (.error "rlp: expected input list") .ok
  decodeWrapper bs := (wrappers.lookup bs).elim (.error "rlp: expected input list") .ok
  decodeAddresses bs := (lists.lookup bs).elim (.error "rlp: expected input list") .ok

/-- A trie as the library serves it. Where no node is missing, a lookup finds
exactly the leaves that an iteration serves. -/
structure Trie where
  hash : Hash
  leaves : List (Hash × Bytes)
  increasing : leaves.Pairwise (fun a b => a.1.data < b.1.data)
  iterErr : Option String
  tryGet : Hash → Except String (Option Bytes)
  complete : iterErr = none → ∀ key, tryGet key = .ok (leaves.lookup key)

/-- A trie of which every node is there. -/
def Trie.full (hash : Hash) (leaves : List (Hash × Bytes))
    (increasing : leaves.Pairwise (fun a b => a.1.data < b.1.data)) : Trie where
  hash := hash
  leaves := leaves
  increasing := increasing
  iterErr := none
  tryGet key := .ok (leaves.lookup key)
  complete _ _ := rfl

variable (codec : StateCodec) (db : Database) (trie : Trie)

def tryGetAccount (address : Address) : Except String (Option StateAccount) := do
  let found ← trie.tryGet (codec.keccak256 address.data)
  match found with
  | none => .ok none
  | some value =>
    let account ← codec.decodeAccount value
    .ok (some account)

/-- Keccak-256 of no bytes. -/
def emptyCodeHash : Hash where
  data := [0xc5, 0xd2, 0x46, 0x01, 0x86, 0xf7, 0x23, 0x3c, 0x92, 0x7e, 0x7d, 0xb2, 0xdc, 0xc7, 0x03,
    0xc0, 0xe5, 0x00, 0xb6, 0x53, 0xca, 0x82, 0x27, 0x3b, 0x7b, 0xfa, 0xd8, 0x04, 0x5d, 0x85, 0xa4,
    0x70]
  size := rfl

/-- A read whose failure counts as no value. -/
def stored (key : Bytes) : Bytes :=
  match db.get key with
  | .ok value => value
  | .error _ => []

/-- The code and whether it was found under the prefix of validator code. -/
def validatorCode (codeHash : Hash) : Bytes × Bool :=
  let encoded := stored db (ascii ['v', 'c'] ++ codeHash.data)
  if encoded.length ≠ 0 then (encoded, true)
  else
    let encoded := stored db codeHash.data
    if encoded.length ≠ 0 then (encoded, false) else ([], false)

def preimagePrefix : Bytes := ascii ['s', 'e', 'c', 'u', 'r', 'e', '-', 'k', 'e', 'y', '-']

def readPreimage (hash : Hash) : Bytes := stored db (preimagePrefix ++ hash.data)

/-- The first address of a list that has occurred before. -/
def firstRepeated : List Address → List Address → Option Address
  | _, [] => none
  | seen, a :: rest => if a ∈ seen then some a else firstRepeated (a :: seen) rest

theorem firstRepeated_eq_none_iff (seen addresses : List Address) :
    firstRepeated seen addresses = none ↔ addresses.Nodup ∧ ∀ a ∈ addresses, a ∉ seen := by
  induction addresses generalizing seen with
  | nil => simp [firstRepeated]
  | cons a rest ih =>
    rw [firstRepeated]
    by_cases ha : a ∈ seen
    · simp [ha]
    · rw [if_neg ha, ih, List.nodup_cons]
      constructor
      · rintro ⟨hnodup, hnew⟩
        refine ⟨⟨fun hmem => hnew a hmem List.mem_cons_self, hnodup⟩, ?_⟩
        intro b hb
        rcases List.mem_cons.mp hb with rfl | hb
        · exact ha
        · exact fun hseen => hnew b hb (List.mem_cons_of_mem a hseen)
      · rintro ⟨⟨hnot, hnodup⟩, hnew⟩
        refine ⟨hnodup, fun b hb hseen => ?_⟩
        rcases List.mem_cons.mp hseen with rfl | hseen
        · exact hnot hb
        · exact hnew b (List.mem_cons_of_mem a hb) hseen

def validatorListKey : Bytes :=
  ascii ['v', 'a', 'l', 'i', 'd', 'a', 't', 'o', 'r', '-', 'l', 'i', 's', 't']

/-! ## Checks that the scanners share -/

/-- `address.Hex()` -/
def addressHex (address : Address) : String :=
  checksumHex (fun bs => (codec.keccak256 bs).data) address.data

def decodedAccount (key : Hash) (value : Bytes) : Except String StateAccount :=
  match codec.decodeAccount value with
  | .error err => .error ("decode account at secure key " ++ hexText key.data ++ ": " ++ err)
  | .ok account => .ok account

/-- `account.Balance` after its check. -/
def checkedBalance (key : Hash) (account : StateAccount) : Except String Int :=
  match account.balance with
  | none => .error ("invalid balance at secure key " ++ hexText key.data)
  | some balance =>
    if balance < 0 then .error ("invalid balance at secure key " ++ hexText key.data)
    else .ok balance

def requireNonNegative (value : Option Int) (name : String) (validator delegator : Address) :
    Except String Int :=
  let refused := "invalid " ++ name ++ " for validator " ++ addressHex codec validator ++
    " delegator " ++ addressHex codec delegator
  match value with
  | none => .error refused
  | some value => if value < 0 then .error refused else .ok value

/-- The addresses of `validator-list`, which must not repeat. -/
def readValidatorList (duplicate : String → String) : Except String (List Address) :=
  match db.get validatorListKey with
  | .error err => .error ("read validator-list: " ++ err)
  | .ok encoded =>
    if encoded.length = 0 then .error "read validator-list: <nil>"
    else match codec.decodeAddresses encoded with
      | .error err => .error ("decode validator-list: " ++ err)
      | .ok addresses =>
        match firstRepeated [] addresses with
        | some a => .error (duplicate (addressHex codec a))
        | none => .ok addresses

/-! ## One more wrapper -/

theorem mem_addresses_concat {ws : List ValidatorWrapper} {w : ValidatorWrapper} {a : Address} :
    a ∈ (ws ++ [w]).map ValidatorWrapper.address ↔
      a = w.address ∨ a ∈ ws.map ValidatorWrapper.address := by
  rw [List.map_append, List.mem_append, List.map_singleton, List.mem_singleton]
  exact or_comm

theorem nodup_addresses_concat {ws : List ValidatorWrapper} {w : ValidatorWrapper}
    (h : (ws.map ValidatorWrapper.address).Nodup)
    (hnew : w.address ∉ ws.map ValidatorWrapper.address) :
    ((ws ++ [w]).map ValidatorWrapper.address).Nodup := by
  rw [List.map_append, List.map_singleton]
  refine List.nodup_append.mpr ⟨h, List.pairwise_singleton _ _, ?_⟩
  rintro a ha b hb rfl
  exact hnew (List.mem_singleton.mp hb ▸ ha)

end StateTrie
