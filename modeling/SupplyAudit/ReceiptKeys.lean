import SupplyAudit.ByteWords

/-!
# Database keys of cross-shard records

The three scanners address a LevelDB by byte keys: receipt groups under
`cxReceipt`, spent markers under `cxReceiptSpent`, destination lookups under
`cx`, and canonical header hashes under `h…n`. Integers are big endian.
-/

namespace ReceiptKeys

open ByteWords

abbrev Hash := FixedBytes 32

abbrev Address := FixedBytes 20

instance : LawfulBEq Hash := inferInstance

instance : LawfulBEq Address := inferInstance

def hashLength : Nat := 32

def ascii (cs : List Char) : Bytes := cs.map (fun c => UInt8.ofNat c.toNat)

def receiptPrefix : Bytes := ascii ['c', 'x', 'R', 'e', 'c', 'e', 'i', 'p', 't']

def cxLookupPrefix : Bytes := ascii ['c', 'x']

def spentPrefix : Bytes :=
  ascii ['c', 'x', 'R', 'e', 'c', 'e', 'i', 'p', 't', 'S', 'p', 'e', 'n', 't']

/-- The destination, block number and block hash named by a receipt-group key. -/
def receiptKeyParts (key : Bytes) : Option (UInt32 × UInt64 × Hash) :=
  let suffixLength := 4 + 8 + hashLength
  if key.length ≠ receiptPrefix.length + suffixLength ∨ ¬ receiptPrefix.isPrefixOf key then none
  else
    let offset := receiptPrefix.length
    let destination := UInt32.ofNat (toNat ((key.drop offset).take 4))
    let number := UInt64.ofNat (toNat ((key.drop (offset + 4)).take 8))
    let hash := FixedBytes.ofBytes 32 (key.drop (offset + 12))
    some (destination, number, hash)

def cxLookupKey (hash : Hash) : Bytes := cxLookupPrefix ++ hash.data

def spentKey (source : UInt32) (number : UInt64) : Bytes :=
  spentPrefix ++ (ofNat 4 source.toNat ++ ofNat 8 number.toNat)

def canonicalHashKey (number : UInt64) : Bytes :=
  ascii ['h'] ++ (ofNat 8 number.toNat ++ ascii ['n'])

@[simp] theorem length_receiptPrefix : receiptPrefix.length = 9 := rfl

@[simp] theorem length_cxLookupPrefix : cxLookupPrefix.length = 2 := rfl

@[simp] theorem length_spentPrefix : spentPrefix.length = 14 := rfl

@[simp] theorem length_cxLookupKey (hash : Hash) : (cxLookupKey hash).length = 34 := by
  simp [cxLookupKey, hash.size]

@[simp] theorem length_spentKey (source : UInt32) (number : UInt64) :
    (spentKey source number).length = 26 := by
  simp [spentKey]

@[simp] theorem length_canonicalHashKey (number : UInt64) :
    (canonicalHashKey number).length = 10 := by
  simp [canonicalHashKey, ascii]

theorem isPrefixOf_of_receiptKeyParts {key : Bytes} {parts : UInt32 × UInt64 × Hash}
    (h : receiptKeyParts key = some parts) : receiptPrefix.isPrefixOf key = true := by
  by_cases hp : receiptPrefix.isPrefixOf key = true
  · exact hp
  · simp [receiptKeyParts, hp] at h

/-- The key under which the source stores a receipt group. -/
def receiptKey (destination : UInt32) (number : UInt64) (hash : Hash) : Bytes :=
  receiptPrefix ++ (ofNat 4 destination.toNat ++ (ofNat 8 number.toNat ++ hash.data))

/-- Only the receipt key of the parts has these parts. -/
theorem eq_receiptKey_of_parts {key : Bytes} {destination : UInt32} {number : UInt64}
    {hash : Hash} (h : receiptKeyParts key = some (destination, number, hash)) :
    key = receiptKey destination number hash := by
  obtain ⟨rest, rfl⟩ := List.isPrefixOf_iff_prefix.mp (isPrefixOf_of_receiptKeyParts h)
  have hdrop (k : Nat) : (receiptPrefix ++ rest).drop (9 + k) = rest.drop k := by
    rw [← length_receiptPrefix, List.drop_length_add_append]
  by_cases hl : rest.length = 44
  · have hd4 : (receiptPrefix ++ rest).drop 9 = rest := hdrop 0
    have hd8 : (receiptPrefix ++ rest).drop (9 + 4) = rest.drop 4 := hdrop 4
    have hd12 : (receiptPrefix ++ rest).drop (9 + 12) = rest.drop 12 := hdrop 12
    simp only [receiptKeyParts, List.length_append, length_receiptPrefix, hashLength, hl,
      List.isPrefixOf_iff_prefix, List.prefix_append, not_true_eq_false, ne_eq, or_self, if_false,
      hd4, hd8, hd12, Option.some.injEq, Prod.mk.injEq] at h
    obtain ⟨rfl, rfl, rfl⟩ := h
    have h4 : ofNat 4 (toNat (rest.take 4)) = rest.take 4 := by
      have hlen : (rest.take 4).length = 4 := by rw [List.length_take]; omega
      simpa only [hlen] using ofNat_toNat (rest.take 4)
    have h8 : ofNat 8 (toNat ((rest.drop 4).take 8)) = (rest.drop 4).take 8 := by
      have hlen : ((rest.drop 4).take 8).length = 8 := by
        rw [List.length_take, List.length_drop]; omega
      simpa only [hlen] using ofNat_toNat ((rest.drop 4).take 8)
    have hlt4 : toNat (rest.take 4) < 2 ^ 32 := by
      have hlt := toNat_lt (rest.take 4)
      rw [List.length_take, hl] at hlt
      exact hlt
    have hlt8 : toNat ((rest.drop 4).take 8) < 2 ^ 64 := by
      have hlt := toNat_lt ((rest.drop 4).take 8)
      rw [List.length_take, List.length_drop, hl] at hlt
      exact hlt
    have hh : (FixedBytes.ofBytes 32 (rest.drop 12)).data = rest.drop 12 := by
      rw [FixedBytes.ofBytes_of_length (by rw [List.length_drop]; omega)]
    rw [receiptKey, UInt32.toNat_ofNat_of_lt' hlt4, UInt64.toNat_ofNat_of_lt' hlt8, h4, h8, hh]
    have hsplit : rest = rest.take 4 ++ ((rest.drop 4).take 8 ++ rest.drop 12) := by
      have h12 : rest.drop 12 = (rest.drop 4).drop 8 := by rw [List.drop_drop]
      rw [h12, List.take_append_drop, List.take_append_drop]
    rw [← hsplit]
  · simp only [receiptKeyParts, List.length_append, length_receiptPrefix, hashLength] at h
    rw [if_pos (Or.inl (by omega))] at h
    cases h

theorem canonicalHashKey_injective {a b : UInt64}
    (h : canonicalHashKey a = canonicalHashKey b) : a = b := by
  have hw : ofNat 8 a.toNat = ofNat 8 b.toNat :=
    List.append_cancel_right (List.append_cancel_left h)
  have ha : a.toNat < 256 ^ 8 := a.toNat_lt
  have hb : b.toNat < 256 ^ 8 := b.toNat_lt
  exact UInt64.toNat_inj.mp (ofNat_injective ha hb hw)

theorem cxLookupKey_ne_canonicalHashKey (hash : Hash) (number : UInt64) :
    cxLookupKey hash ≠ canonicalHashKey number := by
  intro h
  have hl := congrArg List.length h
  simp at hl

theorem canonicalHashKey_ne_spentKey (number : UInt64) (source : UInt32) (block : UInt64) :
    canonicalHashKey number ≠ spentKey source block := by
  intro h
  have hl := congrArg List.length h
  simp at hl

theorem cxLookupPrefix_isPrefixOf (hash : Hash) :
    cxLookupPrefix.isPrefixOf (cxLookupKey hash) = true := by
  simp [cxLookupKey]

/-- Under the lookup prefix, the width alone identifies a lookup key. -/
theorem eq_cxLookupKey_of_length {key : Bytes} (hp : cxLookupPrefix.isPrefixOf key = true)
    (hl : key.length = cxLookupPrefix.length + hashLength) :
    ∃ hash, key = cxLookupKey hash := by
  obtain ⟨rest, rfl⟩ := List.isPrefixOf_iff_prefix.mp hp
  have hs : rest.length = 32 := by
    rw [List.length_append, length_cxLookupPrefix, hashLength] at hl
    omega
  exact ⟨⟨rest, hs⟩, rfl⟩

end ReceiptKeys
