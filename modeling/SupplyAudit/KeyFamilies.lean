import SupplyAudit.ByteOrder
import SupplyAudit.CxLookupSnapshot

/-!
# The families of record keys

Receipt groups, spent markers, lookups and canonical hashes are stored under keys
whose prefixes overlap. The parts of a receipt key can be read from it, and keys of
the other families are refused for their lengths alone.
-/

namespace KeyFamilies

open ByteWords ReceiptKeys ByteOrder

/-! ## The parts of a receipt key -/

theorem length_receiptKey (destination : UInt32) (number : UInt64) (hash : Hash) :
    (receiptKey destination number hash).length = 53 := by
  simp [receiptKey, hash.size]

/-- The parts of a receipt key are read back. -/
theorem parts_receiptKey (destination : UInt32) (number : UInt64) (hash : Hash) :
    receiptKeyParts (receiptKey destination number hash) = some (destination, number, hash) := by
  have hdestination : (ofNat 4 destination.toNat).length = 4 := length_ofNat 4 _
  have hnumber : (ofNat 8 number.toNat).length = 8 := length_ofNat 8 _
  have hdrop (k : Nat) : (receiptKey destination number hash).drop (9 + k) =
      (ofNat 4 destination.toNat ++ (ofNat 8 number.toNat ++ hash.data)).drop k := by
    rw [receiptKey, ← length_receiptPrefix, List.drop_length_add_append]
  have hfirst : ((receiptKey destination number hash).drop 9).take 4 =
      ofNat 4 destination.toNat := by
    rw [← Nat.add_zero 9, hdrop, List.drop_zero, List.take_left' hdestination]
  have hsecond : ((receiptKey destination number hash).drop (9 + 4)).take 8 =
      ofNat 8 number.toNat := by
    rw [hdrop, List.drop_left' hdestination, List.take_left' hnumber]
  have hthird : (receiptKey destination number hash).drop (9 + 12) = hash.data := by
    rw [hdrop, ← List.append_assoc]
    apply List.drop_left'
    rw [List.length_append, hdestination, hnumber]
  have hprefix : receiptPrefix.isPrefixOf (receiptKey destination number hash) = true :=
    List.isPrefixOf_iff_prefix.mpr (List.prefix_append _ _)
  have hword : toNat (ofNat 4 destination.toNat) = destination.toNat :=
    toNat_ofNat_of_lt destination.toNat_lt
  have hlong : toNat (ofNat 8 number.toNat) = number.toNat := toNat_ofNat_of_lt number.toNat_lt
  simp only [receiptKeyParts, length_receiptKey, length_receiptPrefix, hashLength, hprefix, ne_eq,
    not_true_eq_false, or_self, if_false, hfirst, hsecond, hthird, hword, hlong,
    UInt32.ofNat_toNat, UInt64.ofNat_toNat, FixedBytes.ofBytes_data]

/-- Only keys of 53 bytes are accepted. -/
theorem parts_eq_none_of_length {key : Bytes} (h : key.length ≠ 53) : receiptKeyParts key = none :=
  if_pos (Or.inl h)

/-! ## Overlapping prefixes -/

theorem spentKey_under_receiptPrefix (source : UInt32) (number : UInt64) :
    receiptPrefix.isPrefixOf (spentKey source number) = true := by
  apply List.isPrefixOf_iff_prefix.mpr
  have hsplit : spentPrefix = receiptPrefix ++ ascii ['S', 'p', 'e', 'n', 't'] := rfl
  rw [spentKey, hsplit, List.append_assoc]
  exact List.prefix_append _ _

/-- The lookups under the receipt prefix are those of hashes that begin with `Receipt`. -/
theorem cxLookupKey_under_receiptPrefix (hash : Hash) :
    receiptPrefix.isPrefixOf (cxLookupKey hash) = true ↔
      (ascii ['R', 'e', 'c', 'e', 'i', 'p', 't']).isPrefixOf hash.data = true := by
  have hsplit : receiptPrefix = cxLookupPrefix ++ ascii ['R', 'e', 'c', 'e', 'i', 'p', 't'] := rfl
  rw [List.isPrefixOf_iff_prefix, List.isPrefixOf_iff_prefix, cxLookupKey, hsplit,
    List.prefix_append_right_inj]

def receiptHash : Hash where
  data := ascii ['R', 'e', 'c', 'e', 'i', 'p', 't'] ++ List.replicate 25 0
  size := by decide

/-! ## Order -/

/-- The order of the parts: by destination, then number, then hash. -/
def PartsBefore (a b : UInt32 × UInt64 × Hash) : Prop :=
  a.1 < b.1 ∨ a.1 = b.1 ∧ (a.2.1 < b.2.1 ∨ a.2.1 = b.2.1 ∧ a.2.2.data < b.2.2.data)

theorem ofNat_word_lt_iff (a b : UInt32) : ofNat 4 a.toNat < ofNat 4 b.toNat ↔ a < b := by
  rw [ofNat_lt_iff a.toNat_lt b.toNat_lt, UInt32.lt_iff_toNat_lt]

theorem ofNat_word_inj (a b : UInt32) : ofNat 4 a.toNat = ofNat 4 b.toNat ↔ a = b := by
  constructor
  · intro h
    exact UInt32.toNat_inj.mp (ofNat_injective a.toNat_lt b.toNat_lt h)
  · rintro rfl
    rfl

theorem ofNat_long_lt_iff (a b : UInt64) : ofNat 8 a.toNat < ofNat 8 b.toNat ↔ a < b := by
  rw [ofNat_lt_iff a.toNat_lt b.toNat_lt, UInt64.lt_iff_toNat_lt]

theorem ofNat_long_inj (a b : UInt64) : ofNat 8 a.toNat = ofNat 8 b.toNat ↔ a = b := by
  constructor
  · intro h
    exact UInt64.toNat_inj.mp (ofNat_injective a.toNat_lt b.toNat_lt h)
  · rintro rfl
    rfl

/-- Accepted keys are ordered as their parts are. -/
theorem lt_iff_partsBefore {key key' : Bytes} {parts parts' : UInt32 × UInt64 × Hash}
    (h : receiptKeyParts key = some parts) (h' : receiptKeyParts key' = some parts') :
    key < key' ↔ PartsBefore parts parts' := by
  obtain ⟨destination, number, hash⟩ := parts
  obtain ⟨destination', number', hash'⟩ := parts'
  have hlong : (ofNat 8 number.toNat).length = (ofNat 8 number'.toNat).length := by
    rw [length_ofNat, length_ofNat]
  have hword : (ofNat 4 destination.toNat).length = (ofNat 4 destination'.toNat).length := by
    rw [length_ofNat, length_ofNat]
  have hsame : ¬ receiptPrefix < receiptPrefix := Std.lt_irrefl
  rw [eq_receiptKey_of_parts h, eq_receiptKey_of_parts h', receiptKey, receiptKey,
    append_lt_append_iff rfl, append_lt_append_iff hword, append_lt_append_iff hlong,
    ofNat_word_lt_iff, ofNat_word_inj, ofNat_long_lt_iff, ofNat_long_inj]
  simp only [hsame, true_and, false_or, PartsBefore]

/-! ## The codec -/

/-- Receipt keys are told apart from keys of all other families, and ordered by their
parts. -/
structure ExactCodec : Prop where
  decoded : ∀ destination number hash,
    receiptKeyParts (receiptKey destination number hash) = some (destination, number, hash)
  accepted : ∀ key destination number hash,
    receiptKeyParts key = some (destination, number, hash) →
      key = receiptKey destination number hash
  spentRefused : ∀ source number, receiptKeyParts (spentKey source number) = none
  lookupRefused : ∀ hash, receiptKeyParts (cxLookupKey hash) = none
  canonicalRefused : ∀ number, receiptKeyParts (canonicalHashKey number) = none
  spentUnderPrefix : ∀ source number, receiptPrefix.isPrefixOf (spentKey source number) = true
  lookupUnderPrefix : ∃ hash, receiptPrefix.isPrefixOf (cxLookupKey hash) = true
  noLookupLength : ∀ destination number hash source,
    (receiptKey destination number hash).length ≠ cxLookupPrefix.length + hashLength ∧
      (spentKey source number).length ≠ cxLookupPrefix.length + hashLength
  ordered : ∀ key key' parts parts', receiptKeyParts key = some parts →
    receiptKeyParts key' = some parts' → (key < key' ↔ PartsBefore parts parts')

theorem receipt_keys_exact : ExactCodec := by
  constructor
  case decoded => exact parts_receiptKey
  case accepted => exact fun _ _ _ _ => eq_receiptKey_of_parts
  case spentRefused =>
    intro source number
    apply parts_eq_none_of_length
    rw [length_spentKey]
    decide
  case lookupRefused =>
    intro hash
    apply parts_eq_none_of_length
    rw [length_cxLookupKey]
    decide
  case canonicalRefused =>
    intro number
    apply parts_eq_none_of_length
    rw [length_canonicalHashKey]
    decide
  case spentUnderPrefix => exact spentKey_under_receiptPrefix
  case lookupUnderPrefix =>
    exact ⟨receiptHash, (cxLookupKey_under_receiptPrefix receiptHash).mpr (by decide)⟩
  case noLookupLength =>
    intro destination number hash source
    rw [length_receiptKey, length_spentKey]
    decide
  case ordered => exact fun _ _ _ _ => lt_iff_partsBefore

end KeyFamilies
