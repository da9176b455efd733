import Mathlib.Data.List.Induction
import SupplyAudit.FallibleScan
import SupplyAudit.ReceiptKeys

/-!
# Key-value databases and error-preserving reads

A `Store` is the content of a LevelDB: records in strictly increasing key
order. A `Database` is what a reader sees of one, and may fail. The reads of
`cross-shard-supply` never confuse a failed read with an absent key.
-/

namespace ChainDatabase

open ByteWords ReceiptKeys FallibleScan

abbrev Record := Bytes × Bytes

/-- Database content. The key order is part of the value. -/
@[ext] structure Store where
  records : List Record
  sorted : records.Pairwise (fun a b => a.1 < b.1)

namespace Store

def empty : Store := ⟨[], List.Pairwise.nil⟩

def lookup (s : Store) (key : Bytes) : Option Bytes :=
  (s.records.find? (fun r => r.1 == key)).map Prod.snd

/-- The content of a key list after one write. -/
def putRecords (key value : Bytes) : List Record → List Record
  | [] => [(key, value)]
  | r :: rest =>
    if key < r.1 then (key, value) :: r :: rest
    else if key = r.1 then (key, value) :: rest
    else r :: putRecords key value rest

theorem mem_putRecords {key value : Bytes} {l : List Record} {r : Record}
    (h : r ∈ putRecords key value l) : r = (key, value) ∨ r ∈ l := by
  induction l with
  | nil => exact Or.inl (by simpa [putRecords] using h)
  | cons a l ih =>
    rw [putRecords] at h
    split at h
    · simpa using h
    · split at h
      · rcases List.mem_cons.mp h with h | h
        · exact Or.inl h
        · exact Or.inr (List.mem_cons_of_mem a h)
      · rcases List.mem_cons.mp h with h | h
        · exact Or.inr (h ▸ List.mem_cons_self)
        · rcases ih h with h | h
          · exact Or.inl h
          · exact Or.inr (List.mem_cons_of_mem a h)

theorem putRecords_sorted (key value : Bytes) {l : List Record}
    (h : l.Pairwise (fun a b => a.1 < b.1)) :
    (putRecords key value l).Pairwise (fun a b => a.1 < b.1) := by
  induction l with
  | nil => simp [putRecords]
  | cons a l ih =>
    have ha := (List.pairwise_cons.mp h).1
    have hl := (List.pairwise_cons.mp h).2
    rw [putRecords]
    split
    · rename_i hlt
      refine List.pairwise_cons.mpr ⟨?_, h⟩
      intro b hb
      rcases List.mem_cons.mp hb with rfl | hb
      · exact hlt
      · exact Std.lt_trans hlt (ha b hb)
    · rename_i hge
      split
      · rename_i heq
        subst heq
        exact List.pairwise_cons.mpr ⟨ha, hl⟩
      · rename_i hne
        refine List.pairwise_cons.mpr ⟨?_, ih hl⟩
        intro b hb
        rcases mem_putRecords hb with rfl | hb
        · rcases Std.lt_trichotomy a.1 key with hlt | heq | hgt
          · exact hlt
          · exact absurd heq.symm hne
          · exact absurd hgt hge
        · exact ha b hb

/-- One write: the previous value of the key, if any, is replaced. -/
def put (s : Store) (key value : Bytes) : Store :=
  ⟨putRecords key value s.records, putRecords_sorted key value s.sorted⟩

theorem find?_putRecords (key value : Bytes) (k : Bytes) (l : List Record) :
    ((putRecords key value l).find? (fun r => r.1 == k)).map Prod.snd =
      if k = key then some value else (l.find? (fun r => r.1 == k)).map Prod.snd := by
  induction l with
  | nil =>
    by_cases hk : k = key
    · simp [putRecords, hk]
    · have hk' : ¬ key = k := fun h => hk h.symm
      simp [putRecords, hk, hk']
  | cons a l ih =>
    rw [putRecords]
    split
    · by_cases hk : k = key
      · simp [hk]
      · have hk' : ¬ key = k := fun h => hk h.symm
        simp [hk, hk']
    · split
      · rename_i heq
        subst heq
        by_cases hk : k = a.1
        · simp [hk]
        · have hk' : ¬ a.1 = k := fun h => hk h.symm
          simp [hk, hk']
      · rename_i hne
        by_cases ha : a.1 = k
        · have hk : ¬ k = key := by rintro rfl; exact hne ha.symm
          simp [ha, hk]
        · simpa [List.find?_cons, ha] using ih

theorem lookup_put (s : Store) (key value k : Bytes) :
    (s.put key value).lookup k = if k = key then some value else s.lookup k :=
  find?_putRecords key value k s.records

/-- A batch of writes, in order. -/
def write (s : Store) (batch : List Record) : Store :=
  batch.foldl (fun s r => s.put r.1 r.2) s

theorem lookup_write_of_not_mem (s : Store) {batch : List Record} {key : Bytes}
    (h : ∀ r ∈ batch, r.1 ≠ key) : (s.write batch).lookup key = s.lookup key := by
  induction batch generalizing s with
  | nil => rfl
  | cons a batch ih =>
    have ha : ¬ key = a.1 := fun he => h a List.mem_cons_self he.symm
    have hrest := ih (s.put a.1 a.2) (fun r hr => h r (List.mem_cons_of_mem a hr))
    rw [lookup_put, if_neg ha] at hrest
    exact hrest

/-- If a batch never writes two values to one key, the order of its writes does
not matter. -/
theorem lookup_write_of_mem (s : Store) {batch : List Record}
    (hfun : ∀ r ∈ batch, ∀ r' ∈ batch, r.1 = r'.1 → r.2 = r'.2) {r : Record} (h : r ∈ batch) :
    (s.write batch).lookup r.1 = some r.2 := by
  induction batch using List.reverseRecOn with
  | nil => cases h
  | append_singleton batch a ih =>
    have hwrite : s.write (batch ++ [a]) = (s.write batch).put a.1 a.2 := by
      rw [write, List.foldl_append]
      rfl
    rw [hwrite, lookup_put]
    by_cases ha : r.1 = a.1
    · rw [if_pos ha, hfun r h a (List.mem_append_right batch List.mem_cons_self) ha]
    · rw [if_neg ha]
      refine ih (fun b hb b' hb' => ?_) ?_
      · exact hfun b (List.mem_append_left [a] hb) b' (List.mem_append_left [a] hb')
      · rcases List.mem_append.mp h with h | h
        · exact h
        · exact absurd (congrArg Prod.fst (List.mem_singleton.mp h)) ha

theorem lookup_write_iff (s : Store) {batch : List Record}
    (hfun : ∀ r ∈ batch, ∀ r' ∈ batch, r.1 = r'.1 → r.2 = r'.2) (key value : Bytes) :
    (s.write batch).lookup key = some value ↔
      (key, value) ∈ batch ∨ ((∀ r ∈ batch, r.1 ≠ key) ∧ s.lookup key = some value) := by
  by_cases hex : ∃ r ∈ batch, r.1 = key
  · obtain ⟨r, hr, rfl⟩ := id hex
    rw [lookup_write_of_mem s hfun hr]
    constructor
    · rintro ⟨rfl⟩
      exact Or.inl hr
    · rintro (hv | ⟨hno, -⟩)
      · exact congrArg some (hfun r hr _ hv rfl)
      · exact absurd rfl (hno r hr)
  · have hno : ∀ r ∈ batch, r.1 ≠ key := fun r hr hk => hex ⟨r, hr, hk⟩
    rw [lookup_write_of_not_mem s hno]
    constructor
    · exact fun hl => Or.inr ⟨hno, hl⟩
    · rintro (hv | ⟨-, hl⟩)
      · exact absurd rfl (hno _ hv)
      · exact hl

/-- Keys are unique, so a stored record is what its key looks up. -/
theorem lookup_of_mem (s : Store) {r : Record} (h : r ∈ s.records) :
    s.lookup r.1 = some r.2 := by
  obtain ⟨l, hl⟩ := s
  rw [lookup]
  induction l with
  | nil => cases h
  | cons a l ih =>
    have ha := (List.pairwise_cons.mp hl).1
    rcases List.mem_cons.mp h with rfl | hr
    · simp
    · have hne : ¬ a.1 = r.1 := by
        intro he
        exact Std.lt_irrefl (he ▸ ha r hr)
      simpa [List.find?_cons, hne] using ih (List.pairwise_cons.mp hl).2 hr

theorem eq_of_mem_of_key_eq (s : Store) {r r' : Record} (h : r ∈ s.records) (h' : r' ∈ s.records)
    (hk : r.1 = r'.1) : r = r' := by
  have hv := s.lookup_of_mem h
  rw [hk, s.lookup_of_mem h'] at hv
  exact Prod.ext hk (Option.some.inj hv).symm

theorem mem_of_lookup (s : Store) {key value : Bytes} (h : s.lookup key = some value) :
    (key, value) ∈ s.records := by
  rw [lookup, Option.map_eq_some_iff] at h
  obtain ⟨r, hr, rfl⟩ := h
  have hk : r.1 = key := by simpa using List.find?_some hr
  exact hk ▸ List.mem_of_find?_eq_some hr

end Store

/-- An `ethdb.Database` as its readers see it. An iterator serves a list of
records and reports an error, if it has one, when it stops. -/
structure Database where
  get : Bytes → Except String Bytes
  has : Bytes → Except String Bool
  newIterator : Bytes → List Record × Option String

namespace Store

/-- The store read without failures; an absent key makes `get` fail. -/
def database (s : Store) : Database where
  get key := match s.lookup key with
    | some value => .ok value
    | none => .error "leveldb: not found"
  has key := .ok (s.lookup key).isSome
  newIterator keyPrefix := (s.records.filter (fun r => keyPrefix.isPrefixOf r.1), none)

end Store

/-- The keys whose `get` or `has` fails, each with its error, and the record
count after which an iterator stops with an error of its own. -/
structure Faults where
  get : Bytes → Option String
  has : Bytes → Option String
  iterator : Option (Nat × String)

/-- The store read through failing storage: everything else is answered truthfully. -/
def Store.faulty (s : Store) (f : Faults) : Database where
  get key := match f.get key with
    | some err => .error err
    | none => s.database.get key
  has key := match f.has key with
    | some err => .error err
    | none => s.database.has key
  newIterator keyPrefix := match f.iterator with
    | some (served, err) => ((s.database.newIterator keyPrefix).1.take served, some err)
    | none => s.database.newIterator keyPrefix

/-- The errors of the two read helpers. -/
inductive ReadError where
  | get (err : String)
  | getAndHas (getErr hasErr : String)
  | has (err : String)
  | malformedHash (number : UInt64) (length : Nat)
  | zeroHash (number : UInt64)
  deriving DecidableEq

def ReadError.text : ReadError → String
  | .get err => err
  | .getAndHas getErr hasErr => getErr ++ " (existence check also failed: " ++ hasErr ++ ")"
  | .has err => "existence check failed: " ++ err
  | .malformedHash number length =>
    "canonical hash at block " ++ toString number.toNat ++ " has length " ++ toString length ++
      ", want " ++ toString hashLength
  | .zeroHash number => "canonical hash at block " ++ toString number.toNat ++ " is zero"

def readOptional (db : Database) (key : Bytes) : Except ReadError (Option Bytes) :=
  match db.get key with
  | .ok encoded =>
    if 0 < encoded.length then .ok (some encoded)
    else match db.has key with
      | .error hasErr => .error (.has hasErr)
      | .ok false => .ok none
      | .ok true => .ok (some encoded)
  | .error getErr =>
    match db.has key with
    | .error hasErr => .error (.getAndHas getErr hasErr)
    | .ok false => .ok none
    | .ok true => .error (.get getErr)

def readCanonicalHash (db : Database) (number : UInt64) : Except ReadError (Option Hash) :=
  match readOptional db (canonicalHashKey number) with
  | .error err => .error err
  | .ok none => .ok none
  | .ok (some encoded) =>
    if encoded.length ≠ hashLength then .error (.malformedHash number encoded.length)
    else
      let hash := FixedBytes.ofBytes 32 encoded
      if hash = FixedBytes.zero 32 then .error (.zeroHash number)
      else .ok (some hash)

/-- The canonical hash as the node's own accessor reads it: failures, absence and
wrong lengths are not reported, and an unusable value reads as some hash. -/
def rawdbReadCanonicalHash (db : Database) (number : UInt64) : Hash :=
  match db.get (canonicalHashKey number) with
  | .ok data => FixedBytes.ofBytes 32 data
  | .error _ => FixedBytes.zero 32

/-- Truthful storage is read exactly, empty values included. -/
theorem readOptional_database (s : Store) (key : Bytes) :
    readOptional s.database key = .ok (s.lookup key) := by
  cases hs : s.lookup key with
  | none => simp [readOptional, Store.database, hs]
  | some value =>
    by_cases hv : 0 < value.length
    · simp [readOptional, Store.database, hs, hv]
    · simp [readOptional, Store.database, hs, hv]

/-- Under faults a read is an error or the truth. -/
theorem readOptional_faulty (s : Store) (f : Faults) (key : Bytes) :
    Rejects (readOptional (s.faulty f)) key ∨
      readOptional (s.faulty f) key = readOptional s.database key := by
  rw [readOptional_database]
  cases hg : f.get key with
  | some getErr =>
    cases hh : f.has key with
    | some hasErr =>
      exact Or.inl ⟨.getAndHas getErr hasErr, by simp [readOptional, Store.faulty, hg, hh]⟩
    | none =>
      cases hs : s.lookup key with
      | some value =>
        exact Or.inl ⟨.get getErr, by
          simp [readOptional, Store.faulty, Store.database, hg, hh, hs]⟩
      | none =>
        exact Or.inr (by simp [readOptional, Store.faulty, Store.database, hg, hh, hs])
  | none =>
    cases hs : s.lookup key with
    | some value =>
      by_cases hv : 0 < value.length
      · exact Or.inr (by simp [readOptional, Store.faulty, Store.database, hg, hs, hv])
      · cases hh : f.has key with
        | some hasErr =>
          exact Or.inl ⟨.has hasErr, by
            simp [readOptional, Store.faulty, Store.database, hg, hs, hh, hv]⟩
        | none =>
          exact Or.inr (by simp [readOptional, Store.faulty, Store.database, hg, hs, hh, hv])
    | none =>
      cases hh : f.has key with
      | some hasErr =>
        exact Or.inl ⟨.getAndHas "leveldb: not found" hasErr, by
          simp [readOptional, Store.faulty, Store.database, hg, hs, hh]⟩
      | none =>
        exact Or.inr (by simp [readOptional, Store.faulty, Store.database, hg, hs, hh])

theorem readCanonicalHash_faulty (s : Store) (f : Faults) (number : UInt64) :
    Rejects (readCanonicalHash (s.faulty f)) number ∨
      readCanonicalHash (s.faulty f) number = readCanonicalHash s.database number := by
  rcases readOptional_faulty s f (canonicalHashKey number) with ⟨e, he⟩ | heq
  · exact Or.inl ⟨e, by simp [readCanonicalHash, he]⟩
  · exact Or.inr (by simp [readCanonicalHash, heq])

/-- A stored canonical hash: 32 bytes, not all zero. -/
def Store.CanonicalAt (s : Store) (number : UInt64) (hash : Hash) : Prop :=
  s.lookup (canonicalHashKey number) = some hash.data ∧ hash ≠ FixedBytes.zero 32

theorem readCanonicalHash_some_iff (s : Store) (number : UInt64) (hash : Hash) :
    readCanonicalHash s.database number = .ok (some hash) ↔ s.CanonicalAt number hash := by
  rw [readCanonicalHash, readOptional_database, Store.CanonicalAt]
  cases hs : s.lookup (canonicalHashKey number) with
  | none => simp
  | some encoded =>
    by_cases hl : encoded.length = 32
    · have hb : FixedBytes.ofBytes 32 encoded = ⟨encoded, hl⟩ := FixedBytes.ofBytes_of_length hl
      by_cases hz : (⟨encoded, hl⟩ : Hash) = FixedBytes.zero 32
      · simp only [hashLength, hl, hb, hz, ne_eq, not_true_eq_false, if_false, if_true,
          reduceCtorEq, false_iff]
        rintro ⟨he, hne⟩
        exact hne ((FixedBytes.ext (Option.some.inj he)).symm.trans hz)
      · simp only [hashLength, hl, hb, hz, ne_eq, not_true_eq_false, if_false, Except.ok.injEq,
          Option.some.injEq]
        constructor
        · rintro rfl
          exact ⟨rfl, hz⟩
        · rintro ⟨he, -⟩
          exact FixedBytes.ext he
    · have hn : encoded ≠ hash.data := by
        rintro rfl
        exact hl hash.size
      simp [hashLength, hl, hn]

/-- Where a usable hash is stored the two readings agree. -/
theorem Store.CanonicalAt.rawdb {s : Store} {number : UInt64} {hash : Hash}
    (h : s.CanonicalAt number hash) : rawdbReadCanonicalHash s.database number = hash := by
  simp only [rawdbReadCanonicalHash, Store.database, h.1, FixedBytes.ofBytes_data]

theorem Store.CanonicalAt.unique {s : Store} {number : UInt64} {a b : Hash}
    (ha : s.CanonicalAt number a) (hb : s.CanonicalAt number b) : a = b :=
  FixedBytes.ext (Option.some.inj (ha.1.symm.trans hb.1))

end ChainDatabase
