import SupplyAudit.StateTrie
import SupplyAudit.WoneEvents

/-!
# The database preflight

`db-preflight` compares a database with a checkpoint manifest: canonical hashes,
stored headers and bodies, and state tries that can be opened. A header is
authenticated by its hash but never decoded, so the root it records is not compared
with the root that the manifest lists beside it.
-/

namespace DatabasePreflight

open ByteWords NumeralText ReceiptKeys ChainDatabase FallibleScan StateTrie

/-! ## The command -/

structure Checkpoint where
  name : String
  block : UInt64
  hash : String
  stateRoot : String := ""
  requireBody : Bool := false

structure ShardManifest where
  shardID : UInt32
  requireValidatorList : Bool := false
  rewardAccumulatorAtBlocks : List UInt64 := []
  checkpoints : List Checkpoint := []

structure Manifest where
  schemaVersion : Int
  shards : List ShardManifest

structure CheckpointResult where
  name : String
  block : UInt64
  hash : String
  headerFound : Bool
  bodyFound : Bool := false
  stateRoot : String := ""
  stateTrieOpen : Bool := false

structure Result where
  schemaVersion : Int
  status : String
  shardID : UInt32
  validatorListFound : Bool
  rewardAccumulatorsFound : List UInt64
  checkpoints : List CheckpointResult

structure Flags where
  db : String
  checkpoints : String
  shard : UInt64

/-- The library functions that the command calls. -/
structure Libraries where
  keccak256Hash : Bytes → Hash
  newStateTrie : Database → Hash → Except String Trie

variable (lib : Libraries) (db : Database)

def trimPrefix (text : String) : List Char :=
  match text.toList with
  | '0' :: 'x' :: raw => raw
  | raw => raw

def parseHash (text label : String) : Except String Hash :=
  match WoneEvents.decodeHex (trimPrefix text) with
  | none => .error ("invalid " ++ label ++ " " ++ WoneEvents.quoted text)
  | some decoded =>
    if decoded.length ≠ hashLength then
      .error ("invalid " ++ label ++ " " ++ WoneEvents.quoted text)
    else .ok (.ofBytes 32 decoded)

def storedHeaderKey (number : UInt64) (hash : Hash) : Bytes :=
  ascii ['h'] ++ (ofNat 8 number.toNat ++ hash.data)

def storedBodyKey (number : UInt64) (hash : Hash) : Bytes :=
  ascii ['b'] ++ (ofNat 8 number.toNat ++ hash.data)

def rewardAccumulatorKey (number : UInt64) : Bytes :=
  ascii ['b', 'l', 'k', '-', 'r', 'w', 'd', '-'] ++ ofNat 8 number.toNat

def loadManifest (all : Manifest) (shardID : UInt32) : Except String ShardManifest :=
  if all.schemaVersion ≠ 1 then
    .error ("unsupported checkpoint manifest schema " ++ toString all.schemaVersion)
  else match all.shards.find? (fun shard => shard.shardID == shardID) with
    | some shard => .ok shard
    | none => .error ("checkpoint manifest has no shard " ++ toString shardID.toNat)

/-- A record that must be there and hold something. -/
def requireRecord (key : Bytes) (missing : String) : Except String Bytes :=
  match db.get key with
  | .error _ => .error missing
  | .ok encoded => if encoded.length = 0 then .error missing else .ok encoded

def checkValidatorList (shard : ShardManifest) : Except String Bool :=
  if shard.requireValidatorList then do
    let _ ← requireRecord db validatorListKey "validator-list is missing"
    .ok true
  else .ok false

def checkRewardAccumulator (number : UInt64) : Except String UInt64 := do
  let _ ← requireRecord db (rewardAccumulatorKey number)
    ("reward accumulator is missing at block " ++ toString number.toNat)
  .ok number

def checkCanonicalHash (block : UInt64) (wantHash : Hash) : Except String Unit :=
  match db.get (canonicalHashKey block) with
  | .error err => .error ("read canonical hash at block " ++ toString block.toNat ++ ": " ++ err)
  | .ok gotHashBytes =>
    let gotHash : Hash := .ofBytes 32 gotHashBytes
    if gotHashBytes.length ≠ hashLength ∨ gotHash ≠ wantHash then
      .error ("canonical hash mismatch at block " ++ toString block.toNat ++ ": got " ++
        prefixedHex gotHash.data ++ " want " ++ prefixedHex wantHash.data)
    else .ok ()

/-- The stored header is compared with its own hash and with nothing else. -/
def checkHeader (block : UInt64) (wantHash : Hash) : Except String Unit := do
  let header ← requireRecord db (storedHeaderKey block wantHash)
    ("canonical header is missing at block " ++ toString block.toNat)
  if lib.keccak256Hash header ≠ wantHash then
    .error ("stored header hash mismatch at block " ++ toString block.toNat)
  else .ok ()

def checkBody (expected : Checkpoint) (wantHash : Hash) (checked : CheckpointResult) :
    Except String CheckpointResult :=
  if expected.requireBody then do
    let _ ← requireRecord db (storedBodyKey expected.block wantHash)
      ("canonical body is missing at block " ++ toString expected.block.toNat)
    .ok { checked with bodyFound := true }
  else .ok checked

def checkStateRoot (expected : Checkpoint) (checked : CheckpointResult) :
    Except String CheckpointResult :=
  if expected.stateRoot ≠ "" then do
    let root ← parseHash expected.stateRoot "state root"
    let stateTrie ← (lib.newStateTrie db root).mapError fun err =>
      "open state trie " ++ prefixedHex root.data ++ " at checkpoint " ++ expected.name ++ ": " ++ err
    if stateTrie.hash ≠ root then
      .error ("state trie root mismatch at checkpoint " ++ expected.name)
    else .ok { checked with stateRoot := prefixedHex root.data, stateTrieOpen := true }
  else .ok checked

/-- The body of the loop over the checkpoints. -/
def checkCheckpoint (expected : Checkpoint) : Except String CheckpointResult := do
  let wantHash ← parseHash expected.hash "block hash"
  checkCanonicalHash db expected.block wantHash
  checkHeader lib db expected.block wantHash
  let checked ← checkBody db expected wantHash
    { name := expected.name
      block := expected.block
      hash := prefixedHex wantHash.data
      headerFound := true }
  checkStateRoot lib db expected checked

def main (flags : Flags) (all : Manifest) (disk : Except String Database) : Except String Result :=
  if flags.db = "" ∨ flags.checkpoints = "" then .error "usage"
  else if flags.shard.toNat ≥ 2 ^ 32 then .error "shard ID is too large"
  else do
    let shard ← loadManifest all (UInt32.ofNat flags.shard.toNat)
    let db ← disk.mapError fun err =>
      "open source database read-only (stop the node first): " ++ err
    let validatorListFound ← checkValidatorList db shard
    let rewardAccumulatorsFound ← shard.rewardAccumulatorAtBlocks.mapM (checkRewardAccumulator db)
    let checkpoints ← shard.checkpoints.mapM (checkCheckpoint lib db)
    .ok
      { schemaVersion := 1
        status := "passed"
        shardID := shard.shardID
        validatorListFound := validatorListFound
        rewardAccumulatorsFound := rewardAccumulatorsFound
        checkpoints := checkpoints }

/-! ## What a passed preflight has checked -/

theorem requireRecord_ok {db : Database} {key : Bytes} {missing : String} {encoded : Bytes}
    (h : requireRecord db key missing = .ok encoded) : db.get key = .ok encoded := by
  rw [requireRecord] at h
  cases hget : db.get key with
  | error err => simp only [hget, reduceCtorEq] at h
  | ok value =>
    simp only [hget] at h
    exact (guard_eq_ok.mp h).2

theorem checkCanonicalHash_ok {db : Database} {block : UInt64} {wantHash : Hash}
    (h : checkCanonicalHash db block wantHash = .ok ()) :
    db.get (canonicalHashKey block) = .ok wantHash.data := by
  rw [checkCanonicalHash] at h
  cases hget : db.get (canonicalHashKey block) with
  | error err => simp only [hget, reduceCtorEq] at h
  | ok gotHashBytes =>
    simp only [hget, guard_eq_ok, not_or, not_not, ne_eq] at h
    obtain ⟨⟨hlength, rfl⟩, -⟩ := h
    have hwidth : gotHashBytes.length = 32 := hlength
    rw [FixedBytes.ofBytes_of_length hwidth]

theorem checkHeader_ok {lib : Libraries} {db : Database} {block : UInt64} {wantHash : Hash}
    (h : checkHeader lib db block wantHash = .ok ()) :
    ∃ header, db.get (storedHeaderKey block wantHash) = .ok header ∧
      lib.keccak256Hash header = wantHash := by
  rw [checkHeader, bind_eq_ok] at h
  obtain ⟨header, hheader, h⟩ := h
  exact ⟨header, requireRecord_ok hheader, not_not.mp (guard_eq_ok.mp h).1⟩

theorem checkStateRoot_ok {lib : Libraries} {db : Database} {expected : Checkpoint}
    {checked result : CheckpointResult} (h : checkStateRoot lib db expected checked = .ok result)
    (hlisted : expected.stateRoot ≠ "") :
    ∃ root stateTrie, parseHash expected.stateRoot "state root" = .ok root ∧
      lib.newStateTrie db root = .ok stateTrie ∧ stateTrie.hash = root := by
  rw [checkStateRoot, if_pos hlisted, bind_eq_ok] at h
  obtain ⟨root, hroot, h⟩ := h
  rw [bind_eq_ok] at h
  obtain ⟨stateTrie, hopen, h⟩ := h
  exact ⟨root, stateTrie, hroot, mapError_eq_ok.mp hopen, not_not.mp (guard_eq_ok.mp h).1⟩

/-- The block of a checkpoint is canonical and its header has the listed hash. -/
def Authenticated (c : Checkpoint) (hash : Hash) (header : Bytes) : Prop :=
  parseHash c.hash "block hash" = .ok hash ∧
    db.get (canonicalHashKey c.block) = .ok hash.data ∧
    db.get (storedHeaderKey c.block hash) = .ok header ∧ lib.keccak256Hash header = hash

def OpensRoot (root : Hash) : Prop :=
  ∃ stateTrie, lib.newStateTrie db root = .ok stateTrie ∧ stateTrie.hash = root

theorem checkCheckpoint_ok {c : Checkpoint} {result : CheckpointResult}
    (h : checkCheckpoint lib db c = .ok result) :
    (∃ hash header, Authenticated lib db c hash header) ∧
      (c.stateRoot ≠ "" → ∃ root, parseHash c.stateRoot "state root" = .ok root ∧
        OpensRoot lib db root) := by
  rw [checkCheckpoint, bind_eq_ok] at h
  obtain ⟨hash, hhash, h⟩ := h
  rw [bind_eq_ok] at h
  obtain ⟨⟨⟩, hcanonical, h⟩ := h
  rw [bind_eq_ok] at h
  obtain ⟨⟨⟩, hheader, h⟩ := h
  rw [bind_eq_ok] at h
  obtain ⟨checked, hbody, h⟩ := h
  obtain ⟨header, hstored, hkeccak⟩ := checkHeader_ok hheader
  refine ⟨⟨hash, header, hhash, checkCanonicalHash_ok hcanonical, hstored, hkeccak⟩, ?_⟩
  intro hlisted
  obtain ⟨root, stateTrie, hroot, hopen, htrie⟩ := checkStateRoot_ok h hlisted
  exact ⟨root, hroot, stateTrie, hopen, htrie⟩

/-- The checkpoints of the shard that the manifest lists first under its number. -/
def shardCheckpoints (all : Manifest) (shardID : UInt32) : List Checkpoint :=
  match all.shards.find? (fun shard => shard.shardID == shardID) with
  | some shard => shard.checkpoints
  | none => []

theorem loadManifest_ok {all : Manifest} {shardID : UInt32} {shard : ShardManifest}
    (h : loadManifest all shardID = .ok shard) :
    shardCheckpoints all shardID = shard.checkpoints := by
  rw [loadManifest, guard_eq_ok] at h
  obtain ⟨-, h⟩ := h
  rw [shardCheckpoints]
  cases hfound : all.shards.find? (fun shard => shard.shardID == shardID) with
  | none => rw [hfound] at h; cases h
  | some found =>
    rw [hfound] at h
    cases h
    rfl

theorem main_ok {lib : Libraries} {flags : Flags} {all : Manifest} {db : Database} {report : Result}
    (h : main lib flags all (.ok db) = .ok report) :
    ∀ c ∈ shardCheckpoints all (UInt32.ofNat flags.shard.toNat),
      ∃ result, checkCheckpoint lib db c = .ok result := by
  rw [main, guard_eq_ok, guard_eq_ok] at h
  obtain ⟨-, -, h⟩ := h
  rw [bind_eq_ok] at h
  obtain ⟨shard, hshard, h⟩ := h
  rw [bind_eq_ok] at h
  obtain ⟨opened, hopened, h⟩ := h
  cases hopened
  rw [bind_eq_ok] at h
  obtain ⟨validatorListFound, hvalidators, h⟩ := h
  rw [bind_eq_ok] at h
  obtain ⟨rewardAccumulatorsFound, hrewards, h⟩ := h
  rw [bind_eq_ok] at h
  obtain ⟨checkpoints, hcheckpoints, h⟩ := h
  intro c hc
  rw [loadManifest_ok hshard] at hc
  obtain ⟨result, -, hresult⟩ := mapM_ok_left hcheckpoints hc
  exact ⟨result, hresult⟩

/-! ## The root that a header records -/

variable (headerRoot : Bytes → Option Hash)

/-- The block is the listed one, and the listed root is the one in its header. -/
def Bound (c : Checkpoint) : Prop :=
  ∃ hash header root, Authenticated lib db c hash header ∧ headerRoot header = some root ∧
    parseHash c.stateRoot "state root" = .ok root ∧ OpensRoot lib db root

/-- The manifest lists the root that the header stored for its block records. -/
def ListsHeaderRoot (c : Checkpoint) : Prop :=
  ∃ hash header root, parseHash c.hash "block hash" = .ok hash ∧
    db.get (storedHeaderKey c.block hash) = .ok header ∧ headerRoot header = some root ∧
    parseHash c.stateRoot "state root" = .ok root

theorem stateRoot_listed {c : Checkpoint} {label : String} {root : Hash}
    (h : parseHash c.stateRoot label = .ok root) : c.stateRoot ≠ "" := by
  intro hempty
  rw [hempty, parseHash] at h
  cases h

theorem bound_iff {c : Checkpoint} {result : CheckpointResult}
    (h : checkCheckpoint lib db c = .ok result) :
    Bound lib db headerRoot c ↔ ListsHeaderRoot db headerRoot c := by
  obtain ⟨⟨hash, header, hauthentic⟩, hopens⟩ := checkCheckpoint_ok lib db h
  constructor
  · rintro ⟨hash', header', root, ⟨hparse, -, hstored, -⟩, hrecorded, hlisted, -⟩
    exact ⟨hash', header', root, hparse, hstored, hrecorded, hlisted⟩
  · rintro ⟨hash', header', root, hparse, hstored, hrecorded, hlisted⟩
    -- the stored header is the authenticated one, since the listed hash names one record
    have hhash : hash' = hash := Except.ok.inj (hparse.symm.trans hauthentic.1)
    subst hhash
    have hheader : header' = header := Except.ok.inj (hstored.symm.trans hauthentic.2.2.1)
    subst hheader
    obtain ⟨root', hroot', hopen⟩ := hopens (stateRoot_listed hlisted)
    have hroot : root' = root := Except.ok.inj (hroot'.symm.trans hlisted)
    subst hroot
    exact ⟨hash', header', root', hauthentic, hrecorded, hlisted, hopen⟩

/-- A passed preflight binds the listed roots to their blocks exactly when every
checkpoint of the shard already lists the root recorded in its stored header. -/
theorem preflight_binds_iff (lib : Libraries) (headerRoot : Bytes → Option Hash) (flags : Flags)
    (all : Manifest) (db : Database) (report : Result)
    (hpassed : main lib flags all (.ok db) = .ok report) :
    (∀ c ∈ shardCheckpoints all (UInt32.ofNat flags.shard.toNat), Bound lib db headerRoot c) ↔
      ∀ c ∈ shardCheckpoints all (UInt32.ofNat flags.shard.toNat),
        ListsHeaderRoot db headerRoot c := by
  refine forall₂_congr fun c hc => ?_
  obtain ⟨result, hresult⟩ := main_ok hpassed c hc
  exact bound_iff lib db headerRoot hresult

/-! ## Two blocks -/

/-- The root of a state without accounts. -/
def emptyRoot : Hash where
  data := [0x56, 0xe8, 0x1f, 0x17, 0x1b, 0xcc, 0x55, 0xa6, 0xff, 0x83, 0x45, 0xe6, 0x92, 0xc0, 0xf8,
    0x6e, 0x5b, 0x48, 0xe0, 0x1b, 0x99, 0x6c, 0xad, 0xc0, 0x01, 0x62, 0x2f, 0xb5, 0xe3, 0x63, 0xb4,
    0x21]
  size := rfl

def accountKey : Hash where
  data := [0xe9, 0x65, 0x4a, 0x4d, 0x19, 0x43, 0x18, 0xe8, 0xef, 0x7e, 0x64, 0xc6, 0xcb, 0xc3, 0x1c,
    0x34, 0x1c, 0x65, 0x0a, 0x6a, 0x03, 0x9e, 0xa4, 0x48, 0xfa, 0xf8, 0x10, 0x1a, 0xf4, 0x03, 0xda,
    0x4d]
  size := rfl

/-- The root of a state with one account, of balance 1. -/
def accountRoot : Hash where
  data := [0x71, 0xb6, 0x03, 0x86, 0x14, 0xc4, 0x85, 0x38, 0xad, 0xa8, 0x79, 0xc9, 0x1b, 0xf2, 0x36,
    0xd1, 0x5f, 0x9a, 0x31, 0xff, 0x70, 0xb9, 0x8a, 0x6d, 0x03, 0x7c, 0x87, 0x27, 0xad, 0x40, 0x7a,
    0x92]
  size := rfl

def accountValue : Bytes :=
  [0xf8, 0x44, 0x80, 0x01, 0xa0] ++ (emptyRoot.data ++ (0xa0 :: emptyCodeHash.data))

/-- A header of two fields: the hash of its parent and its state root. -/
def sampleHeader (parent root : Hash) : Bytes :=
  [0xf8, 0x42, 0xa0] ++ (parent.data ++ (0xa0 :: root.data))

def sampleHeaderRoot (header : Bytes) : Option Hash :=
  if header.length = 68 then some (.ofBytes 32 (header.drop 36)) else none

def firstHash : Hash where
  data := [0xa8, 0x8f, 0x03, 0x04, 0x10, 0x9b, 0x09, 0x82, 0xbe, 0x0c, 0x37, 0x4a, 0x7d, 0x74, 0xda,
    0xcf, 0xde, 0x38, 0x5a, 0x79, 0x6b, 0xfb, 0x6d, 0xe9, 0x2f, 0xe2, 0xb5, 0x49, 0x11, 0xdf, 0x36,
    0x17]
  size := rfl

def secondHash : Hash where
  data := [0xef, 0xd6, 0xae, 0xa1, 0x9b, 0x0e, 0xd9, 0xf3, 0x74, 0x55, 0x47, 0x67, 0x52, 0x5e, 0x6b,
    0x7f, 0x2b, 0x3b, 0xab, 0x9b, 0x5d, 0xd0, 0x0d, 0xef, 0x93, 0xdb, 0xc6, 0x2d, 0xdf, 0x04, 0x4a,
    0x76]
  size := rfl

def firstHeader : Bytes := sampleHeader (.zero 32) emptyRoot

def secondHeader : Bytes := sampleHeader firstHash accountRoot

def sampleLibraries : Libraries where
  keccak256Hash bs :=
    ([(firstHeader, firstHash), (secondHeader, secondHash)].lookup bs).getD (.zero 32)
  newStateTrie _ root :=
    if root = emptyRoot then .ok (.full root [] (by decide))
    else if root = accountRoot then .ok (.full root [(accountKey, accountValue)] (by simp))
    else .error "missing trie node"

def sampleDatabase : Database :=
  (Store.empty.write
    [(canonicalHashKey 1, firstHash.data), (storedHeaderKey 1 firstHash, firstHeader),
      (canonicalHashKey 2, secondHash.data), (storedHeaderKey 2 secondHash, secondHeader)]).database

def sampleFlags : Flags where
  db := "harmony_db_1"
  checkpoints := "checkpoints.json"
  shard := 1

def sampleCheckpoint (root : Hash) : Checkpoint where
  name := "original-snapshot"
  block := 1
  hash := prefixedHex firstHash.data
  stateRoot := prefixedHex root.data

/-- A manifest that lists block 1 of shard 1 with the given root. -/
def sampleManifest (root : Hash) : Manifest where
  schemaVersion := 1
  shards := [{ shardID := 1, checkpoints := [sampleCheckpoint root] }]

def sampleReport (root : Hash) : Result where
  schemaVersion := 1
  status := "passed"
  shardID := 1
  validatorListFound := false
  rewardAccumulatorsFound := []
  checkpoints :=
    [{ name := "original-snapshot"
       block := 1
       hash := prefixedHex firstHash.data
       headerFound := true
       stateRoot := prefixedHex root.data
       stateTrieOpen := true }]

theorem preflight_binds_sample :
    (∀ c ∈ shardCheckpoints (sampleManifest emptyRoot) 1,
        Bound sampleLibraries sampleDatabase sampleHeaderRoot c) ↔
      ∀ c ∈ shardCheckpoints (sampleManifest emptyRoot) 1,
        ListsHeaderRoot sampleDatabase sampleHeaderRoot c :=
  preflight_binds_iff sampleLibraries sampleHeaderRoot sampleFlags (sampleManifest emptyRoot)
    sampleDatabase (sampleReport emptyRoot) (by rfl)

/-- The root of the second block passes as the one of the first. -/
theorem foreign_root_passes :
    main sampleLibraries sampleFlags (sampleManifest accountRoot) (.ok sampleDatabase) =
        .ok (sampleReport accountRoot) ∧
      sampleHeaderRoot secondHeader = some accountRoot ∧
      ¬ Bound sampleLibraries sampleDatabase sampleHeaderRoot (sampleCheckpoint accountRoot) := by
  refine ⟨by rfl, by decide, ?_⟩
  rintro ⟨hash, header, root, ⟨hparse, -, hstored, -⟩, hrecorded, hlisted, -⟩
  have hhash : hash = firstHash := Except.ok.inj (hparse.symm.trans (by rfl))
  subst hhash
  have hheader : header = firstHeader := Except.ok.inj (hstored.symm.trans (by rfl))
  subst hheader
  have hroot : root = accountRoot := Except.ok.inj (hlisted.symm.trans (by rfl))
  subst hroot
  have hempty : sampleHeaderRoot firstHeader = some emptyRoot := by decide
  rw [hempty, Option.some.injEq] at hrecorded
  exact absurd hrecorded (by decide)

end DatabasePreflight
