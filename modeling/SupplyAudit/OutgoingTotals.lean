import SupplyAudit.OutgoingAgreement
import SupplyAudit.TablePublication

/-!
# What the summary of the outgoing scan accounts for

The scan keeps its rows, its table of destinations and its counters in step.
The summary is assembled from the table at four shard numbers, so it accounts
for every row as long as no canonical group goes to a fifth.
-/

namespace OutgoingTotals

open ByteWords NumeralText ReceiptKeys ChainDatabase FallibleScan KeyedTable TablePublication
  OutgoingScan

/-- The records that the iterator serves. -/
def served (db : Database) : List Record := (db.newIterator receiptPrefix).1

/-- The four classes of a well-formed key. -/
inductive GroupClass where
  | canonical
  | noncanonical
  | missingHash
  | empty
  deriving DecidableEq

/-- The class of a well-formed key, by the stored canonical hash and the value. -/
def groupClass (db : Database) (record : Record) : Option GroupClass :=
  (receiptKeyParts record.1).map fun (_, number, hash) =>
    if rawdbReadCanonicalHash db number = FixedBytes.zero 32 then .missingHash
    else if rawdbReadCanonicalHash db number ≠ hash then .noncanonical
    else if record.2 = [0xc0] then .empty
    else .canonical

/-- The destination of a canonical group. -/
def canonicalDestination (db : Database) (record : Record) : Option UInt32 :=
  match groupClass db record with
  | some .canonical => (receiptKeyParts record.1).map fun (destination, _, _) => destination
  | _ => none

def counter (summary : Summary) : GroupClass → Nat
  | .canonical => summary.canonicalGroups
  | .noncanonical => summary.noncanonicalGroups
  | .missingHash => summary.missingCanonicalHashGroup
  | .empty => summary.emptyGroups

/-- The summary accounts for every row and every well-formed key. -/
structure Accounts (db : Database) (rows : List Row) (summary : Summary) : Prop where
  receipts : (summary.destinations.map DestinationSummary.receiptCount).sum = rows.length
  amounts : ∃ amounts,
    summary.destinations.mapM (fun entry => readInt entry.amountAtto) = some amounts ∧
      amounts.sum = (rows.map Row.amountAtto).sum
  one_entry : (summary.destinations.map DestinationSummary.destinationShard).Nodup
  entries : ∀ destination,
    destination ∈ summary.destinations.map DestinationSummary.destinationShard ↔
      ∃ record ∈ served db, canonicalDestination db record = some destination
  groups : (summary.destinations.map DestinationSummary.receiptGroups).sum =
    summary.canonicalGroups
  counters : ∀ c,
    counter summary c = (served db).countP fun record => groupClass db record = some c
  accepted : summary.canonicalGroups + summary.noncanonicalGroups +
      summary.missingCanonicalHashGroup + summary.emptyGroups =
    (served db).countP fun record => (receiptKeyParts record.1).isSome

/-! ## One record -/

def classOf : Outcome → Option GroupClass
  | .skipped => none
  | .missingHash => some .missingHash
  | .noncanonical => some .noncanonical
  | .empty => some .empty
  | .canonical _ _ => some .canonical

def destinationOf : Outcome → Option UInt32
  | .canonical destination _ => some destination
  | _ => none

variable {lib : OutgoingCodec} {sourceShard : UInt32} {db : Database}

/-- A verdict agrees with the class of its key and with the destination of its group. -/
theorem verdict_class {record : Record} {o : Outcome}
    (h : verdict lib sourceShard db record = .ok o) :
    groupClass db record = classOf o ∧ canonicalDestination db record = destinationOf o := by
  rw [verdict] at h
  cases hparts : receiptKeyParts record.1 with
  | none =>
    simp only [hparts] at h
    cases h
    simp [canonicalDestination, groupClass, hparts, classOf, destinationOf]
  | some parts =>
    obtain ⟨destination, number, hash⟩ := parts
    simp only [hparts] at h
    simp only [canonicalDestination, groupClass, hparts, Option.map_some]
    by_cases hmissing : rawdbReadCanonicalHash db number = FixedBytes.zero 32
    · simp only [if_pos hmissing] at h ⊢
      cases h
      exact ⟨rfl, rfl⟩
    simp only [if_neg hmissing] at h ⊢
    by_cases hne : rawdbReadCanonicalHash db number ≠ hash
    · simp only [if_pos hne] at h ⊢
      cases h
      exact ⟨rfl, rfl⟩
    simp only [if_neg hne] at h ⊢
    by_cases hempty : record.2 = [0xc0]
    · simp only [if_pos hempty] at h ⊢
      cases h
      exact ⟨rfl, rfl⟩
    simp only [if_neg hempty] at h ⊢
    cases hdecode : lib.decodeOutgoing record.2 with
    | error err =>
      simp only [hdecode] at h
      cases h
    | ok receipts =>
      simp only [hdecode] at h
      cases hrows : groupRows sourceShard destination number hash receipts with
      | error err =>
        rw [hrows] at h
        cases h
      | ok rows =>
        rw [hrows] at h
        cases h
        exact ⟨rfl, rfl⟩

/-! ## The loop's variables -/

/-- The table of destinations is in step with the rows and the canonical counter. -/
structure Balanced (state : ScanState) : Prop where
  keys : (state.destinations.map Prod.fst).Nodup
  groups : total MutableDestination.groups state.destinations = state.canonicalGroups
  receipts : total MutableDestination.receipts state.destinations = state.rows.length
  amounts : total MutableDestination.amount state.destinations =
    (state.rows.map Row.amountAtto).sum

theorem Balanced.initial : Balanced {} := ⟨List.nodup_nil, rfl, rfl, rfl⟩

/-- A group adds its rows to one entry, so to the total of the table. -/
theorem total_tally {M : Type*} [AddCancelCommMonoid M] (share : MutableDestination → M)
    {state : ScanState} (hkeys : (state.destinations.map Prod.fst).Nodup)
    (destination : UInt32) (rows : List Row) {amount : M} (hfresh : share {} = 0)
    (hadd : ∀ totals, share (addGroup totals rows) = share totals + amount) :
    total share (OutgoingScan.tally state (.canonical destination rows)).destinations =
      total share state.destinations + amount :=
  total_update_add hkeys destination hfresh hadd

theorem Balanced.tally {state : ScanState} (h : Balanced state) (o : Outcome) :
    Balanced (OutgoingScan.tally state o) := by
  cases o with
  | skipped | missingHash | noncanonical | empty => exact ⟨h.keys, h.groups, h.receipts, h.amounts⟩
  | canonical destination rows =>
    constructor
    · exact nodup_update h.keys destination {} fun totals => addGroup totals rows
    · have hstep := total_tally MutableDestination.groups h.keys destination rows rfl fun _ => by rfl
      exact hstep.trans (congrArg (· + 1) h.groups)
    · have hstep := total_tally MutableDestination.receipts h.keys destination rows rfl fun _ => by rfl
      rw [hstep, h.receipts]
      exact List.length_append.symm
    · have hstep := total_tally MutableDestination.amount h.keys destination rows rfl fun _ => by rfl
      rw [hstep, h.amounts, ← List.sum_append, ← List.map_append]
      rfl

theorem balanced_tallied (os : List Outcome) : Balanced (os.foldl OutgoingScan.tally {}) := by
  have hrun : ∀ state, Balanced state → Balanced (os.foldl OutgoingScan.tally state) := by
    induction os with
    | nil => exact fun _ h => h
    | cons o os ih => exact fun state h => ih (OutgoingScan.tally state o) (h.tally o)
  exact hrun {} .initial

/-- The keys of the table are the destinations of canonical groups. -/
theorem mem_keys_tally (state : ScanState) (o : Outcome) (destination : UInt32) :
    destination ∈ (OutgoingScan.tally state o).destinations.map Prod.fst ↔
      destination ∈ state.destinations.map Prod.fst ∨ destinationOf o = some destination := by
  cases o with
  | skipped | missingHash | noncanonical | empty => simp [OutgoingScan.tally, destinationOf]
  | canonical d rows =>
    have hkeys := mem_keys_set state.destinations d
      (addGroup ((state.destinations.lookup d).getD {}) rows) destination
    have hsame : destinationOf (.canonical d rows) = some destination ↔ destination = d := by
      rw [destinationOf, Option.some.injEq]
      exact eq_comm
    rw [hsame, or_comm]
    exact hkeys

theorem mem_keys_tallied (os : List Outcome) (destination : UInt32) :
    destination ∈ (os.foldl OutgoingScan.tally {}).destinations.map Prod.fst ↔
      ∃ o ∈ os, destinationOf o = some destination := by
  have hrun : ∀ state : ScanState,
      destination ∈ (os.foldl OutgoingScan.tally state).destinations.map Prod.fst ↔
        destination ∈ state.destinations.map Prod.fst ∨
          ∃ o ∈ os, destinationOf o = some destination := by
    induction os with
    | nil => simp
    | cons o os ih =>
      intro state
      rw [List.foldl_cons, ih, mem_keys_tally, or_assoc, List.exists_mem_cons_iff]
  simpa using hrun {}

/-- The loop's variable behind a counter. -/
def counterIn (state : ScanState) : GroupClass → Nat
  | .canonical => state.canonicalGroups
  | .noncanonical => state.noncanonicalGroups
  | .missingHash => state.missingHashGroups
  | .empty => state.emptyGroups

theorem counterIn_tally (c : GroupClass) (state : ScanState) (o : Outcome) :
    counterIn (OutgoingScan.tally state o) c =
      counterIn state c + if decide (classOf o = some c) then 1 else 0 := by
  cases o <;> cases c <;> rfl

theorem counterIn_tallied (c : GroupClass) (os : List Outcome) :
    counterIn (os.foldl OutgoingScan.tally {}) c =
      os.countP fun o => classOf o = some c := by
  have hfold := foldl_total (counterIn · c) (counterIn_tally c) os {}
  have hstart : counterIn {} c = 0 := by cases c <;> rfl
  rw [sum_map_one_eq_countP, hstart, Nat.zero_add] at hfold
  exact hfold

/-- A well-formed key has one of the four classes. -/
theorem sum_classes (cs : List (Option GroupClass)) :
    cs.countP (· = some .canonical) + cs.countP (· = some .noncanonical) +
        cs.countP (· = some .missingHash) + cs.countP (· = some .empty) =
      cs.countP Option.isSome := by
  induction cs with
  | nil => rfl
  | cons c cs ih =>
    simp only [List.countP_cons]
    rcases c with _ | _ | _ | _ | _ <;> simp <;> omega

/-! ## The summary -/

/-- The entries of the table that the second loop visits. -/
def listed (table : List (UInt32 × MutableDestination)) : List (UInt32 × MutableDestination) :=
  ([0, 1, 2, 3] : List UInt32).filterMap fun destination =>
    (table.lookup destination).map (Prod.mk destination)

def entrySummary (entry : UInt32 × MutableDestination) : DestinationSummary where
  destinationShard := entry.1
  receiptGroups := entry.2.groups
  receiptCount := entry.2.receipts
  amountAtto := toString entry.2.amount

theorem publishedDestinations_eq (table : List (UInt32 × MutableDestination)) :
    publishedDestinations table = (listed table).map entrySummary := by
  rw [listed, List.map_filterMap]
  simp only [Option.map_map]
  rfl

theorem nodup_shards : ([0, 1, 2, 3] : List UInt32).Nodup := by decide

theorem mem_shards_iff (destination : UInt32) :
    destination ∈ ([0, 1, 2, 3] : List UInt32) ↔ destination ≤ 3 := by
  simp only [List.mem_cons, List.not_mem_nil, or_false, UInt32.le_iff_toNat_le,
    ← UInt32.toNat_inj]
  simp
  omega

/-- A table without a fifth destination loses no total. -/
theorem sum_published {M : Type*} [AddCommMonoid M] {share : MutableDestination → M}
    {table : List (UInt32 × MutableDestination)} (h : (table.map Prod.fst).Nodup)
    (hall : ∀ destination ∈ table.map Prod.fst, destination ≤ 3)
    {value : DestinationSummary → M} (hvalue : ∀ entry, value (entrySummary entry) = share entry.2) :
    ((publishedDestinations table).map value).sum = total share table := by
  have hkeys : ∀ destination ∈ table.map Prod.fst,
      destination ∈ ([0, 1, 2, 3] : List UInt32) :=
    fun destination hmem => (mem_shards_iff destination).mpr (hall destination hmem)
  exact sum_listed h nodup_shards hkeys fun destination totals => hvalue (destination, totals)

theorem shards_published (table : List (UInt32 × MutableDestination)) :
    (publishedDestinations table).map DestinationSummary.destinationShard =
      ([0, 1, 2, 3] : List UInt32).filter fun destination =>
        decide (destination ∈ table.map Prod.fst) :=
  keys_listed _ fun _ _ => rfl

variable {flags : Flags} {rows : List Row} {summary : Summary}

/-- The summary is read off the variables at the end of the loop. -/
theorem main_ok (h : main lib flags db = .ok (rows, summary)) :
    ∃ os, (served db).mapM (verdict lib flags.sourceShard.toUInt32 db) = .ok os ∧
      rows = (os.foldl OutgoingScan.tally {}).rows ∧
      summary.destinations = publishedDestinations (os.foldl OutgoingScan.tally {}).destinations ∧
      ∀ c, counter summary c = counterIn (os.foldl OutgoingScan.tally {}) c := by
  rw [main] at h
  by_cases husage : flags.db = "" ∨ flags.output = "" ∨ flags.sourceShard > 0xffffffff
  · rw [if_pos husage] at h
    cases h
  rw [if_neg husage] at h
  cases hscan : scan lib flags.sourceShard.toUInt32 db with
  | error err =>
    rw [hscan] at h
    cases h
  | ok state =>
    obtain ⟨-, os, hos, hstate⟩ := (scan_ok_iff lib _ db state).mp hscan
    rw [hscan] at h
    cases h
    refine ⟨os, hos, ?_, ?_, ?_⟩
    · rw [hstate]
    · rw [hstate]
    · intro c
      rw [hstate]
      cases c <;> rfl

theorem counters_of_verdicts {os : List Outcome}
    (hos : (served db).mapM (verdict lib sourceShard db) = .ok os) :
    (served db).map (groupClass db) = os.map classOf :=
  map_eq_of_mapM_ok hos fun _ _ h => (verdict_class h).1

theorem counter_eq_countP {os : List Outcome}
    (hos : (served db).mapM (verdict lib sourceShard db) = .ok os) (c : GroupClass) :
    counterIn (os.foldl OutgoingScan.tally {}) c =
      (served db).countP fun record => groupClass db record = some c := by
  have hcount := congrArg (List.countP fun class' => decide (class' = some c))
    (counters_of_verdicts hos)
  rw [List.countP_map, List.countP_map] at hcount
  rw [counterIn_tallied]
  exact hcount.symm

theorem mem_keys_iff {os : List Outcome}
    (hos : (served db).mapM (verdict lib sourceShard db) = .ok os) (destination : UInt32) :
    destination ∈ (os.foldl OutgoingScan.tally {}).destinations.map Prod.fst ↔
      ∃ record ∈ served db, canonicalDestination db record = some destination := by
  have hmap : (served db).map (canonicalDestination db) = os.map destinationOf :=
    map_eq_of_mapM_ok hos fun _ _ h => (verdict_class h).2
  rw [mem_keys_tallied]
  have hmem : some destination ∈ (served db).map (canonicalDestination db) ↔
      some destination ∈ os.map destinationOf := by
    rw [hmap]
  simpa only [List.mem_map] using hmem.symm

/-- Every well-formed key has one class, so it moves one counter. -/
theorem sum_counters :
    ((served db).countP fun record => groupClass db record = some .canonical) +
        ((served db).countP fun record => groupClass db record = some .noncanonical) +
        ((served db).countP fun record => groupClass db record = some .missingHash) +
        ((served db).countP fun record => groupClass db record = some .empty) =
      (served db).countP fun record => (receiptKeyParts record.1).isSome := by
  have hsum := sum_classes ((served db).map (groupClass db))
  simp only [List.countP_map] at hsum
  have hsome : (Option.isSome ∘ groupClass db) =
      fun record => (receiptKeyParts record.1).isSome := by
    funext record
    exact Option.isSome_map
  rw [hsome] at hsum
  exact hsum

/-- The summary accounts for all that the scan wrote exactly when no canonical
group goes to a shard above 3. -/
theorem summary_accounts_iff (lib : OutgoingCodec) (flags : Flags) (db : Database)
    {rows : List Row} {summary : Summary} (h : main lib flags db = .ok (rows, summary)) :
    Accounts db rows summary ↔ ∀ record ∈ served db, ∀ destination,
      canonicalDestination db record = some destination → destination ≤ 3 := by
  obtain ⟨os, hos, hrows, hdestinations, hcounters⟩ := main_ok h
  have hbalanced := balanced_tallied os
  have hshards := shards_published (os.foldl OutgoingScan.tally {}).destinations
  rw [← hdestinations] at hshards
  constructor
  · intro haccounts record hrecord destination hdestination
    have hentry := (haccounts.entries destination).mpr ⟨record, hrecord, hdestination⟩
    rw [hshards] at hentry
    exact (mem_shards_iff destination).mp (List.mem_filter.mp hentry).1
  · intro hsmall
    have hall : ∀ destination ∈ (os.foldl OutgoingScan.tally {}).destinations.map Prod.fst,
        destination ≤ 3 := by
      intro destination hmem
      obtain ⟨record, hrecord, hdestination⟩ := (mem_keys_iff hos destination).mp hmem
      exact hsmall record hrecord destination hdestination
    constructor
    · rw [hdestinations, hrows, ← hbalanced.receipts]
      exact sum_published hbalanced.keys hall fun _ => rfl
    · refine ⟨(listed (os.foldl OutgoingScan.tally {}).destinations).map (·.2.amount), ?_, ?_⟩
      · rw [hdestinations, publishedDestinations_eq, List.mapM_map]
        exact mapM_readInt (fun entry : UInt32 × MutableDestination => entry.2.amount) _
      · rw [hrows, ← hbalanced.amounts]
        exact sum_listed hbalanced.keys nodup_shards
          (fun destination hmem => (mem_shards_iff destination).mpr (hall destination hmem))
          fun _ _ => rfl
    · rw [hshards]
      exact nodup_shards.filter _
    · intro destination
      rw [hshards, List.mem_filter, decide_eq_true_iff, mem_keys_iff hos, mem_shards_iff]
      constructor
      · exact fun hmem => hmem.2
      · rintro ⟨record, hrecord, hdestination⟩
        exact ⟨hsmall record hrecord destination hdestination, record, hrecord, hdestination⟩
    · have hcanonical := hcounters .canonical
      rw [hdestinations]
      exact (sum_published hbalanced.keys hall fun _ => rfl).trans
        (hbalanced.groups.trans hcanonical.symm)
    · intro c
      rw [hcounters, counter_eq_countP hos]
    · have heach := fun c => (hcounters c).trans (counter_eq_countP hos c)
      rw [← sum_counters]
      simp only [← heach]
      rfl

/-! ## Groups for shard 1 and for shard 4 -/

/-- A group of one receipt of 100 atto from shard 0 to shard 4. -/
def fifthShardBytes : Bytes :=
  [0xf8, 0x50, 0xf8, 0x4e, 0xa0] ++ List.replicate 32 1 ++ [0x94] ++ List.replicate 20 0xaa ++
    [0x94] ++ List.replicate 20 0xbb ++ [0x80, 0x04, 0x64]

def fifthShardCodec : OutgoingCodec :=
  OutgoingAgreement.withSender
    (.ofTables []
      [(fifthShardBytes, [some { CrossShardSupply.sampleReceipt 1 with toShardID := 4 }])] [])
    (.fill 20 0xaa)

def fifthShardSource : Store :=
  (Store.empty.put (receiptKey 4 10 (.fill 32 10)) fifthShardBytes).put (canonicalHashKey 10)
    (List.replicate 32 10)

def sampleFlags : Flags := ⟨"shard-0", 0, "receipts.csv"⟩

/-- The sample group goes to shard 1, so its two receipts are accounted for. -/
theorem summary_accounts_for_sample : ∃ rows summary,
    main (OutgoingAgreement.withSender CrossShardSupply.sampleCodec (.fill 20 0xaa)) sampleFlags
        SourceRecords.sampleSource.database = .ok (rows, summary) ∧
      rows.length = 2 ∧ Accounts SourceRecords.sampleSource.database rows summary := by
  have hlength : ((main (OutgoingAgreement.withSender CrossShardSupply.sampleCodec
      (.fill 20 0xaa)) sampleFlags SourceRecords.sampleSource.database).map
        fun result => result.1.length) = .ok 2 := by decide +kernel
  have hall : ((served SourceRecords.sampleSource.database).all fun record =>
      ((canonicalDestination SourceRecords.sampleSource.database record).all
        fun destination => decide (destination ≤ 3))) = true := by decide +kernel
  cases hmain : main (OutgoingAgreement.withSender CrossShardSupply.sampleCodec (.fill 20 0xaa))
      sampleFlags SourceRecords.sampleSource.database with
  | error err =>
    rw [hmain] at hlength
    cases hlength
  | ok result =>
    obtain ⟨rows, summary⟩ := result
    rw [hmain] at hlength
    refine ⟨rows, summary, rfl, Except.ok.inj hlength,
      (summary_accounts_iff (OutgoingAgreement.withSender CrossShardSupply.sampleCodec
        (.fill 20 0xaa)) sampleFlags SourceRecords.sampleSource.database hmain).mpr ?_⟩
    intro record hrecord destination hdestination
    have hrow := List.all_eq_true.mp hall record hrecord
    rw [hdestination] at hrow
    exact of_decide_eq_true hrow

/-- The receipt for shard 4 is written and counted, and its destination is not listed. -/
theorem fifth_shard_unaccounted : ∃ rows summary,
    main fifthShardCodec sampleFlags fifthShardSource.database = .ok (rows, summary) ∧
      rows.map Row.destinationShard = [4] ∧ summary.canonicalGroups = 1 ∧
      summary.destinations = [] ∧ ¬ Accounts fifthShardSource.database rows summary := by
  have hrun : ((main fifthShardCodec sampleFlags fifthShardSource.database).map
      fun result => (result.1.map Row.destinationShard, result.2.canonicalGroups,
        result.2.destinations)) = .ok ([4], 1, []) := by decide +kernel
  cases hmain : main fifthShardCodec sampleFlags fifthShardSource.database with
  | error err =>
    rw [hmain] at hrun
    cases hrun
  | ok result =>
    obtain ⟨rows, summary⟩ := result
    rw [hmain] at hrun
    have hparts := Except.ok.inj hrun
    have hrows : rows.map Row.destinationShard = [4] := congrArg Prod.fst hparts
    have hgroups : summary.canonicalGroups = 1 := congrArg (fun r => r.2.1) hparts
    have hnone : summary.destinations = [] := congrArg (fun r => r.2.2) hparts
    refine ⟨rows, summary, rfl, hrows, hgroups, hnone, ?_⟩
    intro haccounts
    have hsum := haccounts.groups
    rw [hnone, hgroups] at hsum
    cases hsum

end OutgoingTotals
