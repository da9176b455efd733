import SupplyAudit.OutgoingScan
import SupplyAudit.ReceiptAccounting

/-!
# Both readers of outgoing receipts see the same receipts

`outgoing-cx-scan` and `sumReceipts` decode the same records, but they test
emptiness, the cutoff and the canonical hash in different orders and read that
hash by different accessors. Where every group's block has a usable hash, the
rows within the cutoff are the receipts of the groups that the sum counts.
-/

namespace OutgoingAgreement

open ByteWords ReceiptKeys ChainDatabase FallibleScan CrossShardSupply ReceiptOutcomes
open PublishedTotals ReceiptAccounting
open OutgoingScan (OutgoingReceipt OutgoingCodec Row receiptRow groupRows rowsOf)

/-- What both readers say about one receipt. -/
structure ListedReceipt where
  destination : UInt32
  block : UInt64
  hash : Hash
  index : Nat
  txHash : Hash
  recipient : Address
  amount : Int
  deriving DecidableEq

def listedRow (row : Row) : ListedReceipt where
  destination := row.destinationShard
  block := row.sourceBlock
  hash := row.sourceBlockHash
  index := row.receiptIndex
  txHash := row.txHash
  recipient := row.recipient
  amount := row.amountAtto

def listedReceipt (destination : UInt32) (block : UInt64) (hash : Hash)
    (indexed : Receipt × Nat) : ListedReceipt where
  destination := destination
  block := block
  hash := hash
  index := indexed.2
  txHash := indexed.1.txHash
  recipient := indexed.1.recipient
  amount := indexed.1.amount

/-- The receipts of a group, by their indices. -/
def listedGroup (g : Group) : List ListedReceipt :=
  g.receipts.zipIdx.map (listedReceipt g.destination g.blockNumber g.blockHash)

/-- The groups that are counted as spent, pending or unsupported. -/
def countedGroups (os : List Outcome) : List Group :=
  groupsIn .spent os ++ (groupsIn .pending os ++ groupsIn .unsupported os)

/-- The rows at or below a source cutoff. -/
def within (cutoff : UInt64) (rows : List Row) : List Row :=
  rows.filter fun row => row.sourceBlock ≤ cutoff

/-- Every receipt group's block has a readable canonical hash that is not zero. -/
def CanonicalKnown (db : Database) : Prop :=
  ∀ record ∈ (db.newIterator receiptPrefix).1, ∀ destination number hash,
    receiptKeyParts record.1 = some (destination, number, hash) →
      ∃ canonicalHash : Hash, db.get (canonicalHashKey number) = .ok canonicalHash.data ∧
        canonicalHash ≠ FixedBytes.zero 32

/-- Both accessors read a hash that is stored as it should be. -/
theorem reads_of_get {db : Database} {number : UInt64} {hash : Hash}
    (h : db.get (canonicalHashKey number) = .ok hash.data) (hne : hash ≠ FixedBytes.zero 32) :
    readCanonicalHash db number = .ok (some hash) ∧ rawdbReadCanonicalHash db number = hash := by
  have hpos : 0 < hash.data.length := by rw [hash.size]; decide
  have hread : readOptional db (canonicalHashKey number) = .ok (some hash.data) := by
    simp only [readOptional, h, if_pos hpos]
  constructor
  · simp only [readCanonicalHash, hread, hash.size, hashLength, ne_eq, not_true_eq_false, if_false,
      FixedBytes.ofBytes_data, if_neg hne]
  · simp only [rawdbReadCanonicalHash, h, FixedBytes.ofBytes_data]

section Group
variable {sourceShard destination : UInt32} {number : UInt64} {hash : Hash}

/-- A row is written for an admissible receipt only, and shows it. -/
theorem receiptRow_ok {receipt : Option OutgoingReceipt} {index : Nat} {row : Row}
    (h : receiptRow sourceShard destination number hash (receipt, index) = .ok row) :
    ∃ txHash recipient amount, ∃ hamount : 0 ≤ amount,
      receipt.map OutgoingReceipt.toCxReceipt =
        some ⟨txHash, some recipient, sourceShard, destination, some amount⟩ ∧
      listedRow row = listedReceipt destination number hash
        (⟨txHash, recipient, amount, hamount⟩, index) := by
  rcases receipt with _ | ⟨⟨txHash, _ | recipient, shardID, toShardID, _ | amount⟩, sender⟩
  · cases h
  · cases h
  · cases h
  · cases h
  · rw [receiptRow] at h
    by_cases hbad : amount < 0 ∨ shardID ≠ sourceShard ∨ toShardID ≠ destination
    · rw [if_pos hbad] at h
      cases h
    · rw [if_neg hbad] at h
      cases h
      simp only [not_or, not_lt, not_not] at hbad
      obtain ⟨hamount, rfl, rfl⟩ := hbad
      exact ⟨txHash, recipient, amount, hamount, rfl, rfl⟩

/-- Both receipt loops list the same receipts. -/
theorem listed_of_checked {decoded : List (Option OutgoingReceipt)} {index : Nat}
    {rows : List Row} {receipts : List Receipt}
    (hrows : (decoded.zipIdx index).mapM (receiptRow sourceShard destination number hash) =
      .ok rows)
    (hreceipts : checkReceipts sourceShard destination number index
      (decoded.map (Option.map OutgoingReceipt.toCxReceipt)) = .ok receipts) :
    rows.map listedRow = (receipts.zipIdx index).map (listedReceipt destination number hash) := by
  induction decoded generalizing index rows receipts with
  | nil =>
    cases hrows
    cases hreceipts
    rfl
  | cons head rest ih =>
    rw [List.zipIdx_cons, mapM_ok_iff, List.forall₂_cons_left_iff] at hrows
    obtain ⟨row, rows, hrow, hrest, rfl⟩ := hrows
    obtain ⟨txHash, recipient, amount, hamount, hhead, hlisted⟩ := receiptRow_ok hrow
    rw [List.map_cons, hhead, SourceRecords.checkReceipts_cons _ _ _ _ hamount] at hreceipts
    cases hr : checkReceipts sourceShard destination number (index + 1)
        (rest.map (Option.map OutgoingReceipt.toCxReceipt)) with
    | error err => rw [hr] at hreceipts; cases hreceipts
    | ok tail =>
      rw [hr] at hreceipts
      cases hreceipts
      rw [List.map_cons, List.zipIdx_cons, List.map_cons, hlisted, ih (mapM_ok_iff.mpr hrest) hr]

theorem sourceBlock_of_mem_groupRows {receipts : List (Option OutgoingReceipt)} {rows : List Row}
    (h : groupRows sourceShard destination number hash receipts = .ok rows) {row : Row}
    (hrow : row ∈ rows) : row.sourceBlock = number := by
  obtain ⟨⟨receipt, index⟩, -, hr⟩ := mapM_ok_right h hrow
  obtain ⟨txHash, recipient, amount, hamount, -, hlisted⟩ := receiptRow_ok hr
  exact congrArg ListedReceipt.block hlisted

end Group

section Record
variable {lib : OutgoingCodec} {input : ScanInput}

/-- The rows of a group within the cutoff are kept, those of a later one are not. -/
theorem within_groupRows {sourceShard destination : UInt32} {number cutoff : UInt64} {hash : Hash}
    {receipts : List (Option OutgoingReceipt)} {rows : List Row}
    (h : groupRows sourceShard destination number hash receipts = .ok rows) :
    within cutoff rows = if number ≤ cutoff then rows else [] := by
  rw [within]
  split
  · rename_i hle
    refine List.filter_eq_self.mpr fun row hrow => ?_
    rw [sourceBlock_of_mem_groupRows h hrow]
    exact decide_eq_true hle
  · rename_i hgt
    refine List.filter_eq_nil_iff.mpr fun row hrow => ?_
    rw [sourceBlock_of_mem_groupRows h hrow]
    simpa using hgt

/-- Where both readers pass a record, its rows within the cutoff are the receipts
of the group that the sum counts for it. -/
theorem listed_of_verdicts (hcanonical : CanonicalKnown input.source) {record : Record}
    (hmem : record ∈ iterated input) {o : Outcome} {o' : OutgoingScan.Outcome}
    (h : verdict lib.toCodec input record = .ok o)
    (h' : OutgoingScan.verdict lib input.sourceShard input.source record = .ok o') :
    (within input.sourceCutoff (rowsOf o')).map listedRow = (heldGroups o).flatMap listedGroup := by
  cases hk : receiptKeyParts record.1 with
  | none =>
    rw [verdict_skipped hk] at h
    simp only [OutgoingScan.verdict, hk] at h'
    cases h
    cases h'
    rfl
  | some parts =>
    obtain ⟨destination, number, hash⟩ := parts
    obtain ⟨canonicalHash, hget, hzero⟩ := hcanonical record hmem destination number hash hk
    obtain ⟨hread, hraw⟩ := reads_of_get hget hzero
    simp only [OutgoingScan.verdict, hk, hraw, if_neg hzero] at h'
    by_cases hempty : record.2 = [0xc0]
    · rw [verdict_empty hk hempty] at h
      cases h
      have hrows : rowsOf o' = [] := by
        by_cases hne : canonicalHash ≠ hash
        · rw [if_pos hne] at h'
          cases h'
          rfl
        · rw [if_neg hne, if_pos hempty] at h'
          cases h'
          rfl
      rw [hrows]
      rfl
    by_cases hne : canonicalHash ≠ hash
    · rw [if_pos hne] at h'
      cases h'
      have hheld : heldGroups o = [] := by
        by_cases hafter : number > input.sourceCutoff
        · rw [verdict_after hk hempty hafter] at h
          cases h
          rfl
        · rw [verdict_within hk hempty hafter, sourceVerdict] at h
          simp only [hread, if_pos hne] at h
          cases h
          rfl
      rw [hheld]
      rfl
    rw [if_neg hne, if_neg hempty] at h'
    cases hd : lib.decodeOutgoing record.2 with
    | error err => rw [hd] at h'; cases h'
    | ok decoded =>
      simp only [hd] at h'
      cases hg : groupRows input.sourceShard destination number hash decoded with
      | error err => rw [hg] at h'; cases h'
      | ok rows =>
        rw [hg] at h'
        cases h'
        rw [rowsOf, within_groupRows hg]
        by_cases hafter : number > input.sourceCutoff
        · rw [verdict_after hk hempty hafter] at h
          cases h
          rw [if_neg (UInt64.not_le.mpr hafter)]
          rfl
        · rw [verdict_within hk hempty hafter, sourceVerdict] at h
          simp only [hread, if_neg hne] at h
          obtain ⟨-, decoded', receipts, hd', hc, hheld⟩ := canonicalVerdict_holds h
          rw [lib.forgets, hd] at hd'
          cases hd'
          rw [if_pos (UInt64.not_lt.mp hafter), hheld, List.flatMap_singleton]
          exact listed_of_checked hg hc

end Record

/-- The held groups of all outcomes are the counted groups, in another order. -/
theorem heldGroups_perm (os : List Outcome) : (os.flatMap heldGroups).Perm (countedGroups os) := by
  have houter := (List.flatMap_append_perm os (groupIn .spent)
    fun o => groupIn .pending o ++ groupIn .unsupported o).symm
  have hinner := (List.flatMap_append_perm os (groupIn .pending) (groupIn .unsupported)).symm
  exact houter.trans (hinner.append_left _)

/-- The rows of a destination. -/
def toward (destination : UInt32) (rows : List Row) : List Row :=
  rows.filter fun row => row.destinationShard = destination

/-- The groups of a destination. -/
def groupsToward (destination : UInt32) (gs : List Group) : List Group :=
  gs.filter fun g => g.destination = destination

/-- The rows within the cutoff against the groups behind the published totals. -/
structure SameReceipts (cutoff : UInt64) (rows : List Row) (os : List Outcome)
    (totals : DirectionTotals) : Prop where
  receipts : ((within cutoff rows).map listedRow).Perm ((countedGroups os).flatMap listedGroup)
  counts : ∀ destination, (toward destination (within cutoff rows)).length =
    ((groupsToward destination (countedGroups os)).map (·.receipts.length)).sum
  amounts : ∀ destination, ((toward destination (within cutoff rows)).map Row.amountAtto).sum =
    ((groupsToward destination (countedGroups os)).map Group.amount).sum
  published : (within cutoff rows).length =
    totals.spentReceiptCount + totals.pendingReceiptCount + totals.unsupportedReceiptCount

theorem filter_listedGroup (destination : UInt32) (g : Group) :
    (listedGroup g).filter (fun r => r.destination = destination) =
      if g.destination = destination then listedGroup g else [] := by
  split
  · rename_i hd
    refine List.filter_eq_self.mpr fun r hr => ?_
    obtain ⟨indexed, -, rfl⟩ := List.mem_map.mp hr
    exact decide_eq_true hd
  · rename_i hd
    refine List.filter_eq_nil_iff.mpr fun r hr => ?_
    obtain ⟨indexed, -, rfl⟩ := List.mem_map.mp hr
    exact fun h => hd (of_decide_eq_true h)

theorem filter_flatMap_listedGroup (destination : UInt32) (gs : List Group) :
    (gs.flatMap listedGroup).filter (fun r => r.destination = destination) =
      (groupsToward destination gs).flatMap listedGroup := by
  induction gs with
  | nil => rfl
  | cons g gs ih =>
    rw [groupsToward] at ih ⊢
    rw [List.flatMap_cons, List.filter_append, ih, filter_listedGroup, List.filter_cons]
    by_cases hd : g.destination = destination
    · rw [if_pos hd, if_pos (decide_eq_true hd), List.flatMap_cons]
    · rw [if_neg hd, if_neg (by simpa using hd), List.nil_append]

theorem length_listedGroup (g : Group) : (listedGroup g).length = g.receipts.length := by
  rw [listedGroup, List.length_map, List.length_zipIdx]

theorem amount_listedGroup (g : Group) :
    ((listedGroup g).map ListedReceipt.amount).sum = g.amount := by
  have hfst : (listedGroup g).map ListedReceipt.amount =
      (g.receipts.zipIdx.map Prod.fst).map Receipt.amount := by
    rw [listedGroup, List.map_map, List.map_map]
    rfl
  rw [hfst, List.zipIdx_map_fst, Group.amount, groupAmount]

/-- The same receipts have the same share in every destination. -/
theorem toward_perm {cutoff : UInt64} {rows : List Row} {gs : List Group}
    (h : ((within cutoff rows).map listedRow).Perm (gs.flatMap listedGroup))
    (destination : UInt32) :
    ((toward destination (within cutoff rows)).map listedRow).Perm
      ((groupsToward destination gs).flatMap listedGroup) := by
  rw [← filter_flatMap_listedGroup]
  have hfilter := h.filter (fun r => r.destination = destination)
  rwa [List.filter_map] at hfilter

/-- A successful sum and a successful scan of one source account for the same
receipts at or below the source cutoff. -/
theorem sameReceipts_of_outcomes {lib : OutgoingCodec} {input : ScanInput}
    (hcanonical : CanonicalKnown input.source) {os : List Outcome}
    (hos : verdicts lib.toCodec input = .ok os) {state : OutgoingScan.ScanState}
    (hstate : OutgoingScan.scan lib input.sourceShard input.source = .ok state) :
    SameReceipts input.sourceCutoff state.rows os (tallied lib.toCodec input os).finish := by
  obtain ⟨-, os', hos', rfl⟩ := (OutgoingScan.scan_ok_iff lib _ _ state).mp hstate
  have hparts := flatMap_eq_of_mapM_ok hos' hos
    (fun record hmem o' o h' h => listed_of_verdicts hcanonical hmem h h')
  have hreceipts : ((within input.sourceCutoff (os'.foldl OutgoingScan.tally {}).rows).map
      listedRow).Perm ((countedGroups os).flatMap listedGroup) := by
    rw [OutgoingScan.rows_tallied, within, List.filter_flatMap, List.map_flatMap]
    refine (List.Perm.of_eq hparts).trans ?_
    rw [← List.flatMap_assoc]
    exact (heldGroups_perm os).flatMap_right listedGroup
  have hlength (gs : List Group) :
      (gs.flatMap listedGroup).length = (gs.map (·.receipts.length)).sum := by
    rw [List.length_flatMap]
    simp only [length_listedGroup]
  constructor
  case receipts => exact hreceipts
  case counts =>
    intro destination
    have hl := (toward_perm hreceipts destination).length_eq
    rwa [List.length_map, hlength] at hl
  case amounts =>
    intro destination
    have hs := ((toward_perm hreceipts destination).map ListedReceipt.amount).sum_eq
    rw [List.map_map, sum_map_flatMap] at hs
    simp only [amount_listedGroup] at hs
    exact hs
  case published =>
    have hl := hreceipts.length_eq
    rw [List.length_map, hlength, countedGroups, List.map_append, List.map_append,
      List.sum_append, List.sum_append] at hl
    have hspent := receiptCount_tallied lib.toCodec input os .spent
    have hpending := receiptCount_tallied lib.toCodec input os .pending
    have hunsupported := receiptCount_tallied lib.toCodec input os .unsupported
    rw [← hspent, ← hpending, ← hunsupported, ← Nat.add_assoc] at hl
    exact hl

/-- Where both readers succeed, the rows at or below the cutoff are exactly the
receipts of the groups that the published totals count. -/
theorem readers_agree (lib : OutgoingCodec) (flags : OutgoingScan.Flags) (input : ScanInput)
    (hshard : input.sourceShard = flags.sourceShard.toUInt32)
    (hcanonical : CanonicalKnown input.source) {rows : List Row} {summary : OutgoingScan.Summary}
    (hscan : OutgoingScan.main lib flags input.source = .ok (rows, summary))
    {totals : DirectionTotals} (hsum : sumReceipts lib.toCodec input = (totals, none)) :
    ∃ os, verdicts lib.toCodec input = .ok os ∧ (tallied lib.toCodec input os).finish = totals ∧
      SameReceipts input.sourceCutoff rows os totals := by
  obtain ⟨-, os, hos, rfl⟩ := (sumReceipts_ok_iff lib.toCodec input totals).mp hsum
  refine ⟨os, hos, rfl, ?_⟩
  rw [OutgoingScan.main] at hscan
  split at hscan
  · cases hscan
  rw [← hshard] at hscan
  cases hstate : OutgoingScan.scan lib input.sourceShard input.source with
  | error err => rw [hstate] at hscan; cases hscan
  | ok state =>
    rw [hstate] at hscan
    cases hscan
    exact sameReceipts_of_outcomes hcanonical hos hstate

/-- The library functions with every stored receipt from one sender. -/
def withSender (lib : Codec) (sender : Address) : OutgoingCodec where
  toCodec := lib
  decodeOutgoing value :=
    (lib.decodeReceipts value).map (List.map (Option.map fun receipt => ⟨receipt, sender⟩))
  forgets value := by
    cases lib.decodeReceipts value with
    | error err => rfl
    | ok receipts =>
      have hid : (Option.map OutgoingReceipt.toCxReceipt ∘
          Option.map fun receipt => (⟨receipt, sender⟩ : OutgoingReceipt)) = id := by
        funext receipt
        cases receipt <;> rfl
      simp only [Except.map, List.map_map, hid, List.map_id]

theorem sample_canonicalKnown : CanonicalKnown (SourceRecords.sampleScan 10).input.source := by
  intro record hmem destination number hash hk
  have hlist : ((SourceRecords.sampleScan 10).input.source.newIterator receiptPrefix).1 =
      [(receiptKey 1 10 (.fill 32 10), sampleGroupBytes)] := by decide +kernel
  rw [hlist, List.mem_singleton] at hmem
  subst hmem
  have hparts : receiptKeyParts (receiptKey 1 10 (.fill 32 10)) =
      some (1, 10, FixedBytes.fill 32 10) := by decide +kernel
  rw [hparts] at hk
  cases hk
  exact ⟨.fill 32 10, by rfl, by decide +kernel⟩

/-- The two receipts of the sample group, seen by both readers. -/
theorem readers_agree_sample : ∃ rows summary totals,
    OutgoingScan.main (withSender sampleCodec (.fill 20 0xaa)) ⟨"shard-0", 0, "receipts.csv"⟩
        (SourceRecords.sampleScan 10).input.source = .ok (rows, summary) ∧
      rows.length = 2 ∧ ∃ os,
        verdicts sampleCodec (SourceRecords.sampleScan 10).input = .ok os ∧
        (tallied sampleCodec (SourceRecords.sampleScan 10).input os).finish = totals ∧
        SameReceipts 10 rows os totals := by
  have hscan : ((OutgoingScan.main (withSender sampleCodec (.fill 20 0xaa))
      ⟨"shard-0", 0, "receipts.csv"⟩ (SourceRecords.sampleScan 10).input.source).map
        fun result => result.1.length) = .ok 2 := by decide +kernel
  have hsum : (sumReceipts sampleCodec (SourceRecords.sampleScan 10).input).2 = none := by
    decide +kernel
  cases hmain : OutgoingScan.main (withSender sampleCodec (.fill 20 0xaa))
      ⟨"shard-0", 0, "receipts.csv"⟩ (SourceRecords.sampleScan 10).input.source with
  | error err => rw [hmain] at hscan; cases hscan
  | ok result =>
    obtain ⟨rows, summary⟩ := result
    rw [hmain] at hscan
    exact ⟨rows, summary, _, rfl, Except.ok.inj hscan,
      readers_agree (withSender sampleCodec (.fill 20 0xaa)) ⟨"shard-0", 0, "receipts.csv"⟩
        (SourceRecords.sampleScan 10).input rfl sample_canonicalKnown hmain
        (Prod.ext rfl hsum)⟩

end OutgoingAgreement
