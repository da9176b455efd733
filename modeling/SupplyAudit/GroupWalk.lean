import SupplyAudit.ReceiptOutcomes

/-!
# How one receipt group is decided

A receipt group is read receipt by receipt. What a destination database shows
about one receipt is a `Sighting`; the decision on the group depends only on
the list of sightings. The walk stops at the first receipt that is not applied,
and it compares neighbouring application blocks, block zero excepted.
-/

namespace GroupWalk

open ByteWords ReceiptKeys ChainDatabase CrossShardSupply ReceiptOutcomes

/-- What the destination shows about one receipt at the cutoff. -/
inductive Sighting where
  | applied (block : UInt64)
  | unapplied
  | failed (err : ScanError)

/-- Reading one receipt, as the loop over the group does it. -/
def sight (lib : Codec) (input : ScanInput) (destination : UInt32) (destinationDB : Database)
    (blockNumber : UInt64) (receipt : Receipt) : Sighting :=
  match readOptional destinationDB (cxLookupKey receipt.txHash) with
  | .error err => .failed (.readLookup destination receipt.txHash err)
  | .ok none =>
    match readOptional destinationDB (spentKey input.sourceShard blockNumber) with
    | .error err =>
      .failed (.readMarker destination input.sourceShard blockNumber receipt.txHash err)
    | .ok (some marker) =>
      if marker ≠ [0] then
        .failed (.invalidMarker destination marker input.sourceShard blockNumber receipt.txHash)
      else .failed (.incompleteIndex destination receipt.txHash input.sourceShard blockNumber)
    | .ok none => .unapplied
  | .ok (some encoded) =>
    if encoded.length = 0 then .failed (.emptyLookup destination receipt.txHash)
    else match lib.decodeLookup encoded with
      | .error err => .failed (.decodeLookup receipt.txHash err)
      | .ok entry =>
        match input.destinationCutoffs destination with
        | none => .failed (.missingCutoff destination receipt.txHash)
        | some cutoff =>
          if entry.blockIndex > cutoff then .unapplied
          else match readCanonicalHash destinationDB entry.blockIndex with
            | .error err => .failed
                (.readDestinationHash destination entry.blockIndex receipt.txHash err)
            | .ok none =>
              .failed (.missingDestinationHash destination entry.blockIndex receipt.txHash)
            | .ok (some canonicalHash) =>
              if canonicalHash ≠ entry.blockHash then .unapplied else .applied entry.blockIndex

/-- The decision from a list of sightings. `previous` is zero before the first
application, so an application in block zero is not compared with the next one. -/
def walk (split : ScanError) : List Sighting → UInt64 → Except ScanError Bool
  | [], _ => .ok true
  | .failed err :: _, _ => .error err
  | .unapplied :: _, _ => .ok false
  | .applied block :: rest, previous =>
    if previous ≠ 0 ∧ previous ≠ block then .error split else walk split rest block

/-- The receipt loop is the walk over the sightings of its receipts. -/
theorem destinationLoop_eq_walk (lib : Codec) (input : ScanInput) (destination : UInt32)
    (destinationDB : Database) (blockNumber : UInt64) (receipts : List Receipt)
    (previous : UInt64) :
    destinationLoop lib input destination destinationDB blockNumber receipts previous =
      walk (.splitGroup input.sourceShard blockNumber)
        (receipts.map (sight lib input destination destinationDB blockNumber)) previous := by
  induction receipts generalizing previous with
  | nil => rfl
  | cons receipt rest ih =>
    rw [destinationLoop, List.map_cons, sight]
    cases readOptional destinationDB (cxLookupKey receipt.txHash) with
    | error err => rfl
    | ok found =>
      cases found with
      | none =>
        cases readOptional destinationDB (spentKey input.sourceShard blockNumber) with
        | error err => rfl
        | ok found =>
          cases found with
          | none => rfl
          | some marker =>
            dsimp only
            by_cases hm : marker ≠ [0]
            · simp only [if_pos hm, walk]
            · simp only [if_neg hm, walk]
      | some encoded =>
        dsimp only
        by_cases hl : encoded.length = 0
        · simp only [if_pos hl, walk]
        simp only [if_neg hl]
        cases lib.decodeLookup encoded with
        | error err => rfl
        | ok entry =>
          dsimp only
          cases input.destinationCutoffs destination with
          | none => rfl
          | some cutoff =>
            dsimp only
            by_cases hafter : entry.blockIndex > cutoff
            · simp only [if_pos hafter, walk]
            simp only [if_neg hafter]
            cases readCanonicalHash destinationDB entry.blockIndex with
            | error err => rfl
            | ok found =>
              cases found with
              | none => rfl
              | some canonicalHash =>
                dsimp only
                by_cases hne : canonicalHash ≠ entry.blockHash
                · simp only [if_pos hne, walk]
                simp only [if_neg hne, walk, ih]

/-- A group's verdict looks at the source shard and its own destination's cutoff only. -/
theorem groupVerdict_congr {lib : Codec} {input input' : ScanInput} {destinationDB : Database}
    {g : Group} (hshard : input.sourceShard = input'.sourceShard)
    (hcutoff : input.destinationCutoffs g.destination =
      input'.destinationCutoffs g.destination) :
    groupVerdict lib input destinationDB g = groupVerdict lib input' destinationDB g := by
  have hsight : sight lib input g.destination destinationDB g.blockNumber =
      sight lib input' g.destination destinationDB g.blockNumber := by
    funext receipt
    simp only [sight, hshard, hcutoff]
  rw [groupVerdict, groupVerdict, destinationLoop_eq_walk, destinationLoop_eq_walk, hsight, hshard]

/-- No split is noticed between neighbouring blocks: the earlier one is zero or
they are equal. -/
def Unsplit (a b : UInt64) : Prop := a = 0 ∨ a = b

instance : DecidableRel Unsplit := fun a b => inferInstanceAs (Decidable (a = 0 ∨ a = b))

theorem walk_applied_of_unsplit {split : ScanError} {block previous : UInt64}
    (h : Unsplit previous block) (rest : List Sighting) :
    walk split (.applied block :: rest) previous = walk split rest block := by
  rw [walk, if_neg]
  rintro ⟨hz, hne⟩
  exact h.elim hz hne

theorem walk_applied_of_split {split : ScanError} {block previous : UInt64}
    (h : ¬ Unsplit previous block) (rest : List Sighting) :
    walk split (.applied block :: rest) previous = .error split := by
  rw [walk, if_pos]
  exact ⟨fun hz => h (Or.inl hz), fun he => h (Or.inr he)⟩

/-- The walk notices no split along these blocks, starting after `previous`. -/
def Steady : UInt64 → List UInt64 → Prop
  | _, [] => True
  | previous, block :: rest => Unsplit previous block ∧ Steady block rest

/-- The block remembered after these applications. -/
def lastBlock : UInt64 → List UInt64 → UInt64
  | previous, [] => previous
  | _, block :: rest => lastBlock block rest

theorem steady_of_ne_zero {previous : UInt64} (h : previous ≠ 0) (blocks : List UInt64) :
    Steady previous blocks ↔ ∀ block ∈ blocks, block = previous := by
  induction blocks with
  | nil => simp [Steady]
  | cons block rest ih =>
    rw [Steady, List.forall_mem_cons]
    constructor
    · rintro ⟨hu, hs⟩
      have he : previous = block := hu.resolve_left h
      subst he
      exact ⟨rfl, ih.mp hs⟩
    · rintro ⟨rfl, hs⟩
      exact ⟨Or.inr rfl, ih.mpr hs⟩

/-- From the start no split is noticed exactly when the applications form a run
in block zero followed by a run in one other block. -/
theorem steady_zero_iff (blocks : List UInt64) :
    Steady 0 blocks ↔ ∃ zeros later block,
      blocks = List.replicate zeros 0 ++ List.replicate later block ∧ block ≠ 0 := by
  induction blocks with
  | nil => exact iff_of_true trivial ⟨0, 0, 1, rfl, by decide⟩
  | cons block rest ih =>
    have hu : Unsplit 0 block := Or.inl rfl
    rw [Steady, and_iff_right hu]
    by_cases hz : block = 0
    · subst hz
      rw [ih]
      constructor
      · rintro ⟨zeros, later, block, rfl, hb⟩
        exact ⟨zeros + 1, later, block, rfl, hb⟩
      · rintro ⟨zeros, later, block, he, hb⟩
        cases zeros with
        | zero =>
          have hmem : (0 : UInt64) ∈ List.replicate later block := by
            rw [List.replicate_zero, List.nil_append] at he
            exact he ▸ List.mem_cons_self
          exact absurd (List.eq_of_mem_replicate hmem).symm hb
        | succ zeros => exact ⟨zeros, later, block, (List.cons.inj he).2, hb⟩
    · rw [steady_of_ne_zero hz]
      constructor
      · intro hs
        exact ⟨0, rest.length + 1, block,
          List.eq_replicate_iff.mpr ⟨rfl, List.forall_mem_cons.mpr ⟨rfl, hs⟩⟩, hz⟩
      · rintro ⟨zeros, later, other, he, -⟩
        cases zeros with
        | zero =>
          rw [List.replicate_zero, List.nil_append] at he
          have hall := (List.eq_replicate_iff.mp he).2
          intro b hb
          rw [hall b (List.mem_cons_of_mem block hb), hall block List.mem_cons_self]
        | succ zeros => exact absurd (List.cons.inj he).1 hz

/-- Where the walk comes to an end: the list is exhausted, or the next receipt
is not applied, unreadable, or applied in a block that shows a split. -/
inductive End (previous : UInt64) : List Sighting → Prop where
  | exhausted : End previous []
  | unapplied (rest : List Sighting) : End previous (.unapplied :: rest)
  | failed (err : ScanError) (rest : List Sighting) : End previous (.failed err :: rest)
  | split (block : UInt64) (rest : List Sighting) (h : ¬ Unsplit previous block) :
      End previous (.applied block :: rest)

theorem walk_steady (split : ScanError) {previous : UInt64} {blocks : List UInt64}
    (h : Steady previous blocks) (tail : List Sighting) :
    walk split (blocks.map .applied ++ tail) previous =
      walk split tail (lastBlock previous blocks) := by
  induction blocks generalizing previous with
  | nil => rfl
  | cons block blocks ih =>
    rw [List.map_cons, List.cons_append, walk_applied_of_unsplit h.1, ih h.2, lastBlock]

/-- Every list of sightings is a steady run of applications up to an end. -/
theorem exists_end (ss : List Sighting) (previous : UInt64) :
    ∃ blocks tail, ss = blocks.map .applied ++ tail ∧ Steady previous blocks ∧
      End (lastBlock previous blocks) tail := by
  induction ss generalizing previous with
  | nil => exact ⟨[], [], rfl, trivial, .exhausted⟩
  | cons s rest ih =>
    cases s with
    | failed err => exact ⟨[], _, rfl, trivial, .failed err rest⟩
    | unapplied => exact ⟨[], _, rfl, trivial, .unapplied rest⟩
    | applied block =>
      by_cases hu : Unsplit previous block
      · obtain ⟨blocks, tail, rfl, hs, he⟩ := ih block
        exact ⟨block :: blocks, tail, rfl, ⟨hu, hs⟩, he⟩
      · exact ⟨[], _, rfl, trivial, .split block rest hu⟩

/-- Spent: every receipt is applied and no split is noticed. -/
theorem walk_true_iff (split : ScanError) (ss : List Sighting) (previous : UInt64) :
    walk split ss previous = .ok true ↔
      ∃ blocks, ss = blocks.map .applied ∧ Steady previous blocks := by
  constructor
  · intro h
    obtain ⟨blocks, tail, rfl, hs, he⟩ := exists_end ss previous
    rw [walk_steady split hs] at h
    cases he with
    | exhausted => exact ⟨blocks, List.append_nil _, hs⟩
    | unapplied rest => simp [walk] at h
    | failed err rest => simp [walk] at h
    | split block rest hu => simp [walk_applied_of_split hu] at h
  · rintro ⟨blocks, rfl, hs⟩
    have hw := walk_steady split hs []
    rwa [List.append_nil] at hw

/-- Pending: the walk reaches a receipt that is not applied. -/
theorem walk_false_iff (split : ScanError) (ss : List Sighting) (previous : UInt64) :
    walk split ss previous = .ok false ↔
      ∃ blocks rest, ss = blocks.map .applied ++ .unapplied :: rest ∧ Steady previous blocks := by
  constructor
  · intro h
    obtain ⟨blocks, tail, rfl, hs, he⟩ := exists_end ss previous
    rw [walk_steady split hs] at h
    cases he with
    | exhausted => simp [walk] at h
    | unapplied rest => exact ⟨blocks, rest, rfl, hs⟩
    | failed err rest => simp [walk] at h
    | split block rest hu => simp [walk_applied_of_split hu] at h
  · rintro ⟨blocks, rest, rfl, hs⟩
    rw [walk_steady split hs, walk]

/-- Stopped: the walk reaches an unreadable receipt or notices a split. -/
theorem walk_error_iff (split : ScanError) (ss : List Sighting) (previous : UInt64) :
    (∃ err, walk split ss previous = .error err) ↔
      ∃ blocks s rest, ss = blocks.map .applied ++ s :: rest ∧ Steady previous blocks ∧
        ((∃ err, s = .failed err) ∨
          ∃ block, s = .applied block ∧ ¬ Unsplit (lastBlock previous blocks) block) := by
  constructor
  · rintro ⟨err, h⟩
    obtain ⟨blocks, tail, rfl, hs, he⟩ := exists_end ss previous
    rw [walk_steady split hs] at h
    cases he with
    | exhausted => simp [walk] at h
    | unapplied rest => simp [walk] at h
    | failed err rest => exact ⟨blocks, _, rest, rfl, hs, Or.inl ⟨err, rfl⟩⟩
    | split block rest hu => exact ⟨blocks, _, rest, rfl, hs, Or.inr ⟨block, rfl, hu⟩⟩
  · rintro ⟨blocks, s, rest, rfl, hs, ⟨err, rfl⟩ | ⟨block, rfl, hu⟩⟩
    · exact ⟨err, by rw [walk_steady split hs, walk]⟩
    · exact ⟨split, by rw [walk_steady split hs, walk_applied_of_split hu]⟩

end GroupWalk
