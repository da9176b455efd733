import SupplyAudit.ReceiptOutcomes

/-!
# What the published totals say about the verdicts

Every counter, amount and list of the totals is a projection to which each
verdict adds its own share. The totals of a whole scan are therefore sums and
concatenations over its outcomes.
-/

namespace PublishedTotals

open ByteWords ReceiptKeys ChainDatabase FallibleScan CrossShardSupply ReceiptOutcomes

/-- The six counters, one of which every accepted key moves. -/
inductive Bucket where
  | empty
  | afterCutoff
  | nonCanonical
  | unsupported
  | spent
  | pending
  deriving DecidableEq

def bucket : Outcome → Option Bucket
  | .skipped => none
  | .empty => some .empty
  | .afterCutoff => some .afterCutoff
  | .nonCanonical => some .nonCanonical
  | .unsupported _ => some .unsupported
  | .spent _ => some .spent
  | .pending _ => some .pending

def counter (t : DirectionTotals) : Bucket → Nat
  | .empty => t.emptyReceiptGroups
  | .afterCutoff => t.afterCutoffGroups
  | .nonCanonical => t.nonCanonicalReceiptGroups
  | .unsupported => t.unsupportedReceiptGroups
  | .spent => t.spentReceiptGroups
  | .pending => t.pendingReceiptGroups

/-- The receipts counted in a bucket; no others are counted. -/
def receiptCount (t : DirectionTotals) : Bucket → Nat
  | .unsupported => t.unsupportedReceiptCount
  | .spent => t.spentReceiptCount
  | .pending => t.pendingReceiptCount
  | _ => 0

/-- The running amount of a bucket. -/
def amount (t : MutableDirectionTotals) : Bucket → Int
  | .unsupported => t.unsupportedAmount
  | .spent => t.spentAmount
  | .pending => t.pendingAmount
  | _ => 0

/-- The group of an outcome that was counted in this bucket. -/
def groupIn (b : Bucket) : Outcome → List Group
  | .unsupported g => if b = .unsupported then [g] else []
  | .spent g => if b = .spent then [g] else []
  | .pending g => if b = .pending then [g] else []
  | _ => []

/-- The groups counted in a bucket, in scan order. -/
def groupsIn (b : Bucket) (os : List Outcome) : List Group := os.flatMap (groupIn b)

theorem mem_groupsIn_pending {os : List Outcome} {g : Group} :
    g ∈ groupsIn .pending os ↔ .pending g ∈ os := by
  rw [groupsIn, List.mem_flatMap]
  constructor
  · rintro ⟨o, ho, hg⟩
    cases o with
    | pending g' =>
      have he : g = g' := by simpa [groupIn] using hg
      exact he ▸ ho
    | skipped | empty | afterCutoff | nonCanonical => simp [groupIn] at hg
    | unsupported g' | spent g' => simp [groupIn] at hg
  · intro ho
    exact ⟨.pending g, ho, by simp [groupIn]⟩

section Step
variable (lib : Codec) (t : MutableDirectionTotals) (o : Outcome)

/-- One outcome moves exactly the counter of its bucket. -/
theorem counter_tally (b : Bucket) :
    counter (tally lib t o).toDirectionTotals b =
      counter t.toDirectionTotals b + if bucket o = some b then 1 else 0 := by
  cases o <;> cases b <;> rfl

theorem canonical_tally :
    (tally lib t o).canonicalReceiptGroups = t.canonicalReceiptGroups +
      ((if bucket o = some .spent then 1 else 0) + if bucket o = some .pending then 1 else 0) := by
  cases o <;> rfl

/-- The receipt count of a bucket grows by the receipts of the group put into it. -/
theorem receiptCount_tally (b : Bucket) :
    receiptCount (tally lib t o).toDirectionTotals b =
      receiptCount t.toDirectionTotals b + ((groupIn b o).map (·.receipts.length)).sum := by
  cases o <;> cases b <;> simp [tally, receiptCount, groupIn]

/-- The amount of a bucket grows by the amount of the group put into it. -/
theorem amount_tally (b : Bucket) :
    amount (tally lib t o) b = amount t b + ((groupIn b o).map Group.amount).sum := by
  cases o <;> cases b <;> simp [tally, amount, groupIn]

theorem pendingGroups_tally :
    (tally lib t o).pendingGroups =
      t.pendingGroups ++ (groupIn .pending o).map (Group.listing lib) := by
  cases o <;> simp [tally, groupIn]

theorem unsupportedGroups_tally :
    (tally lib t o).unsupportedGroups =
      t.unsupportedGroups ++ (groupIn .unsupported o).map (Group.listing lib) := by
  cases o <;> simp [tally, groupIn]

end Step

section Run
variable (lib : Codec) (input : ScanInput) (os : List Outcome)

theorem counter_tallied (b : Bucket) :
    counter (tallied lib input os).toDirectionTotals b =
      os.countP (fun o => bucket o = some b) := by
  have h := foldl_total (fun t : MutableDirectionTotals => counter t.toDirectionTotals b)
    (counter_tally lib · · b) os { sourceShard := input.sourceShard }
  rw [tallied, h, ← sum_map_one_eq_countP]
  cases b <;> simp [counter]

theorem canonical_tallied :
    (tallied lib input os).canonicalReceiptGroups =
      counter (tallied lib input os).toDirectionTotals .spent +
        counter (tallied lib input os).toDirectionTotals .pending := by
  have h := foldl_total (fun t : MutableDirectionTotals => t.canonicalReceiptGroups)
    (canonical_tally lib) os { sourceShard := input.sourceShard }
  rw [counter_tallied, counter_tallied, tallied, h, ← sum_map_one_eq_countP,
    ← sum_map_one_eq_countP]
  simp [List.sum_map_add]

theorem receiptCount_tallied (b : Bucket) :
    receiptCount (tallied lib input os).toDirectionTotals b =
      ((groupsIn b os).map (·.receipts.length)).sum := by
  have h := foldl_total
    (fun t : MutableDirectionTotals => receiptCount t.toDirectionTotals b)
    (receiptCount_tally lib · · b) os { sourceShard := input.sourceShard }
  rw [tallied, h, groupsIn, sum_map_flatMap]
  cases b <;> simp [receiptCount]

theorem amount_tallied (b : Bucket) :
    amount (tallied lib input os) b = ((groupsIn b os).map Group.amount).sum := by
  have h := foldl_total (fun t : MutableDirectionTotals => amount t b)
    (amount_tally lib · · b) os { sourceShard := input.sourceShard }
  rw [tallied, h, groupsIn, sum_map_flatMap]
  cases b <;> simp [amount]

theorem pendingGroups_tallied :
    (tallied lib input os).pendingGroups = (groupsIn .pending os).map (Group.listing lib) := by
  have h := foldl_listed (fun t : MutableDirectionTotals => t.pendingGroups)
    (pendingGroups_tally lib) os { sourceShard := input.sourceShard }
  rw [tallied, h, groupsIn, List.map_flatMap, List.nil_append]

theorem unsupportedGroups_tallied :
    (tallied lib input os).unsupportedGroups =
      (groupsIn .unsupported os).map (Group.listing lib) := by
  have h := foldl_listed (fun t : MutableDirectionTotals => t.unsupportedGroups)
    (unsupportedGroups_tally lib) os { sourceShard := input.sourceShard }
  rw [tallied, h, groupsIn, List.map_flatMap, List.nil_append]

end Run

/-- The counters show into which bucket an outcome was put. -/
theorem bucket_eq_of_tally_eq {lib : Codec} {t : MutableDirectionTotals} {o o' : Outcome}
    (h : tally lib t o = tally lib t o') : bucket o = bucket o' := by
  refine Option.ext fun b => ?_
  have hb := counter_tally lib t o b
  rw [h, counter_tally, Nat.add_left_cancel_iff] at hb
  by_cases ho : bucket o = some b
  · by_cases ho' : bucket o' = some b
    · exact iff_of_true ho ho'
    · simp [ho, ho'] at hb
  · by_cases ho' : bucket o' = some b
    · simp [ho, ho'] at hb
    · exact iff_of_false ho ho'

/-- A group is listed as pending exactly when some verdict put it there. -/
theorem mem_pendingGroups_iff {lib : Codec} {input : ScanInput} {totals : DirectionTotals}
    {os : List Outcome} (h : (tallied lib input os).finish = totals) (listing : ReceiptGroup) :
    listing ∈ totals.pendingGroups ↔ ∃ g, .pending g ∈ os ∧ g.listing lib = listing := by
  have hp : totals.pendingGroups = (tallied lib input os).pendingGroups := by rw [← h]; rfl
  rw [hp, pendingGroups_tallied, List.mem_map]
  simp only [mem_groupsIn_pending]

end PublishedTotals
