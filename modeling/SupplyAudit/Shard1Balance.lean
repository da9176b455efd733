import SupplyAudit.ReceiptDestinations
import SupplyAudit.WindowedFlow

/-!
# A historical balance of shard 1

`historical-shard1-balance.py` takes a measured balance back to an earlier block:
it subtracts the credits that shard 0 sent and adds the debits that a source
audit found valid, each in its own window of blocks.
-/

namespace Shard1Balance

open ScriptValues FallibleScan AuditFiles IntervalAudit ReceiptDestinations WindowedFlow

variable (py : PyText)

structure Sum where
  count : Nat := 0
  amount : Int := 0
  deriving DecidableEq

def Sum.add (s : Sum) (amount : Int) : Sum := ⟨s.count + 1, s.amount + amount⟩

/-- The body of the loop of `sum_later_credits`. -/
def addCredit (path : String) (checkpoint cutoff : Int) (s : Sum) (row : Row) :
    Except AuditError Sum :=
  if row.lookup "destination_status" = some (some "not_found") then .ok s
  else do
    let shard ← integer py row ["destination_shard", "to_shard"] path
    if shard ≠ 1 then .ok s
    else do
      let block ← integer py row ["destination_block"] path
      if checkpoint < block ∧ block ≤ cutoff then do
        let amount ← integer py row ["amount_atto", "value_atto"] path
        .ok (s.add amount)
      else .ok s

def sumLaterCredits (path : String) (checkpoint cutoff : Int) (rows : List Row) :
    Except AuditError Sum :=
  rows.foldlM (addCredit py path checkpoint cutoff) {}

/-- The body of the loop of `sum_later_valid_debits`. -/
def addDebit (path : String) (checkpoint cutoff : Int) (s : Sum) (row : Row) :
    Except AuditError Sum := do
  let shard ← integer py row ["audit_source_shard", "signed_source_shard", "source_shard"] path
  if shard ≠ 1 ∨ row.lookup "classification" ≠ some (some "valid_source_debit") then .ok s
  else do
    let block ← integer py row ["audit_source_block", "signed_source_block", "source_block"] path
    if checkpoint < block ∧ block ≤ cutoff then do
      let amount ← integer py row ["amount_atto", "value_atto"] path
      .ok (s.add amount)
    else .ok s

def sumLaterValidDebits (path : String) (checkpoint cutoff : Int) (rows : List Row) :
    Except AuditError Sum :=
  rows.foldlM (addDebit py path checkpoint cutoff) {}

def derive (cutoffBalance credits debits : Int) : Except AuditError Int :=
  let result := cutoffBalance - credits + debits
  if result < 0 then .error (.valueError "derived historical balance is negative") else .ok result

structure Args where
  cutoffBalanceAtto : Int
  checkpointBlock : Int
  cutoffBlock : Int
  credits : String
  debits : String
  expectedBalanceAtto : Option Int := none

structure Result where
  checkpointBlock : Int
  cutoffBlock : Int
  cutoffBalanceAtto : Int
  laterCreditCount : Nat
  laterCreditsAtto : Int
  laterValidDebitCount : Nat
  laterValidDebitsAtto : Int
  derivedHistoricalBalanceAtto : Int
  deriving DecidableEq

def main (args : Args) (creditRows debitRows : List Row) : Except AuditError Result := do
  require (args.checkpointBlock < args.cutoffBlock)
    (.valueError "checkpoint block must be below cutoff block")
  let credits ← sumLaterCredits py args.credits args.checkpointBlock args.cutoffBlock creditRows
  let debits ← sumLaterValidDebits py args.debits args.checkpointBlock args.cutoffBlock debitRows
  let historical ← derive args.cutoffBalanceAtto credits.amount debits.amount
  require (∀ expected ∈ args.expectedBalanceAtto, historical = expected)
    (.valueError ("derived balance " ++ toString historical ++ " != expected " ++
      toString (args.expectedBalanceAtto.getD 0)))
  .ok
    { checkpointBlock := args.checkpointBlock
      cutoffBlock := args.cutoffBlock
      cutoffBalanceAtto := args.cutoffBalanceAtto
      laterCreditCount := credits.count
      laterCreditsAtto := credits.amount
      laterValidDebitCount := debits.count
      laterValidDebitsAtto := debits.amount
      derivedHistoricalBalanceAtto := historical }

/-! ## The debits of an audit -/

/-- A receipt from shard 1, and whether its source was debited. -/
structure Debit where
  sourceBlock : Int
  amount : Int
  valid : Bool
  deriving DecidableEq

variable {py} {path : String}

/-- The row of a debit in the audited source file. -/
structure DebitRow (py : PyText) (path : String) (row : Row) (debit : Debit) : Prop where
  shard : integer py row ["audit_source_shard", "signed_source_shard", "source_shard"] path = .ok 1
  classification : row.lookup "classification" = some (some "valid_source_debit") ↔
    debit.valid = true
  block : debit.valid = true → integer py row
    ["audit_source_block", "signed_source_block", "source_block"] path = .ok debit.sourceBlock
  amount : debit.valid = true →
    integer py row ["amount_atto", "value_atto"] path = .ok debit.amount

/-- The row of a receipt from another shard. -/
def OtherDebitRow (py : PyText) (path : String) (row : Row) : Prop :=
  ∃ shard, integer py row ["audit_source_shard", "signed_source_shard", "source_shard"] path =
    .ok shard ∧ shard ≠ 1

inductive Audits (py : PyText) (path : String) : List Row → List Debit → Prop where
  | nil : Audits py path [] []
  | debit {row : Row} {debit : Debit} {rows : List Row} {debits : List Debit} :
      DebitRow py path row debit → Audits py path rows debits →
        Audits py path (row :: rows) (debit :: debits)
  | other {row : Row} {rows : List Row} {debits : List Debit} :
      OtherDebitRow py path row → Audits py path rows debits → Audits py path (row :: rows) debits

def debitEvents (debits : List Debit) : Events Int :=
  (debits.filter Debit.valid).map fun debit => (debit.sourceBlock, debit.amount)

def creditEvents (credits : List Credit) : Events Int :=
  credits.filterMap fun credit => credit.applied.map fun block => (block, credit.amount)

variable {checkpoint cutoff : Int}

/-- A valid debit counts in the window of its source block. -/
theorem addDebit_row {row : Row} {debit : Debit} (h : DebitRow py path row debit) (s : Sum) :
    ∃ next, addDebit py path checkpoint cutoff s row = .ok next ∧
      next.amount = s.amount + windowSum (debitEvents [debit]) checkpoint cutoff := by
  cases hvalid : debit.valid with
  | false =>
    have hclass : row.lookup "classification" ≠ some (some "valid_source_debit") := by
      rw [ne_eq, h.classification, hvalid]
      exact Bool.false_ne_true
    refine ⟨s, ?_, ?_⟩
    · simp only [addDebit, h.shard, bind_ok, if_pos (Or.inr hclass)]
    · simp [debitEvents, hvalid]
  | true =>
    have hclass := h.classification.mpr hvalid
    have hsum : windowSum (debitEvents [debit]) checkpoint cutoff =
        if checkpoint < debit.sourceBlock ∧ debit.sourceBlock ≤ cutoff then debit.amount else 0 := by
      simp [debitEvents, hvalid, windowSum_cons]
    simp only [addDebit, h.shard, bind_ok, hclass, ne_eq, not_true_eq_false, or_self, if_false,
      h.block hvalid, hsum]
    split
    · exact ⟨s.add debit.amount, by simp only [h.amount hvalid, bind_ok], rfl⟩
    · exact ⟨s, rfl, (Int.add_zero _).symm⟩

theorem windowSum_debits (debit : Debit) (debits : List Debit) :
    windowSum (debitEvents (debit :: debits)) checkpoint cutoff =
      windowSum (debitEvents [debit]) checkpoint cutoff +
        windowSum (debitEvents debits) checkpoint cutoff := by
  cases hvalid : debit.valid with
  | false => simp [debitEvents, hvalid]
  | true => simp [debitEvents, hvalid, windowSum_cons]

theorem foldlM_addDebit {rows : List Row} {debits : List Debit}
    (h : Audits py path rows debits) (s : Sum) :
    ∃ last, rows.foldlM (addDebit py path checkpoint cutoff) s = .ok last ∧
      last.amount = s.amount + windowSum (debitEvents debits) checkpoint cutoff := by
  induction h generalizing s with
  | nil => exact ⟨s, rfl, (Int.add_zero _).symm⟩
  | @debit row debit rows debits hrow hrest ih =>
    obtain ⟨next, hnext, hamount⟩ := addDebit_row hrow s
    obtain ⟨last, hlast, htotal⟩ := ih next
    refine ⟨last, by rw [List.foldlM_cons, hnext, bind_ok, hlast], ?_⟩
    rw [htotal, hamount, windowSum_debits debit debits, Int.add_assoc]
  | @other row rows debits hrow hrest ih =>
    obtain ⟨shard, hshard, hne⟩ := hrow
    obtain ⟨last, hlast, htotal⟩ := ih s
    refine ⟨last, ?_, htotal⟩
    rw [List.foldlM_cons, addDebit, hshard, bind_ok, if_pos (Or.inl hne), bind_ok, hlast]

/-! ## The credits of a mapping -/

theorem toString_ne_empty (z : Int) : toString z ≠ "" := by
  intro h
  have hread := NumeralText.readInt_toString z
  rw [h] at hread
  cases hread

theorem integer_first {row : Row} {name : String} {names : List String} {text : String} {n : Int}
    (hlookup : row.lookup name = some (some text)) (hne : text ≠ "")
    (hint : py.int text = some n) : integer py row (name :: names) path = .ok n := by
  have hfirst : firstField row (name :: names) = some (some text) := by
    rw [firstField, List.findSome?_cons, hlookup]
    simp [Option.filter, hne]
  simp only [integer, required, hfirst, bind_ok, PyText.parsed, hint, raisePython]

/-- A mapped row as it is read again. -/
theorem dictRow_cells (m : Mapped) :
    dictRow fields m.cells =
      match m.destination with
      | .notFound =>
        [("tx_hash", some m.row.txHash), ("source_block", some (toString m.row.sourceBlock)),
          ("destination_shard", some (toString m.row.destinationShard)),
          ("amount_atto", some (m.row.amountAtto.getD "")),
          ("destination_status", some "not_found"), ("destination_block", some ""),
          ("destination_block_hash", some "")]
      | .applied block blockHash =>
        [("tx_hash", some m.row.txHash), ("source_block", some (toString m.row.sourceBlock)),
          ("destination_shard", some (toString m.row.destinationShard)),
          ("amount_atto", some (m.row.amountAtto.getD "")),
          ("destination_status", some "applied"), ("destination_block", some (toString block)),
          ("destination_block_hash", some blockHash)] := by
  obtain ⟨row, destination⟩ := m
  cases destination <;> rfl

variable {mapArgs : ReceiptDestinations.Args}

/-- An applied receipt counts in the window of its destination block. -/
theorem addCredit_row (hshard : mapArgs.destinationShard = 1) {m : Mapped} {credit : Credit}
    (h : Maps py mapArgs m credit) (s : Sum) :
    ∃ next, addCredit py path checkpoint cutoff s (dictRow fields m.cells) = .ok next ∧
      next.amount = s.amount + windowSum (creditEvents [credit]) checkpoint cutoff := by
  obtain ⟨text, htext, hne, hint⟩ := h.keeps.amount
  have hdestination := h.destination
  cases happlied : credit.applied with
  | none =>
    simp only [happlied] at hdestination
    refine ⟨s, ?_, by simp [creditEvents, happlied]⟩
    rw [dictRow_cells, hdestination]
    simp [addCredit, List.lookup_cons]
  | some block =>
    simp only [happlied] at hdestination
    obtain ⟨blockHash, heq⟩ := hdestination
    have hsum : windowSum (creditEvents [credit]) checkpoint cutoff =
        if checkpoint < block ∧ block ≤ cutoff then credit.amount else 0 := by
      simp [creditEvents, happlied, windowSum_cons]
    obtain ⟨row, hrow⟩ : ∃ row, row = dictRow fields m.cells := ⟨_, rfl⟩
    rw [← hrow]
    rw [dictRow_cells, heq] at hrow
    simp only at hrow
    have hstatus : row.lookup "destination_status" ≠ some (some "not_found") := by
      rw [hrow]
      simp [List.lookup_cons]
    have hshardCell : integer py row ["destination_shard", "to_shard"] path = .ok 1 := by
      have hcell : row.lookup "destination_shard" = some (some (toString (1 : Int))) := by
        rw [hrow, h.keeps.shard, hshard]
        simp [List.lookup_cons]
      exact integer_first hcell (toString_ne_empty 1) (py.int_toString 1)
    have hblockCell : integer py row ["destination_block"] path = .ok block := by
      have hcell : row.lookup "destination_block" = some (some (toString block)) := by
        rw [hrow]
        simp [List.lookup_cons]
      exact integer_first hcell (toString_ne_empty block) (py.int_toString block)
    have hamountCell : integer py row ["amount_atto", "value_atto"] path = .ok credit.amount := by
      have hcell : row.lookup "amount_atto" = some (some text) := by
        rw [hrow, htext]
        simp [List.lookup_cons]
      exact integer_first hcell hne hint
    simp only [addCredit, if_neg hstatus, hshardCell, hblockCell, bind_ok, ne_eq,
      not_true_eq_false, if_false, hsum]
    split
    · exact ⟨s.add credit.amount, by simp only [hamountCell, bind_ok], rfl⟩
    · exact ⟨s, rfl, (Int.add_zero _).symm⟩

theorem windowSum_credits (credit : Credit) (credits : List Credit) :
    windowSum (creditEvents (credit :: credits)) checkpoint cutoff =
      windowSum (creditEvents [credit]) checkpoint cutoff +
        windowSum (creditEvents credits) checkpoint cutoff := by
  cases happlied : credit.applied with
  | none => simp [creditEvents, happlied]
  | some block => simp [creditEvents, happlied, windowSum_cons]

theorem foldlM_addCredit (hshard : mapArgs.destinationShard = 1) {mapped : List Mapped}
    {credits : List Credit} (h : List.Forall₂ (Maps py mapArgs) mapped credits) (s : Sum) :
    ∃ last, (mapped.map fun m => dictRow fields m.cells).foldlM
        (addCredit py path checkpoint cutoff) s = .ok last ∧
      last.amount = s.amount + windowSum (creditEvents credits) checkpoint cutoff := by
  induction h generalizing s with
  | nil => exact ⟨s, rfl, (Int.add_zero _).symm⟩
  | @cons m credit mapped credits hrow hrest ih =>
    obtain ⟨next, hnext, hamount⟩ := addCredit_row hshard hrow s
    obtain ⟨last, hlast, htotal⟩ := ih next
    refine ⟨last, by rw [List.map_cons, List.foldlM_cons, hnext, bind_ok, hlast], ?_⟩
    rw [htotal, hamount, windowSum_credits credit credits, Int.add_assoc]

/-- The credits that are summed from a written mapping. -/
theorem sumLaterCredits_ok (path : String) (checkpoint cutoff : Int)
    (hshard : mapArgs.destinationShard = 1) {mapped : List Mapped} {credits : List Credit}
    (h : List.Forall₂ (Maps py mapArgs) mapped credits) :
    ∃ sum, sumLaterCredits py path checkpoint cutoff
        (dictRows (fields :: mapped.map Mapped.cells)) = .ok sum ∧
      sum.amount = windowSum (creditEvents credits) checkpoint cutoff := by
  obtain ⟨sum, hsum, hamount⟩ := foldlM_addCredit hshard h {}
  refine ⟨sum, ?_, hamount.trans (Int.zero_add _)⟩
  rw [sumLaterCredits, dictRows, List.map_map]
  exact hsum

theorem sumLaterValidDebits_ok (checkpoint cutoff : Int) {rows : List Row} {debits : List Debit}
    (h : Audits py path rows debits) :
    ∃ sum, sumLaterValidDebits py path checkpoint cutoff rows = .ok sum ∧
      sum.amount = windowSum (debitEvents debits) checkpoint cutoff := by
  obtain ⟨sum, hsum, hamount⟩ := foldlM_addDebit h {}
  exact ⟨sum, hsum, hamount.trans (Int.zero_add _)⟩

/-- Receipts from before the minimal source block do not reach into the window. -/
theorem windowSum_recent {credits : List Credit}
    (h : ∀ credit ∈ credits, ∀ block, credit.applied = some block → checkpoint < block →
      mapArgs.minimumSourceBlock ≤ credit.sourceBlock) :
    windowSum (creditEvents (recent mapArgs credits)) checkpoint cutoff =
      windowSum (creditEvents credits) checkpoint cutoff := by
  induction credits with
  | nil => rfl
  | cons credit credits ih =>
    obtain ⟨hfirst, hrest⟩ := List.forall_mem_cons.mp h
    rw [windowSum_credits credit credits, ← ih hrest]
    by_cases hrecent : mapArgs.minimumSourceBlock ≤ credit.sourceBlock
    · rw [recent, List.filter_cons_of_pos (by simpa using hrecent), windowSum_credits credit]
      rfl
    · have hzero : windowSum (creditEvents [credit]) checkpoint cutoff = 0 := by
        cases happlied : credit.applied with
        | none => simp [creditEvents, happlied]
        | some block =>
          have hold : ¬ checkpoint < block := fun hlater => hrecent (hfirst block happlied hlater)
          simp [creditEvents, happlied, windowSum_cons, hold]
      rw [recent, List.filter_cons_of_neg (by simpa using hrecent), hzero, zero_add]
      rfl

/-! ## Taking a balance back -/

/-- The balance of shard 1 from a block on: it is never negative, takes in every applied receipt
at its destination block, and gives out every valid debit at its source block. -/
structure History where
  start : Int
  balance : Int → Int
  credits : List Credit
  debits : List Debit
  nonneg : ∀ b, start ≤ b → 0 ≤ balance b
  evolves : Evolves balance (creditEvents credits) (debitEvents debits) start

variable {h : History} {debitRows : List Row} {args : Args}

/-- The script takes the balance at a block back to any earlier block of the history. -/
theorem main_derives (hshard : mapArgs.destinationShard = 1) {mapped : List Mapped}
    (hmaps : List.Forall₂ (Maps py mapArgs) mapped (recent mapArgs h.credits))
    (hmin : ∀ credit ∈ h.credits, ∀ block, credit.applied = some block → h.start < block →
      mapArgs.minimumSourceBlock ≤ credit.sourceBlock)
    (haudits : Audits py args.debits debitRows h.debits)
    (hstart : h.start ≤ args.checkpointBlock) (hless : args.checkpointBlock < args.cutoffBlock)
    (hbalance : args.cutoffBalanceAtto = h.balance args.cutoffBlock)
    (hexpected : ∀ expected ∈ args.expectedBalanceAtto,
      h.balance args.checkpointBlock = expected) :
    ∃ result, main py args (dictRows (fields :: mapped.map Mapped.cells)) debitRows = .ok result ∧
      result.derivedHistoricalBalanceAtto = h.balance args.checkpointBlock := by
  have hlater : ∀ credit ∈ h.credits, ∀ block, credit.applied = some block →
      args.checkpointBlock < block → mapArgs.minimumSourceBlock ≤ credit.sourceBlock :=
    fun credit hcredit block happlied hblock =>
      hmin credit hcredit block happlied (Int.lt_of_le_of_lt hstart hblock)
  obtain ⟨credits, hcredits, hcreditSum⟩ :=
    sumLaterCredits_ok args.credits args.checkpointBlock args.cutoffBlock hshard hmaps
  obtain ⟨debits, hdebits, hdebitSum⟩ :=
    sumLaterValidDebits_ok args.checkpointBlock args.cutoffBlock haudits
  have hback := (h.evolves.later hstart).derive (Int.le_of_lt hless)
  have hderived : derive args.cutoffBalanceAtto credits.amount debits.amount =
      .ok (h.balance args.checkpointBlock) := by
    have hnonneg := h.nonneg args.checkpointBlock hstart
    rw [derive, hbalance, hcreditSum, hdebitSum, windowSum_recent hlater, hback]
    exact if_neg (Int.not_lt.mpr hnonneg)
  unfold main
  simp only [require_of hless, hcredits, hdebits, hderived, require_of hexpected, bind_ok]
  exact ⟨_, rfl, rfl⟩

/-- With the credits as the mapping writes them and the audited debits, the balance at any later
block gives the balance at the start, directly or by way of a block in between. -/
theorem derivation_inverts (py : PyText) (h : History) (mapArgs : ReceiptDestinations.Args)
    {node : ReceiptDestinations.Node} {find : String → Option CxReceipt}
    {taken : String → Bool} {receiptRows debitRows : List Row} (creditPath debitPath : String)
    (hnode : Answers node find) (hknows : ∀ credit ∈ h.credits, Knows py find credit)
    (hlists : Lists py mapArgs receiptRows h.credits)
    (haudits : Audits py debitPath debitRows h.debits)
    (hshard : mapArgs.destinationShard = 1)
    (hbatch : 0 < mapArgs.batchSize ∧ 0 < mapArgs.retries)
    (hfree : taken mapArgs.output = false ∧ taken (mapArgs.output ++ ".partial") = false)
    (hmissing : mapArgs.allowMissing = true ∨ ∀ credit ∈ h.credits, credit.applied ≠ none)
    (hmin : ∀ credit ∈ h.credits, ∀ block, credit.applied = some block → h.start < block →
      mapArgs.minimumSourceBlock ≤ credit.sourceBlock) :
    ∃ output, ReceiptDestinations.main py node mapArgs taken receiptRows = .ok output ∧
      ∀ cutoff, h.start < cutoff → ∃ direct,
        main py ⟨h.balance cutoff, h.start, cutoff, creditPath, debitPath, none⟩
            (dictRows output.file) debitRows = .ok direct ∧
          direct.derivedHistoricalBalanceAtto = h.balance h.start ∧
          ∀ middle, h.start < middle → middle < cutoff → ∃ upper lower,
            main py ⟨h.balance cutoff, middle, cutoff, creditPath, debitPath, none⟩
                (dictRows output.file) debitRows = .ok upper ∧
              main py ⟨upper.derivedHistoricalBalanceAtto, h.start, middle, creditPath, debitPath,
                  none⟩ (dictRows output.file) debitRows = .ok lower ∧
              lower.derivedHistoricalBalanceAtto = direct.derivedHistoricalBalanceAtto := by
  obtain ⟨mapped, missing, hmain, hmaps⟩ :=
    main_maps hnode hbatch.1 hbatch.2 hfree hlists hknows hmissing
  have hderives : ∀ first last balance, h.start ≤ first → first < last →
      balance = h.balance last → ∃ result,
        main py ⟨balance, first, last, creditPath, debitPath, none⟩
            (dictRows (fields :: mapped.map Mapped.cells)) debitRows = .ok result ∧
          result.derivedHistoricalBalanceAtto = h.balance first :=
    fun first last balance hfirst hlast hbalance =>
      main_derives hshard hmaps hmin haudits hfirst hlast hbalance fun _ hsome => by cases hsome
  refine ⟨_, hmain, fun cutoff hcutoff => ?_⟩
  obtain ⟨direct, hdirect, hvalue⟩ := hderives h.start cutoff _ (Int.le_refl _) hcutoff rfl
  refine ⟨direct, hdirect, hvalue, fun middle hmiddle hbelow => ?_⟩
  obtain ⟨upper, hupper, hbetween⟩ :=
    hderives middle cutoff _ (Int.le_of_lt hmiddle) hbelow rfl
  obtain ⟨lower, hlower, hlowest⟩ :=
    hderives h.start middle _ (Int.le_refl _) hmiddle hbetween
  exact ⟨upper, lower, hupper, hlower, hlowest.trans hvalue.symm⟩

/-! ## A short history -/

/-- Receipts with their own hashes can be looked up by them. -/
def findCredit (credits : List Credit) (txHash : String) : Option CxReceipt :=
  (credits.find? fun credit => credit.txHash = txHash).bind fun credit =>
    credit.applied.map fun block => ⟨credit.txHash, .number credit.amount, .number block, ""⟩

/-- A node that knows these receipts. -/
def creditNode (credits : List Credit) : ReceiptDestinations.Node where
  batch requests :=
    .ok (requests.map fun request => ⟨request.id, none, findCredit credits request.txHash⟩)

theorem answers_creditNode (credits : List Credit) :
    Answers (creditNode credits) (findCredit credits) :=
  fun _ _ => ⟨_, rfl, .refl _⟩

/-- Two credits, one of them never applied, and two debits, one of them leaked. -/
def shortCredits : List Credit := [⟨"0xa", 50, 3, some 11⟩, ⟨"0xb", 7, 4, none⟩]

def shortDebits : List Debit := [⟨15, 20, true⟩, ⟨16, 999, false⟩]

def shortReceipts : List Row :=
  [[("to_shard", some "1"), ("source_block", some "3"), ("tx_hash", some "0xA"),
      ("amount_atto", some "50")],
    [("destination_shard", some "1"), ("source_block", some "4"), ("receipt_tx_hash", some "0xb"),
      ("value_atto", some "7")]]

def shortAudit : List Row :=
  [[("audit_source_shard", some "1"), ("audit_source_block", some "15"),
      ("classification", some "valid_source_debit"), ("amount_atto", some "20")],
    [("signed_source_shard", some "1"), ("signed_source_block", some "16"),
      ("classification", some "rollback_leak"), ("amount_atto", some "999")]]

/-- The balance that the events of a short history give, from block 10 on. -/
def shortBalance (b : Int) : Int :=
  970 + windowSum (creditEvents shortCredits) 10 b - windowSum (debitEvents shortDebits) 10 b

theorem shortBalance_eq (b : Int) :
    shortBalance b = 970 + (if 11 ≤ b then 50 else 0) - if 15 ≤ b then 20 else 0 := by
  have hcredits : creditEvents shortCredits = [(11, 50)] := rfl
  have hdebits : debitEvents shortDebits = [(15, 20)] := rfl
  rw [shortBalance, hcredits, hdebits]
  simp [windowSum_cons]

def shortHistory : History where
  start := 10
  balance := shortBalance
  credits := shortCredits
  debits := shortDebits
  nonneg := by
    intro b _
    rw [shortBalance_eq]
    split <;> split <;> omega
  evolves := by
    intro b hb
    have hnext : b ≤ b + 1 := by omega
    rw [shortBalance, shortBalance, windowSum_add _ hb hnext, windowSum_add _ hb hnext]
    omega

def shortArgs : ReceiptDestinations.Args where
  input := "outgoing.csv"
  output := "destinations.csv"
  destinationShard := 1
  allowMissing := true

/-- No file is in the way. -/
def emptyDirectory (_ : String) : Bool := false

theorem derivation_inverts_short : ∃ output,
    ReceiptDestinations.main PyText.ascii (creditNode shortCredits) shortArgs emptyDirectory
        shortReceipts = .ok output ∧
      ∃ direct, main PyText.ascii ⟨shortBalance 20, 10, 20, "destinations.csv", "audit.csv", none⟩
          (dictRows output.file) shortAudit = .ok direct ∧
        direct.derivedHistoricalBalanceAtto = shortBalance 10 := by
  have hknows : ∀ credit ∈ shortHistory.credits,
      Knows PyText.ascii (findCredit shortCredits) credit := by
    intro credit hcredit
    change credit ∈ shortCredits at hcredit
    simp only [shortCredits, List.mem_cons, List.not_mem_nil, or_false] at hcredit
    obtain rfl | rfl := hcredit
    · exact ⟨_, rfl, by decide, rfl, rfl⟩
    · change findCredit shortCredits "0xb" = none
      rfl
  have hlists : Lists PyText.ascii shortArgs shortReceipts shortHistory.credits := by
    apply Lists.credit ⟨by decide, by decide, ⟨"0xA", by decide, by decide⟩,
      ⟨"50", by decide, by decide⟩⟩
    apply Lists.credit ⟨by decide, by decide, ⟨"0xb", by decide, by decide⟩,
      ⟨"7", by decide, by decide⟩⟩
    exact .nil
  have haudits : Audits PyText.ascii "audit.csv" shortAudit shortHistory.debits := by
    apply Audits.debit ⟨by decide, by decide, fun _ => by decide, fun _ => by decide⟩
    have hleaked : ∀ {P : Prop}, (⟨16, 999, false⟩ : Debit).valid = true → P :=
      fun h => absurd h Bool.false_ne_true
    apply Audits.debit ⟨by decide, by decide, hleaked, hleaked⟩
    exact .nil
  have hmin : ∀ credit ∈ shortHistory.credits, ∀ block, credit.applied = some block →
      shortHistory.start < block → shortArgs.minimumSourceBlock ≤ credit.sourceBlock := by
    intro credit hcredit block _ _
    change credit ∈ shortCredits at hcredit
    simp only [shortCredits, List.mem_cons, List.not_mem_nil, or_false] at hcredit
    obtain rfl | rfl := hcredit <;> decide
  have hfree : emptyDirectory shortArgs.output = false ∧
      emptyDirectory (shortArgs.output ++ ".partial") = false := ⟨rfl, rfl⟩
  obtain ⟨output, houtput, hrun⟩ := derivation_inverts PyText.ascii shortHistory shortArgs
    "destinations.csv" "audit.csv" (answers_creditNode shortCredits) hknows hlists haudits rfl
    ⟨by decide, by decide⟩ hfree (Or.inl rfl) hmin
  obtain ⟨direct, hdirect, hvalue, -⟩ := hrun 20 (by decide)
  exact ⟨output, houtput, direct, hdirect, hvalue⟩

end Shard1Balance
