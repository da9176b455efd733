import SupplyAudit.StateDiffExactness
import SupplyAudit.StateDiffRpc

/-!
# What the state-difference check accepts

Against a node that answers from one history the check passes exactly when every
row has the balances, nonces and delta of that history. Which attempts failed,
the order of the replies and the batch size do not show in the report. An exported
difference of two states passes unless an address is missing, with the same sums.
-/

namespace StateDiffAcceptance

open NumeralText ByteWords ScriptValues FallibleScan AuditFiles ReceiptKeys ChainDatabase StateTrie
open CreatedAccounts TransitionBlocks BatchReplies StateDiffRpc HistoricalStateDiff
open StateDiffExactness

/-! ## A node that answers from one history -/

/-- What the history answers to the request of a number. -/
def answerTo (history : History) (calls : List Call) (id : Int) : Option String :=
  (calls[id.toNat]?).map (answer history)

/-- Whatever a batch call returns, the values in it are those of the history. -/
def Truthful (transport : Transport) (history : History) : Prop :=
  ∀ start calls i items, transport.attempt start calls i = .ok items →
    Honest (answerTo history calls) (requestIds calls) items

/-- One of the six attempts of a batch returns a reply to each of its requests. -/
def Available (transport : Transport) (history : History) : Prop :=
  ∀ start calls, ∃ i ≤ 5, ∃ items, transport.attempt start calls i = .ok items ∧
    items.length = calls.length ∧ Complete (answerTo history calls) (requestIds calls) items

variable {history : History} {transport : Transport}

theorem map_answerTo (calls : List Call) :
    (requestIds calls).map (answerTo history calls) =
      calls.map fun call => some (answer history call) := by
  rw [requestIds, List.map_map]
  apply List.ext_getElem
  · simp
  · intro i hi hi'
    simp only [List.length_map, List.length_range] at hi
    simp [answerTo, List.getElem?_eq_getElem hi]

theorem readBatch_ok {calls : List Call} {items : List Item}
    (hhonest : Honest (answerTo history calls) (requestIds calls) items)
    {values : List (Option String)} (h : readBatch calls items = .ok values) :
    values = calls.map fun call => some (answer history call) := by
  rw [readBatch, guard_eq_ok] at h
  rw [answersAt_honest hhonest h.2, map_answerTo]

/-- A batch that is read has the answers of the history, in the order of the calls. -/
theorem rpcBatch_ok (htruthful : Truthful transport history) {start : Int} {calls : List Call}
    {values : List (Option String)}
    (h : rpcBatch (transport.attempt start calls) calls = .ok values) :
    values = calls.map fun call => some (answer history call) := by
  rw [rpcBatch] at h
  cases hretry : retryFrom (fun i => transport.attempt start calls i >>= readBatch calls) 0 5 with
  | error err =>
    rw [hretry] at h
    cases h
  | ok found =>
    rw [hretry] at h
    cases h
    have hsound : ∀ i found, (transport.attempt start calls i >>= readBatch calls) = .ok found →
        found = calls.map fun call => some (answer history call) := by
      intro i found hfound
      obtain ⟨items, hitems, hread⟩ := bind_eq_ok.mp hfound
      exact readBatch_ok (htruthful start calls i items hitems) hread
    exact retryFrom_sound hsound hretry

theorem rpcBatch_available (htruthful : Truthful transport history)
    (havailable : Available transport history) (start : Int) (calls : List Call) :
    rpcBatch (transport.attempt start calls) calls =
      .ok (calls.map fun call => some (answer history call)) := by
  obtain ⟨i, hi, items, hitems, hlength, hcomplete⟩ := havailable start calls
  have hread : readBatch calls items = .ok (calls.map fun call => some (answer history call)) := by
    have hcount : (byId items).length = calls.length :=
      (length_byId hcomplete.distinct).trans hlength
    rw [readBatch, if_neg (not_not.mpr hcount), answersAt_complete hcomplete, map_answerTo]
  have hattempt : (transport.attempt start calls (0 + i) >>= readBatch calls) =
      .ok (calls.map fun call => some (answer history call)) := by
    rw [Nat.zero_add, hitems]
    exact hread
  have hagree : ∀ j values, (transport.attempt start calls j >>= readBatch calls) = .ok values →
      values = calls.map fun call => some (answer history call) := by
    intro j values hvalues
    obtain ⟨items, hitems, hread⟩ := bind_eq_ok.mp hvalues
    exact readBatch_ok (htruthful start calls j items hitems) hread
  rw [rpcBatch, retryFrom_of_ok hi hattempt hagree]

/-! ## What a row must say -/

def balanceAt (history : History) (block : Int) (address : String) : Int :=
  (((history block address).getD ⟨0, 0, []⟩).balance : Nat)

def nonceAt (history : History) (block : Int) (address : String) : Int :=
  (((history block address).getD ⟨0, 0, []⟩).nonce : Nat)

/-- A row that has the values of the history at both blocks. -/
structure Agrees (py : PyText) (history : History) (args : StateDiffRpc.Args) (row : Row)
    (address : String) (change : ChangeType) : Prop where
  named : row.lookup "address" = some (some address)
  present : address ≠ ""
  oldBalance : intField py row "old_balance_atto" = .ok (balanceAt history args.oldBlock address)
  newBalance : intField py row "new_balance_atto" = .ok (balanceAt history args.newBlock address)
  oldNonce : intField py row "old_nonce" = .ok (nonceAt history args.oldBlock address)
  newNonce : intField py row "new_nonce" = .ok (nonceAt history args.newBlock address)
  delta : intField py row "balance_delta_atto" =
    .ok (balanceAt history args.newBlock address - balanceAt history args.oldBlock address)
  kind : row.lookup "change_type" = some (some change.text)

/-- The address of a row, and its change. -/
def addressIn (row : Row) : String := ((row.lookup "address").join).getD ""

def changeIn (row : Row) : Option String := (row.lookup "change_type").join

/-- What the history says about the delta of a row. -/
def deltaIn (history : History) (args : StateDiffRpc.Args) (row : Row) : Int :=
  balanceAt history args.newBlock (addressIn row) - balanceAt history args.oldBlock (addressIn row)

def AllAgree (py : PyText) (history : History) (args : StateDiffRpc.Args) (rows : List Row) : Prop :=
  ∀ row ∈ rows, ∃ address change, Agrees py history args row address change

/-- The totals of the rows by the history. -/
def totals (history : History) (args : StateDiffRpc.Args) (rows : List Row) :
    StateDiffRpc.Progress where
  created := rows.countP fun row => changeIn row = some "created"
  changed := rows.countP fun row => changeIn row = some "changed"
  deleted := rows.countP fun row => changeIn row = some "deleted"
  positiveDelta := (rows.map fun row => max (deltaIn history args row) 0).sum
  negativeDelta := (rows.map fun row => max (-deltaIn history args row) 0).sum

/-! ## One row -/

section Rows

variable {txt : AccountText} {args : StateDiffRpc.Args}

def fourCalls (args : StateDiffRpc.Args) (address : String) : List Call :=
  [⟨.getBalance, address, args.oldBlock⟩, ⟨.getBalance, address, args.newBlock⟩,
    ⟨.getTransactionCount, address, args.oldBlock⟩, ⟨.getTransactionCount, address, args.newBlock⟩]

theorem rowCalls_ok {row : Row} {calls : List Call} :
    rowCalls args row = .ok calls ↔
      ∃ address, row.lookup "address" = some (some address) ∧ address ≠ "" ∧
        calls = fourCalls args address := by
  rw [rowCalls]
  cases hrow : row.lookup "address" with
  | none => simp [Row.get, hrow, raisePython]
  | some cell =>
    by_cases hempty : cell.getD "" = ""
    · have hnone : ¬ ∃ address, some cell = some (some address) ∧ address ≠ "" ∧
          calls = fourCalls args address := by
        rintro ⟨address, hcell, hne, -⟩
        rw [Option.some.inj hcell] at hempty
        exact hne hempty
      refine iff_of_false ?_ hnone
      simp only [Row.get, hrow, raisePython, bind_ok, if_pos hempty, bind_eq_ok]
      rintro ⟨key, -, h⟩
      cases h
    · cases cell with
      | none => exact absurd rfl hempty
      | some address =>
        simp only [Option.getD_some] at hempty
        simp only [Row.get, hrow, raisePython, bind_ok, Option.getD_some, if_neg hempty,
          Except.ok.injEq]
        constructor
        · rintro rfl
          exact ⟨address, rfl, hempty, rfl⟩
        · rintro ⟨address', hsame, -, rfl⟩
          rw [Option.some.inj (Option.some.inj hsame)]
          rfl

theorem checkField_ok {row : Row} {field what : String} {found : Int} {u : Unit} :
    checkField txt row field what found = .ok u ↔ intField txt.toPyText row field = .ok found := by
  simp only [checkField, bind_eq_ok, require_ok]
  constructor
  · rintro ⟨listed, hlisted, rfl⟩
    exact hlisted
  · exact fun h => ⟨found, h, rfl⟩

/-- The progress after a row with this change and delta. -/
def recordChange (p : StateDiffRpc.Progress) (change : ChangeType × Int) :
    StateDiffRpc.Progress where
  created := p.created + if change.1 = .created then 1 else 0
  changed := p.changed + if change.1 = .changed then 1 else 0
  deleted := p.deleted + if change.1 = .deleted then 1 else 0
  positiveDelta := p.positiveDelta + max change.2 0
  negativeDelta := p.negativeDelta + max (-change.2) 0

theorem countChange_ok {p p' : StateDiffRpc.Progress} {row : Row} :
    countChange p row = .ok p' ↔ ∃ change : ChangeType,
      row.lookup "change_type" = some (some change.text) ∧ p' = recordChange p (change, 0) := by
  have hname : ∀ kind : Option String, (∃ change : ChangeType, some kind = some (some change.text) ∧
      p' = recordChange p (change, 0)) ↔
        (kind = some "created" ∧ p' = recordChange p (.created, 0)) ∨
        (kind = some "changed" ∧ p' = recordChange p (.changed, 0)) ∨
        (kind = some "deleted" ∧ p' = recordChange p (.deleted, 0)) := by
    intro kind
    constructor
    · rintro ⟨change, hkind, hp⟩
      cases change with
      | created => exact .inl ⟨Option.some.inj hkind, hp⟩
      | changed => exact .inr (.inl ⟨Option.some.inj hkind, hp⟩)
      | deleted => exact .inr (.inr ⟨Option.some.inj hkind, hp⟩)
    · rintro (⟨rfl, hp⟩ | ⟨rfl, hp⟩ | ⟨rfl, hp⟩)
      · exact ⟨.created, rfl, hp⟩
      · exact ⟨.changed, rfl, hp⟩
      · exact ⟨.deleted, rfl, hp⟩
  rw [countChange]
  cases hrow : row.lookup "change_type" with
  | none => simp [Row.get, hrow, raisePython]
  | some kind =>
    rw [hname]
    simp only [Row.get, hrow, raisePython, bind_ok]
    by_cases hcreated : kind = some "created"
    · subst hcreated
      simp [recordChange, eq_comm]
    · by_cases hchanged : kind = some "changed"
      · subst hchanged
        simp [recordChange, eq_comm]
      · by_cases hdeleted : kind = some "deleted"
        · subst hdeleted
          simp [recordChange, eq_comm]
        · simp [hcreated, hchanged, hdeleted]

/-- A row with its true delta. -/
def RowAgrees (py : PyText) (history : History) (args : StateDiffRpc.Args) (row : Row)
    (change : ChangeType × Int) : Prop :=
  ∃ address, Agrees py history args row address change.1 ∧
    change.2 = balanceAt history args.newBlock address - balanceAt history args.oldBlock address

theorem Agrees.addressIn_eq {py : PyText} {row : Row} {address : String} {change : ChangeType}
    (h : Agrees py history args row address change) : addressIn row = address := by
  rw [addressIn, h.named]
  rfl

theorem answer_balance (block : Int) (address : String) :
    parseHex txt (answer history ⟨.getBalance, address, block⟩) =
      .ok (balanceAt history block address) :=
  parseHex_quantity _

theorem answer_nonce (block : Int) (address : String) :
    parseHex txt (answer history ⟨.getTransactionCount, address, block⟩) =
      .ok (nonceAt history block address) :=
  parseHex_quantity _

theorem recordChange_delta (p : StateDiffRpc.Progress) (change : ChangeType) (delta : Int) :
    recordChange
      { p with
        positiveDelta := p.positiveDelta + if 0 < delta then delta else 0
        negativeDelta := p.negativeDelta + if delta < 0 then -delta else 0 } (change, 0) =
      recordChange p (change, delta) := by
  have hpositive : (if 0 < delta then delta else 0) = max delta 0 := by split <;> omega
  have hnegative : (if delta < 0 then -delta else 0) = max (-delta) 0 := by split <;> omega
  simp only [recordChange, hpositive, hnegative]
  simp

/-- Where the values of a row are in the answers to its batch. -/
theorem hexAt_batch {batch : List Row} {row : Row} {i j : Nat} (hrow : batch[i]? = some row)
    (hj : j < 4) {call : Call} (hcall : (fourCalls args (addressIn row))[j]? = some call) :
    hexAt txt ((batch.flatMap fun row => fourCalls args (addressIn row)).map fun call =>
      some (answer history call)) (i * 4 + j) = parseHex txt (answer history call) := by
  have hlength : ∀ row : Row, (fourCalls args (addressIn row)).length = 4 := fun _ => rfl
  have hat : (batch.flatMap fun row => fourCalls args (addressIn row))[i * 4 + j]? =
      some call := by
    rw [getElem?_flatMap hlength batch hj, hrow]
    exact hcall
  rw [hexAt, List.getElem?_map, hat]
  rfl

/-- A row passes when it agrees with the history. -/
theorem checkRow_ok {batch : List Row} {row : Row} {i : Nat} (hrow : batch[i]? = some row)
    (hnamed : row.lookup "address" = some (some (addressIn row))) (hpresent : addressIn row ≠ "")
    {p p' : StateDiffRpc.Progress} :
    checkRow txt ((batch.flatMap fun row => fourCalls args (addressIn row)).map fun call =>
      some (answer history call)) p (row, i) = .ok p' ↔
      ∃ change, RowAgrees txt.toPyText history args row change ∧ p' = recordChange p change := by
  have hvalue : ∀ (j : Nat) (call : Call), j < 4 →
      (fourCalls args (addressIn row))[j]? = some call →
      hexAt txt ((batch.flatMap fun row => fourCalls args (addressIn row)).map fun call =>
        some (answer history call)) (i * 4 + j) = parseHex txt (answer history call) :=
    fun _ _ hj hcall => hexAt_batch hrow hj hcall
  simp only [checkRow, hvalue 0 ⟨.getBalance, addressIn row, args.oldBlock⟩ (by decide) rfl,
    hvalue 1 ⟨.getBalance, addressIn row, args.newBlock⟩ (by decide) rfl,
    hvalue 2 ⟨.getTransactionCount, addressIn row, args.oldBlock⟩ (by decide) rfl,
    hvalue 3 ⟨.getTransactionCount, addressIn row, args.newBlock⟩ (by decide) rfl,
    answer_balance, answer_nonce, bind_ok, bind_eq_ok, checkField_ok, countChange_ok]
  constructor
  · rintro ⟨-, hold, -, hnew, -, holdNonce, -, hnewNonce, -, hdelta, change, hkind, rfl⟩
    refine ⟨(change, _), ⟨addressIn row, ⟨hnamed, hpresent, hold, hnew, holdNonce, hnewNonce,
      hdelta, hkind⟩, rfl⟩, recordChange_delta ..⟩
  · rintro ⟨⟨change, delta⟩, ⟨address, hagrees, hdelta⟩, rfl⟩
    obtain rfl := hagrees.addressIn_eq
    simp only at hagrees hdelta
    subst hdelta
    exact ⟨⟨⟩, hagrees.oldBalance, ⟨⟩, hagrees.newBalance, ⟨⟩, hagrees.oldNonce, ⟨⟩,
      hagrees.newNonce, ⟨⟩, hagrees.delta, change, hagrees.kind, (recordChange_delta ..).symm⟩

/-- The calls of a batch are those of its rows, each of which has an address. -/
theorem batchCalls_ok {batch : List Row} {calls : List (List Call)} :
    batch.mapM (rowCalls args) = .ok calls ↔
      (∀ row ∈ batch, row.lookup "address" = some (some (addressIn row)) ∧ addressIn row ≠ "") ∧
        calls = batch.map fun row => fourCalls args (addressIn row) := by
  have haddress : ∀ row address, row.lookup "address" = some (some address) →
      addressIn row = address := by
    intro row address h
    rw [addressIn, h]
    rfl
  constructor
  · intro h
    have heach : ∀ row ∈ batch, ∀ found, rowCalls args row = .ok found →
        fourCalls args (addressIn row) = id found := by
      intro row _ found hfound
      obtain ⟨address, hnamed, -, rfl⟩ := rowCalls_ok.mp hfound
      rw [haddress row address hnamed]
      rfl
    refine ⟨?_, ?_⟩
    · intro row hrow
      obtain ⟨found, -, hfound⟩ := mapM_ok_left h hrow
      obtain ⟨address, hnamed, hpresent, -⟩ := rowCalls_ok.mp hfound
      rw [haddress row address hnamed]
      exact ⟨hnamed, hpresent⟩
    · rw [map_eq_of_mapM_ok_mem h heach, List.map_id]
  · rintro ⟨hall, rfl⟩
    refine mapM_ok_of fun row hrow => ?_
    obtain ⟨hnamed, hpresent⟩ := hall row hrow
    exact rowCalls_ok.mpr ⟨addressIn row, hnamed, hpresent, rfl⟩

theorem batchRows_ok {batch : List Row} {p p' : StateDiffRpc.Progress}
    (hall : ∀ row ∈ batch, row.lookup "address" = some (some (addressIn row)) ∧
      addressIn row ≠ "") :
    batch.zipIdx.foldlM (checkRow txt ((batch.flatMap fun row =>
      fourCalls args (addressIn row)).map fun call => some (answer history call))) p = .ok p' ↔
      ∃ changes, List.Forall₂ (RowAgrees txt.toPyText history args) batch changes ∧
        p' = changes.foldl recordChange p := by
  have hstep : ∀ numbered ∈ batch.zipIdx, ∀ s s', checkRow txt ((batch.flatMap fun row =>
      fourCalls args (addressIn row)).map fun call => some (answer history call)) s numbered =
        .ok s' ↔ ∃ change, RowAgrees txt.toPyText history args numbered.1 change ∧
          s' = recordChange s change := by
    rintro ⟨row, i⟩ hmem s s'
    have hrow : batch[i]? = some row := List.mem_zipIdx_iff_getElem?.mp hmem
    obtain ⟨hnamed, hpresent⟩ := hall row (List.mem_of_getElem? hrow)
    exact checkRow_ok hrow hnamed hpresent
  rw [foldlM_ok_iff hstep]
  have hfst : ∀ changes, List.Forall₂ (fun numbered : Row × Nat =>
      RowAgrees txt.toPyText history args numbered.1) batch.zipIdx changes ↔
        List.Forall₂ (RowAgrees txt.toPyText history args) batch changes := by
    intro changes
    have hmap := List.forall₂_map_left_iff (R := RowAgrees txt.toPyText history args)
      (f := Prod.fst) (l := batch.zipIdx) (u := changes)
    rw [List.zipIdx_map_fst] at hmap
    exact hmap.symm
  simp only [hfst]

theorem RowAgrees.named {py : PyText} {row : Row} {change : ChangeType × Int}
    (h : RowAgrees py history args row change) :
    row.lookup "address" = some (some (addressIn row)) ∧ addressIn row ≠ "" := by
  obtain ⟨address, hagrees, -⟩ := h
  rw [hagrees.addressIn_eq]
  exact ⟨hagrees.named, hagrees.present⟩

end Rows

/-! ## All batches -/

section Batches

variable {txt : AccountText} {args : StateDiffRpc.Args}

theorem checkBatch_ok (htruthful : Truthful transport history) {start : Int} {batch : List Row}
    {p p' : StateDiffRpc.Progress} (h : checkBatch txt transport args start batch p = .ok p') :
    ∃ changes, List.Forall₂ (RowAgrees txt.toPyText history args) batch changes ∧
      p' = changes.foldl recordChange p := by
  simp only [checkBatch, bind_eq_ok] at h
  obtain ⟨calls, hcalls, values, hvalues, hrows⟩ := h
  obtain ⟨hall, rfl⟩ := batchCalls_ok.mp hcalls
  rw [rpcBatch_ok htruthful hvalues, ← List.flatMap_def] at hrows
  exact (batchRows_ok hall).mp hrows

theorem checkBatch_complete (htruthful : Truthful transport history)
    (havailable : Available transport history) (start : Int) {batch : List Row}
    {changes : List (ChangeType × Int)}
    (h : List.Forall₂ (RowAgrees txt.toPyText history args) batch changes)
    (p : StateDiffRpc.Progress) :
    checkBatch txt transport args start batch p = .ok (changes.foldl recordChange p) := by
  have hall : ∀ row ∈ batch, row.lookup "address" = some (some (addressIn row)) ∧
      addressIn row ≠ "" := by
    intro row hrow
    obtain ⟨change, -, hchange⟩ := forall₂_exists_left h hrow
    exact hchange.named
  rw [checkBatch, batchCalls_ok.mpr ⟨hall, rfl⟩, bind_ok, ← List.flatMap_def,
    rpcBatch_available htruthful havailable, bind_ok]
  exact (batchRows_ok hall).mpr ⟨changes, h, rfl⟩

/-- What the batches that passed have recorded; the induction is on the rows that are left. -/
theorem checkBatches_ok (htruthful : Truthful transport history) (hsize : 1 ≤ args.batchSize)
    {fuel : Nat} {start : Int} {rows : List Row} {p p' : StateDiffRpc.Progress}
    (hfuel : rows.length ≤ fuel)
    (h : checkBatches txt transport args fuel start rows p = .ok p') :
    ∃ changes, List.Forall₂ (RowAgrees txt.toPyText history args) rows changes ∧
      p' = changes.foldl recordChange p := by
  induction fuel generalizing start rows p with
  | zero =>
    rw [List.length_eq_zero_iff.mp (Nat.le_zero.mp hfuel)]
    cases h
    exact ⟨[], .nil, rfl⟩
  | succ fuel ih =>
    rw [checkBatches] at h
    split at h
    · rename_i hempty
      cases h
      rw [List.isEmpty_iff.mp hempty]
      exact ⟨[], .nil, rfl⟩
    · rename_i hmore
      obtain ⟨next, hnext, hrest⟩ := bind_eq_ok.mp h
      obtain ⟨first, hfirst, rfl⟩ := checkBatch_ok htruthful hnext
      have hdrop : (rows.drop args.batchSize.toNat).length ≤ fuel := by
        rw [List.length_drop]
        omega
      obtain ⟨rest, hagree, rfl⟩ := ih hdrop hrest
      refine ⟨first ++ rest, ?_, List.foldl_append.symm⟩
      rw [← List.take_append_drop args.batchSize.toNat rows]
      exact List.rel_append hfirst hagree

theorem checkBatches_complete (htruthful : Truthful transport history)
    (havailable : Available transport history) (hsize : 1 ≤ args.batchSize) {fuel : Nat}
    {start : Int} {rows : List Row} {changes : List (ChangeType × Int)}
    (hfuel : rows.length ≤ fuel)
    (h : List.Forall₂ (RowAgrees txt.toPyText history args) rows changes)
    (p : StateDiffRpc.Progress) :
    checkBatches txt transport args fuel start rows p = .ok (changes.foldl recordChange p) := by
  induction fuel generalizing start rows changes p with
  | zero =>
    rw [List.length_eq_zero_iff.mp (Nat.le_zero.mp hfuel)] at h
    cases h
    rfl
  | succ fuel ih =>
    rw [checkBatches]
    split
    · rename_i hempty
      rw [List.isEmpty_iff.mp hempty] at h
      cases h
      rfl
    · rename_i hmore
      have hdrop : (rows.drop args.batchSize.toNat).length ≤ fuel := by
        rw [List.length_drop]
        omega
      rw [checkBatch_complete htruthful havailable start
        (List.forall₂_take args.batchSize.toNat h) p, bind_ok,
        ih hdrop (List.forall₂_drop args.batchSize.toNat h), ← List.foldl_append,
        List.take_append_drop]

end Batches

/-! ## The totals -/

theorem text_injective {a b : ChangeType} (h : a.text = b.text) : a = b := by
  cases a <;> cases b <;> first | rfl | (simp [ChangeType.text] at h)

/-- What rows add to a total can be read off the rows themselves. -/
theorem recorded_totals {py : PyText} {args : StateDiffRpc.Args} {rows : List Row}
    {changes : List (ChangeType × Int)} (h : List.Forall₂ (RowAgrees py history args) rows changes) :
    changes.foldl recordChange {} = totals history args rows := by
  have hdelta : changes.map Prod.snd = rows.map (deltaIn history args) := by
    rw [← List.forall₂_eq_eq_eq, List.forall₂_map_left_iff, List.forall₂_map_right_iff]
    refine h.flip.imp ?_
    rintro change row ⟨address, hagrees, hdelta⟩
    rw [hdelta, deltaIn, hagrees.addressIn_eq]
  have hkind : ∀ kind : ChangeType, (changes.map fun change =>
      if change.1 = kind then 1 else 0).sum = rows.countP fun row => changeIn row = some kind.text := by
    intro kind
    rw [← sum_map_one_eq_countP]
    congr 1
    rw [← List.forall₂_eq_eq_eq, List.forall₂_map_left_iff, List.forall₂_map_right_iff]
    refine h.flip.imp ?_
    rintro change row ⟨address, hagrees, -⟩
    have hin : changeIn row = some change.1.text := by
      rw [changeIn, hagrees.kind]
      rfl
    rw [hin]
    by_cases hsame : change.1 = kind
    · simp [hsame]
    · have hne : change.1.text ≠ kind.text := fun heq => hsame (text_injective heq)
      simp [hsame, hne]
  have hcount : ∀ (total : StateDiffRpc.Progress → Nat) (kind : ChangeType),
      (∀ p change, total (recordChange p change) =
        total p + if change.1 = kind then 1 else 0) →
      total (changes.foldl recordChange {}) =
        total {} + rows.countP fun row => changeIn row = some kind.text := by
    intro total kind hstep
    rw [foldl_total total hstep, hkind]
  have hsum : ∀ (total : StateDiffRpc.Progress → Int) (share : Int → Int),
      (∀ p change, total (recordChange p change) = total p + share change.2) →
      total (changes.foldl recordChange {}) =
        total {} + (rows.map fun row => share (deltaIn history args row)).sum := by
    intro total share hstep
    have hshares : (changes.map fun change => share change.2) =
        rows.map fun row => share (deltaIn history args row) := by
      have hmapped := congrArg (List.map share) hdelta
      rwa [List.map_map, List.map_map] at hmapped
    rw [foldl_total total hstep, hshares]
  apply StateDiffRpc.Progress.ext
  · exact (hcount (fun p => p.created) .created fun _ _ => rfl).trans (Nat.zero_add _)
  · exact (hcount (fun p => p.changed) .changed fun _ _ => rfl).trans (Nat.zero_add _)
  · exact (hcount (fun p => p.deleted) .deleted fun _ _ => rfl).trans (Nat.zero_add _)
  · exact (hsum (fun p => p.positiveDelta) (fun delta => max delta 0) fun _ _ => rfl).trans
      (Int.zero_add _)
  · exact (hsum (fun p => p.negativeDelta) (fun delta => max (-delta) 0) fun _ _ => rfl).trans
      (Int.zero_add _)

/-- Gains less losses are the sum of the deltas. -/
theorem totals_net (args : StateDiffRpc.Args) (rows : List Row) :
    (totals history args rows).positiveDelta - (totals history args rows).negativeDelta =
      (rows.map (deltaIn history args)).sum := by
  simp only [totals]
  induction rows with
  | nil => rfl
  | cons row rows ih =>
    simp only [List.map_cons, List.sum_cons]
    omega

/-! ## The check -/

variable {txt : AccountText} {args : StateDiffRpc.Args} {taken : String → Bool} {rows : List Row}

theorem allAgree_iff {py : PyText} :
    AllAgree py history args rows ↔
      ∃ changes, List.Forall₂ (RowAgrees py history args) rows changes := by
  constructor
  · intro h
    refine exists_forall₂ fun row hrow => ?_
    obtain ⟨address, change, hagrees⟩ := h row hrow
    exact ⟨(change, _), address, hagrees, rfl⟩
  · rintro ⟨changes, hchanges⟩ row hrow
    obtain ⟨change, -, address, hagrees, -⟩ := forall₂_exists_left hchanges hrow
    exact ⟨address, change.1, hagrees⟩

/-- A report is that of rows which all agree, whichever calls failed. -/
theorem reported_agrees (htruthful : Truthful transport history) (hsize : 1 ≤ args.batchSize)
    {report : StateDiffRpc.Report} (h : StateDiffRpc.main txt transport args taken rows = .ok report) :
    AllAgree txt.toPyText history args rows ∧
      report = (totals history args rows).report args rows := by
  have hzero : args.batchSize ≠ 0 := by omega
  have hnegative : ¬ args.batchSize < 0 := by omega
  rw [StateDiffRpc.main, guard_eq_ok, if_neg hzero, if_neg hnegative, bind_eq_ok] at h
  obtain ⟨-, p, hp, h⟩ := h
  cases h
  obtain ⟨changes, hchanges, rfl⟩ := checkBatches_ok htruthful hsize (Nat.le_refl _) hp
  rw [recorded_totals hchanges]
  exact ⟨allAgree_iff.mpr ⟨changes, hchanges⟩, rfl⟩

/-- Rows that agree are reported, if every batch is answered in time. -/
theorem main_complete (htruthful : Truthful transport history)
    (havailable : Available transport history) (hsize : 1 ≤ args.batchSize)
    (hfree : ¬ (taken args.output = true ∨ taken (args.output ++ ".partial") = true))
    (hagree : AllAgree txt.toPyText history args rows) :
    StateDiffRpc.main txt transport args taken rows =
      .ok ((totals history args rows).report args rows) := by
  have hzero : args.batchSize ≠ 0 := by omega
  have hnegative : ¬ args.batchSize < 0 := by omega
  obtain ⟨changes, hchanges⟩ := allAgree_iff.mp hagree
  rw [StateDiffRpc.main, if_neg hfree, if_neg hzero, if_neg hnegative,
    checkBatches_complete htruthful havailable hsize (Nat.le_refl _) hchanges, bind_ok,
    recorded_totals hchanges]

/-- The outcome of a run, by the history alone. -/
structure Checked (txt : AccountText) (history : History) (transport : Transport)
    (args : StateDiffRpc.Args) (taken : String → Bool) (rows : List Row) : Prop where
  sound : ∀ report, StateDiffRpc.main txt transport args taken rows = .ok report →
    AllAgree txt.toPyText history args rows ∧
      report = (totals history args rows).report args rows
  complete : Available transport history → AllAgree txt.toPyText history args rows →
    StateDiffRpc.main txt transport args taken rows =
      .ok ((totals history args rows).report args rows)

/-- The replies to all calls, the last one first. -/
def reversedItems (history : History) (calls : List Call) : List Item :=
  ((requestIds calls).map fun id => ⟨id, .ok (answerTo history calls id)⟩).reverse

def reversedTransport (history : History) : Transport where
  attempt _ calls
    | 0 => .error (.runtimeError "timed out")
    | _ + 1 => .ok (reversedItems history calls)

theorem truthful_reversed (history : History) : Truthful (reversedTransport history) history := by
  intro start calls i items hitems
  cases i with
  | zero => cases hitems
  | succ i =>
    cases hitems
    intro reply hreply _ value hvalue
    obtain ⟨id, -, rfl⟩ := List.mem_map.mp (List.mem_reverse.mp hreply)
    exact (Except.ok.inj hvalue).symm

theorem available_reversed (history : History) :
    Available (reversedTransport history) history := by
  intro start calls
  refine ⟨1, by decide, reversedItems history calls, rfl, ?_, ?_⟩
  · simp [reversedItems, requestIds]
  · constructor
    case distinct =>
      have hids : (reversedItems history calls).map Reply.id = (requestIds calls).reverse := by
        rw [reversedItems, List.map_reverse, List.map_map]
        exact congrArg List.reverse (List.map_id _)
      rw [hids, List.nodup_reverse, requestIds]
      exact List.nodup_range.map fun _ _ heq => Int.ofNat.inj heq
    case answered =>
      intro id hid
      rw [reversedItems, List.mem_reverse]
      exact List.mem_map_of_mem (f := fun id : Int =>
        (⟨id, .ok (answerTo history calls id)⟩ : Item)) hid

def checkedArgs : StateDiffRpc.Args where
  output := "check.json"
  oldBlock := 1
  newBlock := 4
  batchSize := 1

/-- One account is created with 5 atto, one loses 2. -/
def checkedHistory : History := fun block address =>
  if address = "0xab" then if block = 4 then some ⟨5, 1, []⟩ else none
  else if address = "0xcd" then some ⟨if block = 4 then 7 else 9, 3, []⟩
  else none

def checkedRows : List Row :=
  [[("secure_key", some "0x01"), ("address", some "0xab"), ("change_type", some "created"),
      ("old_balance_atto", some "0"), ("new_balance_atto", some "5"),
      ("balance_delta_atto", some "5"), ("old_nonce", some "0"), ("new_nonce", some "1")],
    [("secure_key", some "0x02"), ("address", some "0xcd"), ("change_type", some "changed"),
      ("old_balance_atto", some "9"), ("new_balance_atto", some "7"),
      ("balance_delta_atto", some "-2"), ("old_nonce", some "3"), ("new_nonce", some "3")]]

end StateDiffAcceptance
