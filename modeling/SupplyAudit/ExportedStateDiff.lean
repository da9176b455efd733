import SupplyAudit.StateDiffAcceptance

/-!
# An exported difference before the node

`historical-state-diff` and `verify-state-diff-rpc.py` look at the same two
states, one through the tries and one through a node. What the first exports the
second accepts, with the same counts and sums, unless the address of an account
is not stored.
-/

namespace ExportedStateDiff

open ByteWords NumeralText HexText ScriptValues FallibleScan AuditFiles ReceiptKeys ChainDatabase
open StateTrie CreatedAccounts TransitionBlocks StateDiffRpc HistoricalStateDiff
open StateDiffExactness StateDiffAcceptance

variable {codec : StateCodec} {db : Database} {old new : AccountTrie} {history : History}
variable {difference : AccountTrie → AccountTrie → Difference} {oldRoot newRoot : Hash}
variable {output : Output} {args : StateDiffRpc.Args}

/-! ## What the export adds up -/

/-- The counts and sums of a completed run, row by row. -/
theorem exported_sums (h : HistoricalStateDiff.main codec db difference oldRoot newRoot old new =
      .ok output) :
    output.summary.createdAccounts =
        output.rows.countP (fun row => row.changeType = .created) ∧
      output.summary.changedAccounts =
        output.rows.countP (fun row => row.changeType = .changed) ∧
      output.summary.deletedAccounts =
        output.rows.countP (fun row => row.changeType = .deleted) ∧
      output.summary.missingPreimages =
        output.rows.countP (fun row => (readPreimage db row.key).length = 0) ∧
      output.summary.positiveDeltaAtto =
        toString (output.rows.map fun row => max row.delta 0).sum ∧
      output.summary.negativeDeltaAtto =
        toString (output.rows.map fun row => max (-row.delta) 0).sum ∧
      output.summary.netLiquidDeltaAtto = toString (output.rows.map ChangeRow.delta).sum := by
  rw [HistoricalStateDiff.main, bind_eq_ok] at h
  obtain ⟨p, hp, h⟩ := h
  cases h
  obtain ⟨-, -, rows, kept, -, -, rfl⟩ := collect_ok hp
  generalize rows ++ kept.reduceOption = all
  have hrows : (all.foldl (recordRow db) {}).rows = all := by
    have hlisted := (foldl_recordRow db all {}).1
    rwa [List.nil_append] at hlisted
  have hcount : ∀ (total : HistoricalStateDiff.Progress → Nat) (counted : ChangeRow → Bool),
      (∀ p row, total (recordRow db p row) = total p + if counted row then 1 else 0) →
      total (all.foldl (recordRow db) {}) = total {} + all.countP counted := by
    intro total counted hstep
    rw [foldl_total total hstep, sum_map_one_eq_countP]
  have hpositive : (all.foldl (recordRow db) {}).positiveDelta =
      0 + (all.map fun row => max row.delta 0).sum := by
    refine foldl_total (fun p : HistoricalStateDiff.Progress => p.positiveDelta) ?_ all {}
    intro p row
    simp only [recordRow]
    split <;> omega
  have hnegative : (all.foldl (recordRow db) {}).negativeDelta =
      0 + (all.map fun row => max (-row.delta) 0).sum := by
    refine foldl_total (fun p : HistoricalStateDiff.Progress => p.negativeDelta) ?_ all {}
    intro p row
    simp only [recordRow]
    split <;> omega
  have hnet := (foldl_recordRow db all {}).2.1
  simp only [hrows]
  refine ⟨?_, ?_, ?_, ?_, ?_, ?_, ?_⟩
  · simpa using hcount (fun p => p.created) (fun row => row.changeType = .created)
      fun _ _ => by simp [recordRow]
  · simpa using hcount (fun p => p.changed) (fun row => row.changeType = .changed)
      fun _ _ => by simp [recordRow]
  · simpa using hcount (fun p => p.deleted) (fun row => row.changeType = .deleted)
      fun _ _ => by simp [recordRow]
  · simpa using hcount (fun p => p.missingPreimages)
      (fun row => (readPreimage db row.key).length = 0) fun _ _ => by simp [recordRow]
  · rw [hpositive, Int.zero_add]
  · rw [hnegative, Int.zero_add]
  · rw [hnet]
    exact congrArg toString (Int.zero_add _)

/-! ## The exported rows -/

/-- At a block the node answers for every address with what the trie holds for it. -/
def ServesTrie (codec : StateCodec) (history : History) (block : Int) (trie : AccountTrie) : Prop :=
  ∀ (address : ReceiptKeys.Address) (value : AccountValue),
    valueAt codec trie (codec.keccak256 address.data) = .ok value →
      balanceAt history block (addressHex codec address) = value.balance ∧
        nonceAt history block (addressHex codec address) = (value.nonce.toNat : Int)

/-- The address of a row is the preimage of its key, or empty when that is not stored. -/
theorem changeAddress_ok {key : Hash} {text : String} (h : changeAddress codec db key = .ok text) :
    ((readPreimage db key).length = 0 ∧ text = "") ∨
      ((readPreimage db key).length ≠ 0 ∧ ∃ address : ReceiptKeys.Address,
        codec.keccak256 address.data = key ∧ text = addressHex codec address) := by
  rw [changeAddress] at h
  split at h
  · rename_i hempty
    cases h
    exact Or.inl ⟨hempty, rfl⟩
  · rename_i hstored
    split at h
    · cases h
    · split at h
      · cases h
      · rename_i hsize hkey
        cases h
        exact Or.inr ⟨hstored, ⟨_, length_of_not_ne hsize⟩, not_not.mp hkey, rfl⟩

theorem addressHex_ne_empty (address : ReceiptKeys.Address) : addressHex codec address ≠ "" := by
  intro h
  have hlist := congrArg String.toList h
  rw [addressHex, toList_checksumHex] at hlist
  cases hlist

theorem int_toString_nat (py : PyText) (n : Nat) : py.int (toString n) = some (n : Int) :=
  py.int_toString n

/-- An exported row as the script reads it. -/
def exportedRow (row : ChangeRow) : Row := dictRow header row.cells

theorem dictRows_csv (output : Output) : dictRows output.csv = output.rows.map exportedRow := by
  rw [Output.csv, dictRows, List.map_map]
  rfl

theorem exportedRow_agrees (py : PyText) {row : ChangeRow}
    (hreports : Reports codec db old new row) (hold : ServesTrie codec history args.oldBlock old)
    (hnew : ServesTrie codec history args.newBlock new)
    (hstored : (readPreimage db row.key).length ≠ 0) :
    Agrees py history args (exportedRow row) row.address row.changeType ∧
      deltaIn history args (exportedRow row) = row.delta := by
  obtain ⟨hmissing, -⟩ | ⟨-, address, hkey, haddress⟩ := changeAddress_ok hreports.address
  · exact absurd hmissing hstored
  · have hbefore := hold address row.oldValue (hkey ▸ hreports.oldValue)
    have hafter := hnew address row.newValue (hkey ▸ hreports.newValue)
    rw [← haddress] at hbefore hafter
    have hagrees : Agrees py history args (exportedRow row) row.address row.changeType := by
      constructor
      case named => rfl
      case present => exact haddress ▸ addressHex_ne_empty address
      case oldBalance => exact intField_ok.mpr ⟨_, rfl, hbefore.1 ▸ py.int_toString _⟩
      case newBalance => exact intField_ok.mpr ⟨_, rfl, hafter.1 ▸ py.int_toString _⟩
      case oldNonce => exact intField_ok.mpr ⟨_, rfl, hbefore.2 ▸ int_toString_nat py _⟩
      case newNonce => exact intField_ok.mpr ⟨_, rfl, hafter.2 ▸ int_toString_nat py _⟩
      case delta =>
        rw [hbefore.1, hafter.1]
        exact intField_ok.mpr ⟨_, rfl, py.int_toString _⟩
      case kind => rfl
    refine ⟨hagrees, ?_⟩
    rw [deltaIn, hagrees.addressIn_eq, hbefore.1, hafter.1]
    rfl

/-- A row without an address agrees with no history. -/
theorem not_agrees_of_missing {py : PyText} {row : ChangeRow}
    (hreports : Reports codec db old new row) (hmissing : (readPreimage db row.key).length = 0)
    (address : String) (change : ChangeType) :
    ¬ Agrees py history args (exportedRow row) address change := by
  intro hagrees
  obtain ⟨-, hempty⟩ | ⟨hstored, -⟩ := changeAddress_ok hreports.address
  · have hnamed : (exportedRow row).lookup "address" = some (some row.address) := rfl
    have hsame := hnamed.symm.trans hagrees.named
    simp only [Option.some.injEq] at hsame
    exact hagrees.present (hsame.symm.trans hempty)
  · exact hstored hmissing

/-! ## Both tools on the same states -/

/-- The script's report repeats the summary of the export. -/
structure SameReport (output : Output) (report : StateDiffRpc.Report) : Prop where
  rows : report.rows = output.rows.length
  created : report.created = output.summary.createdAccounts
  changed : report.changed = output.summary.changedAccounts
  deleted : report.deleted = output.summary.deletedAccounts
  positive : report.positiveDeltaAtto = output.summary.positiveDeltaAtto
  negative : report.negativeDeltaAtto = output.summary.negativeDeltaAtto
  net : report.netDeltaAtto = output.summary.netLiquidDeltaAtto

/-- Rows that all agree are summed up as the export has summed them up. -/
theorem sameReport_totals (h : HistoricalStateDiff.main codec db difference oldRoot newRoot old new =
      .ok output)
    (hdelta : ∀ row ∈ output.rows, deltaIn history args (exportedRow row) = row.delta) :
    SameReport output ((totals history args (output.rows.map exportedRow)).report args
      (output.rows.map exportedRow)) := by
  obtain ⟨hcreated, hchanged, hdeleted, -, hpositive, hnegative, hnet⟩ := exported_sums h
  have hcount : ∀ kind : ChangeType, (output.rows.map exportedRow).countP
      (fun row => changeIn row = some kind.text) =
        output.rows.countP fun row => row.changeType = kind := by
    intro kind
    rw [List.countP_map]
    apply List.countP_congr
    intro row _
    have hin : changeIn (exportedRow row) = some row.changeType.text := rfl
    simp only [Function.comp_apply, hin, Option.some.injEq, decide_eq_true_eq]
    exact ⟨text_injective, fun heq => congrArg ChangeType.text heq⟩
  have hsum : ∀ share : Int → Int, ((output.rows.map exportedRow).map fun row =>
      share (deltaIn history args row)) = output.rows.map fun row => share row.delta := by
    intro share
    rw [List.map_map]
    apply List.map_congr_left
    intro row hrow
    rw [Function.comp_apply, hdelta row hrow]
  constructor
  case rows => exact List.length_map _
  case created => exact (hcount .created).trans hcreated.symm
  case changed => exact (hcount .changed).trans hchanged.symm
  case deleted => exact (hcount .deleted).trans hdeleted.symm
  case positive =>
    rw [hpositive, ← hsum fun delta => max delta 0]
    rfl
  case negative =>
    rw [hnegative, ← hsum fun delta => max (-delta) 0]
    rfl
  case net =>
    have hnetSum : (totals history args (output.rows.map exportedRow)).positiveDelta -
        (totals history args (output.rows.map exportedRow)).negativeDelta =
          ((output.rows.map exportedRow).map (deltaIn history args)).sum := totals_net args _
    rw [hnet, ← List.map_id' (output.rows.map ChangeRow.delta), List.map_map]
    exact congrArg toString (hnetSum.trans (congrArg List.sum (hsum id)))

/-- An exported difference passes exactly when no preimage is missing, and then with the sums of
the export; both are the difference of the total balances. -/
theorem exported_diff_passes_iff {txt : AccountText} {transport : Transport}
    {taken : String → Bool} (hforward : YieldsDifference difference old new)
    (hreverse : YieldsDifference difference new old)
    (h : HistoricalStateDiff.main codec db difference oldRoot newRoot old new = .ok output)
    (hold : ServesTrie codec history args.oldBlock old)
    (hnew : ServesTrie codec history args.newBlock new) (htruthful : Truthful transport history)
    (havailable : Available transport history) (hsize : 1 ≤ args.batchSize)
    (hfree : ¬ (taken args.output = true ∨ taken (args.output ++ ".partial") = true)) :
    ((∃ report, StateDiffRpc.main txt transport args taken (dictRows output.csv) = .ok report) ↔
      output.summary.missingPreimages = 0) ∧
    ∀ report, StateDiffRpc.main txt transport args taken (dictRows output.csv) = .ok report →
      SameReport output report ∧
        report.netDeltaAtto = toString (totalBalance codec new - totalBalance codec old) := by
  obtain ⟨p, hp, hlists, hlists', hrows, -, -, -⟩ := StateDiffExactness.main_ok h hforward hreverse
  obtain ⟨hchanges, -, -⟩ := collect_lists hlists hlists' hp
  rw [← hrows] at hchanges
  obtain ⟨-, -, -, hmissing, -, -, hnet⟩ := exported_sums h
  have hstored : output.summary.missingPreimages = 0 ↔
      ∀ row ∈ output.rows, (readPreimage db row.key).length ≠ 0 := by
    rw [hmissing, List.countP_eq_zero]
    simp
  have hall : AllAgree txt.toPyText history args (output.rows.map exportedRow) →
      ∀ row ∈ output.rows, (readPreimage db row.key).length ≠ 0 := by
    intro hagree row hrow hnone
    obtain ⟨address, change, hagrees⟩ := hagree _ (List.mem_map_of_mem hrow)
    exact not_agrees_of_missing (hchanges.reports row hrow) hnone address change hagrees
  rw [dictRows_csv]
  refine ⟨⟨?_, ?_⟩, ?_⟩
  · rintro ⟨report, hreport⟩
    exact hstored.mpr (hall (reported_agrees htruthful hsize hreport).1)
  · intro hnone
    have hagree : AllAgree txt.toPyText history args (output.rows.map exportedRow) := by
      intro exported hexported
      obtain ⟨row, hrow, rfl⟩ := List.mem_map.mp hexported
      exact ⟨_, _, (exportedRow_agrees txt.toPyText (hchanges.reports row hrow) hold hnew
        (hstored.mp hnone row hrow)).1⟩
    exact ⟨_, main_complete htruthful havailable hsize hfree hagree⟩
  · intro report hreport
    obtain ⟨hagree, rfl⟩ := reported_agrees htruthful hsize hreport
    have hsame : SameReport output ((totals history args (output.rows.map exportedRow)).report args
        (output.rows.map exportedRow)) := sameReport_totals h fun row hrow =>
      (exportedRow_agrees txt.toPyText (hchanges.reports row hrow) hold hnew
        (hall hagree row hrow)).2
    exact ⟨hsame, by rw [hsame.net, hnet, hchanges.sum_deltas]⟩

/-! ## A node over two sample states -/

theorem addressHex_injective {a b : ReceiptKeys.Address} (h : addressHex codec a = addressHex codec b) :
    a = b := by
  have hlower : ∀ c : ReceiptKeys.Address, (addressHex codec c).toLower = prefixedHex c.data := by
    intro c
    apply toLower_checksumHex
    intro text
    rw [c.size, (codec.keccak256 text).size]
    decide
  have htext : prefixedHex a.data = prefixedHex b.data := by rw [← hlower a, h, hlower b]
  exact FixedBytes.ext (prefixedHex_injective (a.size.trans b.size.symm) htext)

/-- A node that knows these addresses, over the trie of each block. -/
def servedHistory (codec : StateCodec) (tries : Int → AccountTrie)
    (addresses : List ReceiptKeys.Address) : History := fun block text =>
  match addresses.find? fun address => addressHex codec address = text with
  | none => none
  | some address =>
    match valueAt codec (tries block) (codec.keccak256 address.data) with
    | .error _ => none
    | .ok value => some ⟨value.balance.toNat, value.nonce.toNat, []⟩

theorem balance_nonneg {encoded : Bytes} {key : Hash} {value : AccountValue}
    (h : decodeAccount codec encoded key = .ok value) : 0 ≤ value.balance := by
  rw [decodeAccount] at h
  split at h
  · cases h
    decide
  · cases haccount : codec.decodeAccount encoded with
    | error err =>
      rw [haccount] at h
      cases h
    | ok account =>
      rw [haccount] at h
      dsimp only at h
      cases hbalance : account.balance with
      | none =>
        rw [hbalance] at h
        cases h
      | some balance =>
        rw [hbalance] at h
        obtain ⟨hnonneg, heq⟩ := guard_eq_ok.mp h
        cases heq
        exact Int.not_lt.mp hnonneg

/-- Such a node serves a trie that has no other accounts. -/
theorem servesTrie_served {tries : Int → AccountTrie} {addresses : List ReceiptKeys.Address}
    {block : Int} (hothers : ∀ address, address ∉ addresses →
      (tries block).leaves.lookup (codec.keccak256 address.data) = none) :
    ServesTrie codec (servedHistory codec tries addresses) block (tries block) := by
  intro address value hvalue
  have hnonneg := balance_nonneg hvalue
  by_cases hknown : address ∈ addresses
  · have hfound : addresses.find? (fun other => addressHex codec other = addressHex codec address) =
        some address := by
      cases hfind : addresses.find? fun other => addressHex codec other = addressHex codec address with
      | none => exact absurd (List.find?_eq_none.mp hfind address hknown) (by simp)
      | some other =>
        have hsame := List.find?_some hfind
        rw [addressHex_injective (of_decide_eq_true hsame)]
    simp only [balanceAt, nonceAt, servedHistory, hfound, hvalue, Option.getD_some]
    exact ⟨Int.toNat_of_nonneg hnonneg, trivial⟩
  · have hfound : addresses.find? (fun other => addressHex codec other = addressHex codec address) =
        none := by
      rw [List.find?_eq_none]
      intro other hother hsame
      exact hknown (addressHex_injective (of_decide_eq_true hsame) ▸ hother)
    rw [StateDiffExactness.valueAt, hothers address hknown] at hvalue
    cases hvalue
    simp only [balanceAt, nonceAt, servedHistory, hfound]
    exact ⟨rfl, rfl⟩

open IndependentSums

def sampleAddresses : List ReceiptKeys.Address :=
  [sampleAddress 0xaa, sampleAddress 0xbb, sampleAddress 0xcc]

/-- The preimages of all three keys. -/
def namedDB : Database :=
  (Store.empty.write [(preimagePrefix ++ keyA.data, List.replicate 20 0xaa),
    (preimagePrefix ++ keyB.data, List.replicate 20 0xbb),
    (preimagePrefix ++ keyC.data, List.replicate 20 0xcc)]).database

def sampleTries (block : Int) : AccountTrie := if block = 1 then sampleOld else sampleNew

/-- Another address has a key that is in neither trie. -/
theorem sample_others {address : ReceiptKeys.Address} (h : address ∉ sampleAddresses)
    (block : Int) :
    (sampleTries block).leaves.lookup (sampleStateCodec.keccak256 address.data) = none := by
  have hne : ∀ b ∈ [(0xaa : UInt8), 0xbb, 0xcc], address.data ≠ List.replicate 20 b := by
    intro b hb heq
    apply h
    have hsame : address = sampleAddress b := FixedBytes.ext heq
    rw [hsame]
    simp only [List.mem_cons, List.not_mem_nil, or_false] at hb
    rcases hb with rfl | rfl | rfl
    · decide
    · decide
    · decide
  have hlong : ∀ bs : Bytes, bs.length ≠ 20 → address.data ≠ bs := by
    rintro bs hlength rfl
    exact hlength address.size
  have hkey : sampleStateCodec.keccak256 address.data = FixedBytes.zero 32 := by
    have hnone : ([(List.replicate 20 0xaa, keyA), (List.replicate 20 0xbb, keyB),
        (List.replicate 20 0xcc, keyC), (List.replicate 40 0x61, textA),
        (List.replicate 40 0x63, textC), (wrapperBytesA, codeHashA),
        (wrapperBytesC, codeHashC)] : List (Bytes × Hash)).lookup address.data = none := by
      rw [List.lookup_eq_none_iff]
      simp only [List.forall_mem_cons, bne_iff_ne]
      exact ⟨hne 0xaa (by decide), hne 0xbb (by decide), hne 0xcc (by decide),
        hlong _ (by decide), hlong _ (by decide), hlong _ (by decide), hlong _ (by decide),
        fun _ h => absurd h List.not_mem_nil⟩
    simp only [sampleStateCodec, StateCodec.ofTables, hnone, Option.getD_none]
  rw [hkey, sampleTries]
  split <;> decide

def sampleHistory : History := servedHistory sampleStateCodec sampleTries sampleAddresses

theorem exported_diff_passes_sample : ∃ output,
    HistoricalStateDiff.main sampleStateCodec namedDB leafDifference sampleRoot0 sampleRoot1
        sampleOld sampleNew = .ok output ∧
      output.rows.length = 3 ∧
      ∃ report, StateDiffRpc.main plainText (reversedTransport sampleHistory) checkedArgs
          (fun _ => false) (dictRows output.csv) = .ok report ∧
        SameReport output report ∧ report.netDeltaAtto =
          toString (totalBalance sampleStateCodec sampleNew - totalBalance sampleStateCodec sampleOld)
    := by
  have hrun : (HistoricalStateDiff.main sampleStateCodec namedDB leafDifference sampleRoot0
      sampleRoot1 sampleOld sampleNew).map (fun output =>
        (output.rows.length, output.summary.missingPreimages)) = .ok (3, 0) := by decide +kernel
  cases hmain : HistoricalStateDiff.main sampleStateCodec namedDB leafDifference sampleRoot0
      sampleRoot1 sampleOld sampleNew with
  | error err => rw [hmain] at hrun; cases hrun
  | ok output =>
    rw [hmain] at hrun
    obtain ⟨hlength, hmissing⟩ := Prod.mk.inj (Except.ok.inj hrun)
    have hold : ServesTrie sampleStateCodec sampleHistory checkedArgs.oldBlock sampleOld := by
      have hserved := servesTrie_served fun _ h => sample_others h 1
      rwa [sampleTries, if_pos rfl] at hserved
    have hnew : ServesTrie sampleStateCodec sampleHistory checkedArgs.newBlock sampleNew := by
      have hserved := servesTrie_served fun _ h => sample_others h 4
      rwa [sampleTries, if_neg (by decide)] at hserved
    have hboth : ((∃ report, StateDiffRpc.main plainText (reversedTransport sampleHistory)
        checkedArgs (fun _ => false) (dictRows output.csv) = .ok report) ↔
          output.summary.missingPreimages = 0) ∧ _ :=
      exported_diff_passes_iff (leafDifference_yields _ _) (leafDifference_yields _ _) hmain hold
        hnew (truthful_reversed sampleHistory) (available_reversed sampleHistory) (by decide)
        (by decide)
    obtain ⟨hpasses, hsame⟩ := hboth
    obtain ⟨report, hreport⟩ := hpasses.mpr hmissing
    exact ⟨output, rfl, hlength, report, hreport, hsame report hreport⟩

end ExportedStateDiff
