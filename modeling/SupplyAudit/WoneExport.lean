import SupplyAudit.DecimalText
import SupplyAudit.DeploymentSearch

/-!
# What the holder export publishes

A run that completes leaves the holders and the summary: the holders are the
addresses with a positive balance, in order, their balances are those of the
events since the deployment, and they add up to the token's total supply, which
the contract has in reserve. A run that fails leaves no summary.
-/

namespace WoneExport

open ByteWords NumeralText HexText FallibleScan FileStore KeyedTable WoneEvents WorkerPool
open WoneScan WoneSupply RpcQuantities WoneHolders DeploymentSearch DecimalText

/-! ## The rows of the holders -/

def holderRow (keccak256 : Bytes → Bytes) (entry : WoneEvents.Address × Int) : HolderRow :=
  ⟨checksumHex keccak256 entry.1.data, toString entry.2, formatToken entry.2⟩

/-- What the loop over the balances keeps. -/
theorem addHolders_ok {keccak256 : Bytes → Bytes} {balances : List (WoneEvents.Address × Int)}
    {st st' : List WoneEvents.Address × Int}
    (h : balances.foldlM (addHolder keccak256) st = .ok st') :
    (∀ entry ∈ balances, 0 ≤ entry.2) ∧
      st'.1 = st.1 ++ (balances.filter fun entry => 0 < entry.2).map Prod.fst := by
  induction balances generalizing st with
  | nil =>
    cases h
    exact ⟨fun _ hmem => absurd hmem List.not_mem_nil, (List.append_nil _).symm⟩
  | cons entry rest ih =>
    rw [List.foldlM_cons, bind_eq_ok] at h
    obtain ⟨next, hnext, hrest⟩ := h
    obtain ⟨hnonneg, hlist⟩ := ih hrest
    rw [addHolder, guard_eq_ok] at hnext
    obtain ⟨hentry, hnext⟩ := hnext
    refine ⟨List.forall_mem_cons.mpr ⟨Int.not_lt.mp hentry, hnonneg⟩, ?_⟩
    split at hnext
    · rename_i hzero
      cases hnext
      rw [hlist, List.filter_cons, if_neg (by simp [hzero])]
    · rename_i hne
      have hkeep : decide (0 < entry.2) = true := decide_eq_true (by omega)
      cases hnext
      rw [hlist, List.filter_cons, if_pos hkeep, List.map_cons, List.append_assoc]
      rfl

theorem pairwise_addresses {addresses : List WoneEvents.Address} (h : addresses.Nodup) :
    (addresses.insertionSort fun a b => a.data ≤ b.data).Pairwise fun a b => a.data < b.data := by
  have hle : (addresses.insertionSort fun a b => a.data ≤ b.data).Pairwise
      fun a b => a.data ≤ b.data := List.pairwise_insertionSort _ _
  have hne : (addresses.insertionSort fun a b => a.data ≤ b.data).Nodup :=
    (List.perm_insertionSort _ addresses).nodup_iff.mpr h
  refine (hle.and hne).imp ?_
  rintro a b ⟨hab, hdifferent⟩
  exact Std.lt_of_le_of_ne hab fun heq => hdifferent (FixedBytes.ext heq)

/-- The rows list the positive balances in the order of the addresses, and no balance is
negative. -/
structure ListsHolders (keccak256 : Bytes → Bytes) (balance : WoneEvents.Address → Int)
    (supply : Int) (rows : List HolderRow) : Prop where
  listed : ∃ held : List (WoneEvents.Address × Int), rows = held.map (holderRow keccak256) ∧
    held.Pairwise (fun a b => a.1.data < b.1.data) ∧
    (∀ address amount, (address, amount) ∈ held ↔ 0 < amount ∧ balance address = amount) ∧
    (held.map Prod.snd).sum = supply
  nonneg : ∀ address, 0 ≤ balance address

theorem at_eq_lookup (deltas : Deltas) (address : WoneEvents.Address) :
    deltas.at address = (deltas.entries.lookup address).getD 0 := by
  rw [Deltas.at, shareAt]
  cases deltas.entries.lookup address with
  | none => rfl
  | some amount => rfl

theorem sum_filter_pos {entries : List (WoneEvents.Address × Int)}
    (h : ∀ entry ∈ entries, 0 ≤ entry.2) :
    ((entries.filter fun entry => 0 < entry.2).map Prod.snd).sum = total id entries := by
  induction entries with
  | nil => rfl
  | cons entry rest ih =>
    obtain ⟨hentry, hrest⟩ := List.forall_mem_cons.mp h
    have hcons : total id (entry :: rest) = entry.2 + total id rest := rfl
    rw [List.filter_cons, hcons, ← ih hrest]
    split
    · rfl
    · rename_i hzero
      have heq : entry.2 = 0 := by
        simp only [decide_eq_true_eq] at hzero
        omega
      rw [heq, zero_add]

/-- The rows of a written file, whichever order the map has. -/
theorem writeCSV_lists {keccak256 : Bytes → Bytes} {deltas : Deltas}
    {balances : List (WoneEvents.Address × Int)} (hperm : balances.Perm deltas.entries)
    {supply : Int} {holders : Holders} (h : writeCSV keccak256 balances supply = .ok holders) :
    ListsHolders keccak256 deltas.at supply holders.rows ∧ holders.total = supply := by
  obtain ⟨htotal, hexpected⟩ := writeCSV_total h
  have hnodup : (balances.map Prod.fst).Nodup :=
    ((hperm.map Prod.fst).nodup_iff).mpr deltas.nodup
  have hlookup : ∀ address, deltas.at address = (balances.lookup address).getD 0 := by
    intro address
    rw [at_eq_lookup, lookup_perm hnodup hperm]
  rw [writeCSV, bind_eq_ok] at h
  obtain ⟨⟨addresses, sum⟩, hsum, h⟩ := h
  obtain ⟨hnonneg, haddresses⟩ := addHolders_ok hsum
  simp only [List.nil_append] at haddresses
  simp only at h
  rw [guard_eq_ok] at h
  obtain ⟨-, h⟩ := h
  rw [Except.ok.injEq] at h
  have hdistinct : addresses.Nodup :=
    haddresses ▸ hnodup.sublist (List.filter_sublist.map Prod.fst)
  -- the entry of every address that is kept
  have hkept : (addresses.map fun address => (address, (balances.lookup address).getD 0)) =
      balances.filter fun entry => 0 < entry.2 := by
    rw [haddresses, List.map_map]
    refine (List.map_congr_left fun entry hentry => ?_).trans (List.map_id _)
    rw [Function.comp_apply, lookup_of_mem hnodup (List.mem_of_mem_filter hentry)]
    rfl
  let held := (addresses.insertionSort fun a b => a.data ≤ b.data).map fun address =>
    (address, (balances.lookup address).getD 0)
  have hheld : held.Perm (balances.filter fun entry => 0 < entry.2) :=
    hkept ▸ (List.perm_insertionSort _ addresses).map _
  refine ⟨⟨⟨held, ?_, ?_, ?_, ?_⟩, ?_⟩, htotal.trans hexpected.symm⟩
  · rw [← h, List.map_map]
    rfl
  · exact List.pairwise_map.mpr (pairwise_addresses hdistinct)
  · intro address amount
    rw [hheld.mem_iff, List.mem_filter, decide_eq_true_eq, hlookup]
    constructor
    · rintro ⟨hmem, hpos⟩
      have hfound := lookup_of_mem hnodup hmem
      exact ⟨hpos, by rw [hfound]; rfl⟩
    · rintro ⟨hpos, hamount⟩
      cases hfound : balances.lookup address with
      | none =>
        rw [hfound, Option.getD_none] at hamount
        omega
      | some found =>
        rw [hfound, Option.getD_some] at hamount
        exact ⟨hamount ▸ mem_of_lookup hfound, hpos⟩
  · rw [(hheld.map Prod.snd).sum_eq, sum_filter_pos hnonneg, hexpected]
  · intro address
    rw [hlookup]
    cases hfound : balances.lookup address with
    | none => exact Int.le_refl 0
    | some amount => exact hnonneg _ (mem_of_lookup hfound)

/-- A token amount is the decimal text of its atto. -/
theorem toList_formatToken (n : Nat) : (formatToken (n : Int)).toList = decimal 18 n := by
  have hfraction : (toString ((n : Int).tmod (10 ^ 18))).toList =
      Nat.toDigits 10 (n % 10 ^ 18) := by
    have hmod : (n : Int).tmod (10 ^ 18) = ((n % 10 ^ 18 : Nat) : Int) := by
      rw [Int.tmod_eq_emod_of_nonneg (Int.natCast_nonneg n)]
      exact (Int.natCast_mod n (10 ^ 18)).symm
    rw [hmod]
    exact Nat.toList_repr
  have hwhole : (toString ((n : Int).tdiv (10 ^ 18))).toList = Nat.toDigits 10 (n / 10 ^ 18) := by
    have hdiv : (n : Int).tdiv (10 ^ 18) = ((n / 10 ^ 18 : Nat) : Int) := by
      rw [Int.tdiv_eq_ediv_of_nonneg (Int.natCast_nonneg n)]
      exact (Int.natCast_ediv n (10 ^ 18)).symm
    rw [hdiv]
    exact Nat.toList_repr
  simp only [formatToken, hfraction, String.toList_append, hwhole, String.toList_ofList, decimal,
    fraction]
  exact List.append_assoc ..

/-- Both amounts of a row are the same number of atto. -/
theorem ListsHolders.amounts {keccak256 : Bytes → Bytes} {balance : WoneEvents.Address → Int}
    {supply : Int} {rows : List HolderRow} (h : ListsHolders keccak256 balance supply rows) :
    ∀ row ∈ rows, ∃ amount : Nat, 0 < amount ∧ row.balanceAtto = toString amount ∧
      readDecimal 18 row.balance.toList = some amount := by
  obtain ⟨held, rfl, -, hheld, -⟩ := h.listed
  intro row hrow
  obtain ⟨⟨address, amount⟩, hmem, rfl⟩ := List.mem_map.mp hrow
  obtain ⟨hpos, -⟩ := (hheld address amount).mp hmem
  obtain ⟨n, rfl⟩ := Int.eq_ofNat_of_zero_le (Int.le_of_lt hpos)
  refine ⟨n, by omega, rfl, ?_⟩
  rw [holderRow, toList_formatToken, readDecimal_decimal (by decide)]

/-! ## The run -/

variable {sys : System} {flags : Flags} {node : Node}

/-- What a scan returns is what the pool of workers can return, in some order of its steps and
whichever calls fail. -/
def Scanned (history : Nat → List RpcLog) (flags : Flags) (scan : UInt64 → Except String Replay) :
    Prop :=
  ∀ deployment replay, scan deployment = .ok replay →
    ∃ p, Reaches (scanProtocol flags.contract history flags.workers.toNat)
      (scanStart deployment flags.cutoff flags.rangeSize flags.workers.toNat) p ∧
        scanResult deployment flags.cutoff flags.rangeSize p = some (.ok replay)

theorem scanned_summed {history : Nat → List RpcLog} {scan : UInt64 → Except String Replay}
    (hscan : Scanned history flags scan) (hflags : flags.complete = true) {deployment : UInt64}
    (hle : deployment ≤ flags.cutoff) {replay : Replay} (h : scan deployment = .ok replay) :
    Summed flags.contract (rangeLogs history deployment flags.cutoff) replay := by
  obtain ⟨p, hreach, hresult⟩ := hscan deployment replay h
  rw [scanResult] at hresult
  obtain ⟨outcome, houtcome, hfinish⟩ := Option.map_eq_some_iff.mp hresult
  rw [Flags.complete, decide_eq_true_eq] at hflags
  obtain ⟨-, -, -, -, -, hsize, hworkers, -, -⟩ := hflags
  have hone : (1 : UInt64).toNat = 1 := rfl
  have hrange : 1 ≤ flags.rangeSize := by
    have hne : flags.rangeSize.toNat ≠ 0 := fun heq => hsize (UInt64.toNat_inj.mp heq)
    rw [UInt64.le_iff_toNat_le, hone]
    omega
  cases outcome with
  | error err => cases hfinish
  | ok results =>
    obtain ⟨hok, hsummed⟩ := finished_ok hle hrange (by omega) hreach houtcome
    rw [hok, Except.ok.injEq] at hfinish
    rwa [← hfinish]

/-- The lines of a holder file for the balances that some logs give. -/
def HoldersOf (sys : System) (contract : WoneEvents.Address) (logs : List RpcLog) (supply : Int)
    (lines : List (List String)) : Prop :=
  ∃ rows, lines = holderHeader :: rows.map HolderRow.cells ∧
    ListsHolders sys.keccak256 (fun address => (logs.map (logEffect contract address)).sum) supply
      rows

/-- Either the holders are at their name, or the disk is as it was. -/
theorem publishHolders_cases {logs : List RpcLog} {replay : Replay}
    (hsummed : Summed flags.contract logs replay) (supply : Int) (d : Disk File) :
    (∃ holders lines, publishHolders sys flags replay.deltas.entries supply d =
        (.ok holders, d.put flags.output (.csv lines)) ∧
      lines.length = holders.rows.length + 1 ∧ holders.total = supply ∧
      HoldersOf sys flags.contract logs supply lines) ∨
    ∃ e, publishHolders sys flags replay.deltas.entries supply d = (.error e, d) := by
  rw [publishHolders]
  cases hwritten : writeCSV sys.keccak256 (sys.order replay.deltas.entries) supply with
  | error e => exact Or.inr ⟨e, Action.bind_error (lift_run _ d) _⟩
  | ok holders =>
    obtain ⟨hlists, htotal⟩ := writeCSV_lists (sys.order_perm _) hwritten
    rw [Action.bind_ok (lift_run _ d)]
    have hbalance : replay.deltas.at = fun address =>
        (logs.map (logEffect flags.contract address)).sum :=
      funext hsummed.balances
    obtain hstaged | ⟨e, hstaged⟩ := stagedOrGone_writeTo sys.csvFaults
      (flags.output ++ ".partial") flags.output (.other "")
      (.csv (holderHeader :: holders.rows.map HolderRow.cells)) sys.csvWrite d
    · refine Or.inl ⟨holders, _, ?_, ?_, htotal, holders.rows, rfl, hbalance ▸ hlists⟩
      · rw [Action.bind_ok hstaged]
        rfl
      · rw [List.length_cons, List.length_map]
    · exact Or.inr ⟨e, Action.bind_error hstaged _⟩

/-- What the summary of a run says. -/
structure Summarised (sys : System) (flags : Flags) (node : Node) (logs : List RpcLog)
    (record : Summary) (lines : List (List String)) : Prop where
  /-- The reserve of the contract is the total supply, and the total of the holders is both. -/
  backed : ∃ supply, readSupply node = .ok supply ∧ readReserve node = .ok supply ∧
    HoldersOf sys flags.contract logs supply lines ∧
    record.totalHolderBalanceAtto = toString supply ∧
    record.contractTotalSupplyAtto = toString supply ∧
    record.contractNativeReserveAtto = toString supply ∧ record.reserveMinusSupplyAtto = "0"
  holders : lines.length = record.holderCount + 1
  counts : record.counts = (logs.map (logCounts flags.contract)).sum

theorem finish_ok {logs : List RpcLog} {replay : Replay}
    (hsummed : Summed flags.contract logs replay) {block : RpcBlock} {codeHash : String}
    {deployment : UInt64} {d next : Disk File} {record : Summary}
    (h : finish sys flags node block codeHash deployment replay d = (.ok record, next)) :
    (∃ lines, next = (d.put flags.output (.csv lines)).put flags.summary (.summary record) ∧
      Summarised sys flags node logs record lines) ∧
    record.contractCodeHash = codeHash ∧ record.cutoffBlock = flags.cutoff ∧
    record.cutoffBlockHash = block.hash ∧ record.cutoffStateRoot = block.stateRoot ∧
    record.deploymentBlock = deployment := by
  rw [finish, Action.bind_eq_ok] at h
  obtain ⟨supply, d₁, hsupply, h⟩ := h
  rw [lift_run, Prod.mk.injEq] at hsupply
  obtain ⟨hsupply, rfl⟩ := hsupply
  rw [Action.bind_eq_ok] at h
  obtain ⟨reserve, d₂, hreserve, h⟩ := h
  rw [lift_run, Prod.mk.injEq] at hreserve
  obtain ⟨hreserve, rfl⟩ := hreserve
  obtain ⟨holders, lines, hpublish, hlength, htotal, hlines⟩ | ⟨e, hpublish⟩ :=
    publishHolders_cases hsummed supply d
  · rw [Action.bind_ok hpublish] at h
    split at h
    · rw [Action.bind_error (raiseIf_some _ _)] at h
      cases h
    · rename_i hbacked
      rw [Action.bind_ok (raiseIf_none _)] at h
      have hzero : reserve - supply = 0 := not_not.mp hbacked
      have hequal : reserve = supply := by omega
      simp only [publishSummary] at h
      rw [Action.bind_eq_ok] at h
      obtain ⟨_, d₃, hstaged, h⟩ := h
      rw [Action.pure_run, Prod.mk.injEq, Except.ok.injEq] at h
      obtain ⟨rfl, rfl⟩ := h
      obtain hput | ⟨e, hput⟩ := stagedOrGone_writeTo sys.summaryFaults
        (flags.summary ++ ".partial") flags.summary (.other "") (.summary _) sys.summaryWrite
        (d.put flags.output (.csv lines))
      · rw [hput, Prod.mk.injEq] at hstaged
        refine ⟨⟨lines, hstaged.2.symm, ?_, hlength, hsummed.counts⟩, rfl, rfl, rfl, rfl, rfl⟩
        refine ⟨supply, hsupply, hequal ▸ hreserve, hlines, ?_, rfl, ?_, ?_⟩
        · exact congrArg toString htotal
        · exact congrArg toString hequal
        · exact congrArg toString hzero
      · rw [hput] at hstaged
        cases hstaged
  · rw [Action.bind_error hpublish] at h
    cases h

/-- A run that fails after the scan may leave the holders, never a summary. -/
theorem finish_fails {logs : List RpcLog} {replay : Replay}
    (hsummed : Summed flags.contract logs replay) {block : RpcBlock} {codeHash : String}
    {deployment : UInt64} {d next : Disk File} {e : String}
    (h : finish sys flags node block codeHash deployment replay d = (.error e, next)) :
    next = d ∨ ∃ supply lines, readSupply node = .ok supply ∧
      HoldersOf sys flags.contract logs supply lines ∧ next = d.put flags.output (.csv lines) := by
  rw [finish, Action.bind_eq_error] at h
  obtain h | ⟨supply, d₁, hsupply, h⟩ := h
  · exact Or.inl (Prod.mk.inj h).2.symm
  rw [lift_run, Prod.mk.injEq] at hsupply
  obtain ⟨hsupply, rfl⟩ := hsupply
  rw [Action.bind_eq_error] at h
  obtain h | ⟨reserve, d₂, hreserve, h⟩ := h
  · exact Or.inl (Prod.mk.inj h).2.symm
  rw [lift_run, Prod.mk.injEq] at hreserve
  obtain ⟨hreserve, rfl⟩ := hreserve
  obtain ⟨holders, lines, hpublish, -, -, hlines⟩ | ⟨e', hpublish⟩ :=
    publishHolders_cases hsummed supply d
  · refine Or.inr ⟨supply, lines, hsupply, hlines, ?_⟩
    rw [Action.bind_ok hpublish] at h
    split at h
    · rw [Action.bind_error (raiseIf_some _ _)] at h
      exact (Prod.mk.inj h).2.symm
    · rw [Action.bind_ok (raiseIf_none _)] at h
      simp only [publishSummary] at h
      rw [Action.bind_eq_error] at h
      obtain h | ⟨_, d₃, hstaged, h⟩ := h
      · obtain hput | ⟨e', hput⟩ := stagedOrGone_writeTo sys.summaryFaults
          (flags.summary ++ ".partial") flags.summary (.other "") (.summary _) sys.summaryWrite
          (d.put flags.output (.csv lines))
        · rw [hput] at h
          cases h
        · rw [hput] at h
          exact (Prod.mk.inj h).2.symm
      · cases h
  · rw [Action.bind_error hpublish] at h
    exact Or.inl (Prod.mk.inj h).2.symm

/-- Without code there are no logs, so that those since the deployment are all of them. -/
theorem rangeLogs_deployed {history : Nat → List RpcLog} {deployment cutoff : UInt64}
    (hle : deployment ≤ cutoff) (hsilent : ∀ n < deployment.toNat, history n = []) :
    rangeLogs history deployment cutoff = rangeLogs history 0 cutoff := by
  have hnat := UInt64.le_iff_toNat_le.mp hle
  have hzero : (0 : UInt64).toNat = 0 := rfl
  have hsplit : blocks 0 cutoff = List.range' 0 deployment.toNat ++ blocks deployment cutoff := by
    have hcount : cutoff.toNat - 0 + 1 =
        deployment.toNat + (cutoff.toNat - deployment.toNat + 1) := by omega
    have hstart : blocks deployment cutoff =
        List.range' (0 + deployment.toNat) (cutoff.toNat - deployment.toNat + 1) := by
      rw [blocks, zero_add]
    rw [hstart, blocks, hzero, hcount, List.range'_append_1]
  have hbefore : (List.range' 0 deployment.toNat).flatMap history = [] := by
    rw [List.flatMap_eq_nil_iff]
    intro n hn
    have hlt := (List.mem_range'_1.mp hn).2
    exact hsilent n (by omega)
  rw [rangeLogs, rangeLogs, hsplit, List.flatMap_append, hbefore, List.nil_append]

/-- The block, its state and the code are the expected ones. -/
structure Pinned (flags : Flags) (chain : Nat → Bytes) (record : Summary) : Prop where
  block : record.cutoffBlock = flags.cutoff
  hash : equalFold record.cutoffBlockHash flags.expectedHash = true
  root : equalFold record.cutoffStateRoot flags.expectedRoot = true
  codeHash : equalFold record.contractCodeHash flags.expectedCodeHash = true
  deployment : ∀ n ≤ flags.cutoff.toNat, chain n ≠ [] ↔ record.deploymentBlock.toNat ≤ n

/-- What a run leaves, by the logs of the chain up to the cutoff. -/
structure Published (sys : System) (flags : Flags) (node : Node) (chain : Nat → Bytes)
    (history : Nat → List RpcLog) (scan : UInt64 → Except String Replay) : Prop where
  completes : ∀ d record next, main sys flags node scan d = (.ok record, next) →
    Pinned flags chain record ∧
      ∃ lines, next = (d.put flags.output (.csv lines)).put flags.summary (.summary record) ∧
        Summarised sys flags node (rangeLogs history 0 flags.cutoff) record lines
  /-- A run that fails leaves the disk as it was, or the holders without a summary. -/
  fails : ∀ d e next, main sys flags node scan d = (.error e, next) →
    next = d ∨ ∃ supply lines, readSupply node = .ok supply ∧
      HoldersOf sys flags.contract (rangeLogs history 0 flags.cutoff) supply lines ∧
        next = d.put flags.output (.csv lines)

theorem readBlock_ok {block : RpcBlock} (h : readBlock flags node = .ok block) :
    equalFold block.hash flags.expectedHash = true ∧
      equalFold block.stateRoot flags.expectedRoot = true := by
  rw [readBlock, bind_eq_ok] at h
  obtain ⟨served, -, h⟩ := h
  rw [bind_eq_ok] at h
  obtain ⟨number, -, h⟩ := h
  rw [guard_eq_ok, guard_eq_ok, guard_eq_ok, Except.ok.injEq] at h
  obtain ⟨-, hhash, hroot, rfl⟩ := h
  exact ⟨not_not.mp hhash, not_not.mp hroot⟩

theorem readCodeHash_ok {codeHash : String} (h : readCodeHash sys flags node = .ok codeHash) :
    equalFold codeHash flags.expectedCodeHash = true := by
  rw [readCodeHash, bind_eq_ok] at h
  obtain ⟨code, -, h⟩ := h
  dsimp only at h
  rw [guard_eq_ok, Except.ok.injEq] at h
  obtain ⟨hhash, rfl⟩ := h
  exact not_not.mp hhash

/-- A step that only reads is left with its value, or the run fails without a trace. -/
theorem lift_bind_cases {α : Type} {r : Except String α} {f : α → Action File String Summary}
    {d next : Disk File} {o : Except String Summary} (h : (lift r >>= f) d = (o, next)) :
    (∃ a, r = .ok a ∧ f a d = (o, next)) ∨ ∃ e, o = .error e ∧ next = d := by
  cases r with
  | error e =>
    rw [Action.bind_error (lift_run _ d), Prod.mk.injEq] at h
    exact Or.inr ⟨e, h.1.symm, h.2.symm⟩
  | ok a =>
    rw [Action.bind_ok (lift_run _ d)] at h
    exact Or.inl ⟨a, rfl, h⟩

/-- What a run has established when it starts to write. -/
theorem main_cases {chain : Nat → Bytes} {history : Nat → List RpcLog}
    {scan : UInt64 → Except String Replay}
    (hserves : ServesCode (fun number => contractCodeAt node (node.code number)) chain)
    (hstays : CodeStays chain flags.cutoff) (hsilent : ∀ n, chain n = [] → history n = [])
    (hscan : Scanned history flags scan) {d next : Disk File} {o : Except String Summary}
    (h : main sys flags node scan d = (o, next)) :
    (∃ block codeHash deployment replay, readBlock flags node = .ok block ∧
      readCodeHash sys flags node = .ok codeHash ∧
      (∀ n ≤ flags.cutoff.toNat, chain n ≠ [] ↔ deployment.toNat ≤ n) ∧
      Summed flags.contract (rangeLogs history 0 flags.cutoff) replay ∧
      finish sys flags node block codeHash deployment replay d = (o, next)) ∨
    ∃ e, o = .error e ∧ next = d := by
  rw [main] at h
  cases hflags : flags.complete with
  | false =>
    rw [hflags, if_neg Bool.false_ne_true, Action.bind_error (raiseIf_some _ _),
      Prod.mk.injEq] at h
    exact Or.inr ⟨_, h.1.symm, h.2.symm⟩
  | true =>
    rw [hflags, if_pos rfl, Action.bind_ok (raiseIf_none _)] at h
    obtain ⟨block, hblock, h⟩ | hfails := lift_bind_cases h
    · obtain ⟨codeHash, hcode, h⟩ | hfails := lift_bind_cases h
      · obtain ⟨deployment, hfound, h⟩ | hfails := lift_bind_cases h
        · obtain ⟨replay, hreplay, h⟩ | hfails := lift_bind_cases h
          · rw [context_ok] at hfound hreplay
            obtain ⟨hle, -, -⟩ := found_appears hserves hfound
            have hblocks : ∀ n ≤ flags.cutoff.toNat, chain n ≠ [] ↔ deployment.toNat ≤ n :=
              fun n hn => found_first hserves hstays hfound hn
            have hbefore : ∀ n < deployment.toNat, history n = [] := by
              intro n hn
              have hnat := UInt64.le_iff_toNat_le.mp hle
              have hnone := mt (hblocks n (by omega)).mp (Nat.not_le.mpr hn)
              exact hsilent n (not_not.mp hnone)
            left
            refine ⟨block, codeHash, deployment, replay, hblock, hcode, hblocks, ?_, h⟩
            rw [← rangeLogs_deployed hle hbefore]
            exact scanned_summed hscan hflags hle hreplay
          · exact Or.inr hfails
        · exact Or.inr hfails
      · exact Or.inr hfails
    · exact Or.inr hfails

/-- Five are deposited and two sent on in block 4, a block after the deployment. -/
def sampleHistory (n : Nat) : List RpcLog := if n = 4 then sampleLogs '3' else []

def sampleReplay : Except String Replay :=
  replayRange sampleContract (fun a b => .ok (rangeLogs sampleHistory a b)) ⟨3, 10⟩

def sampleScan (deployment : UInt64) : Except String Replay :=
  if deployment = 3 then sampleReplay.map (collect {}) else .error "not scanned"

def sampleFlags : Flags where
  rpcURL := "http://127.0.0.1:9500"
  contract := sampleContract
  cutoff := 10
  expectedHash := "0xaa"
  expectedRoot := "0xbb"
  expectedCodeHash := "0x60"
  workers := 1
  output := "holders.csv"
  summary := "holders.json"

def sampleSystem : System where
  keccak256 := id
  order := id
  order_perm := List.Perm.refl
  csvFaults := ⟨none, none, "exists", "missing"⟩
  csvWrite := none
  summaryFaults := ⟨none, none, "exists", "missing"⟩
  summaryWrite := none

/-- The first call for the reserve fails. -/
def sampleNode : Node where
  unmarshalText := .ok
  unmarshalBlock _ := .ok ⟨"0xa", "0xAA", "0xbb"⟩
  block _ := .ok {}
  cutoffCode _ := .ok { result := "0x60" }
  code block _ := .ok { result := prefixedHex (sampleChain block.toNat) }
  totalSupply _ := .ok { result := "0x5" }
  reserve i := if i = 0 then .error "EOF" else .ok { result := "0x5" }

theorem sampleScan_scanned : Scanned sampleHistory sampleFlags sampleScan := by
  intro deployment replay h
  rw [sampleScan] at h
  split at h
  · rename_i hthree
    subst hthree
    cases hresult : sampleReplay with
    | error e =>
      rw [hresult] at h
      cases h
    | ok result =>
      rw [hresult] at h
      have hprocessed : replayed sampleContract sampleHistory ⟨3, 10⟩ result :=
        ⟨_, fun _ _ _ _ hok => (Except.ok.inj hok).symm, result, hresult, .refl _, rfl⟩
      have hplan : ranges sampleFlags.cutoff sampleFlags.rangeSize 3 = [⟨3, 10⟩] := by
        decide +kernel
      let last : Shared RangeJob Replay String :=
        { sender := []
          closed := true
          resultsClosed := true
          collected := [result]
          outcome := some (.ok [result]) }
      refine ⟨⟨last, [.done]⟩, ?_, ?_⟩
      · refine .head (.sender (.send hplan (by decide))) ?_
        refine .head (.sender (.close rfl rfl)) ?_
        refine .head (.worker [] [] (.take rfl)) ?_
        refine .head (.worker [] [] (.process hprocessed)) ?_
        refine .head (.worker [] [] (.deliver (by decide))) ?_
        refine .head (.worker [] [] (.leave rfl rfl)) ?_
        refine .head (.worker [] [] .finish) ?_
        refine .head (.closeResults (by simp) rfl) ?_
        refine .head (.collector (.receive rfl)) ?_
        exact .single (.collector (.finish rfl rfl rfl))
      · exact h ▸ rfl
  · cases h

end WoneExport
