import SupplyAudit.CreatedAccounts
import SupplyAudit.BlacklistedAddresses
import SupplyAudit.ExploitFlow
import SupplyAudit.HexText

/-!
# Where a bisected account begins to exist

With the answers of one history every account is bisected on its own, as if the
others were not there. Its block is one where it begins to exist, provided that
some block the bisection saw, or the last one, has the account with a balance, a
nonce or code. That the trie of the last block has the account does not say so.
-/

namespace TransitionBlocks

open NumeralText ByteWords ScriptValues FallibleScan AuditFiles Bisection CreatedAccounts

/-! ## Histories -/

structure Account where
  balance : Nat
  nonce : Nat
  code : Bytes

/-- What the state trie of a block holds for an address. -/
abbrev History := Int → String → Option Account

/-- An absent account is answered for as an empty one. -/
def answer (history : History) (call : Call) : String :=
  let account := (history call.block call.address).getD ⟨0, 0, []⟩
  match call.method with
  | .getBalance => quantity account.balance
  | .getTransactionCount => quantity account.nonce
  | .getCode => prefixedHex account.code

def Truthful (node : Node) (history : History) : Prop :=
  ∀ calls, node.batch calls = .ok (calls.map (answer history))

/-- The account has a balance, a nonce or code. -/
def alive (history : History) (address : String) (block : Int) : Bool :=
  match history block address with
  | none => false
  | some account => account.balance ≠ 0 ∨ account.nonce ≠ 0 ∨ account.code ≠ []

variable (txt : AccountText)

/-- The script's own test at a block. -/
def ExistsAt (history : History) (address : String) (block : Int) : Prop :=
  accountExists txt (answer history ⟨.getBalance, address, block⟩)
    (answer history ⟨.getTransactionCount, address, block⟩)
    (answer history ⟨.getCode, address, block⟩) = .ok true

variable {txt} {history : History} {node : Node}

theorem parseHex_quantity (n : Nat) : parseHex txt (quantity n) = .ok (n : Int) := by
  rw [parseHex, txt.hexInt_quantity]

theorem prefixedHex_empty_iff {bs : Bytes} :
    (prefixedHex bs = "0x" ∨ prefixedHex bs = "0x0") ↔ bs = [] := by
  constructor
  · intro h
    by_contra hne
    have hlen : (prefixedHex bs).toList.length = 2 + 2 * bs.length := by
      rw [HexText.toList_prefixedHex, List.length_cons, List.length_cons,
        HexText.length_hexDigits]
      omega
    have hpos : bs.length ≠ 0 := fun hzero => hne (List.length_eq_zero_iff.mp hzero)
    have hshort : "0x".toList.length = 2 ∧ "0x0".toList.length = 3 := by decide
    obtain heq | heq := h
    · rw [heq] at hlen
      omega
    · rw [heq] at hlen
      omega
  · rintro rfl
    exact Or.inl rfl

theorem accountExists_answer (address : String) (block : Int) :
    accountExists txt (answer history ⟨.getBalance, address, block⟩)
        (answer history ⟨.getTransactionCount, address, block⟩)
        (answer history ⟨.getCode, address, block⟩) = .ok (alive history address block) := by
  simp only [accountExists, answer, alive, parseHex_quantity, bind_ok, prefixedHex_empty_iff]
  cases history block address with
  | none => simp
  | some account =>
    simp only [Option.getD_some, Nat.cast_ne_zero, ne_eq]
    by_cases hbalance : account.balance = 0
    · simp [hbalance]
    · simp [hbalance]

theorem existsAt_iff {address : String} {block : Int} :
    ExistsAt txt history address block ↔ alive history address block = true := by
  rw [ExistsAt, accountExists_answer, Except.ok.injEq]

/-! ## Rounds -/

section Rounds

theorem getElem?_flatMap {α β : Type} {f : α → List β} {n : Nat} (hlen : ∀ a, (f a).length = n)
    (l : List α) {i j : Nat} (hj : j < n) :
    (l.flatMap f)[i * n + j]? = (l[i]?).bind fun a => (f a)[j]? := by
  induction l generalizing i with
  | nil => simp
  | cons a l ih =>
    rw [List.flatMap_cons]
    cases i with
    | zero =>
      rw [Nat.zero_mul, Nat.zero_add, List.getElem?_append_left (by rw [hlen]; exact hj)]
      rfl
    | succ i =>
      have hle : (f a).length ≤ (i + 1) * n + j := by
        rw [hlen, Nat.succ_mul]
        omega
      rw [List.getElem?_append_right hle, List.getElem?_cons_succ, ← ih]
      congr 1
      rw [hlen, Nat.succ_mul]
      omega

variable {bounds : Bounds}

/-- The three values of an active account are where the script looks for them. -/
theorem applyAnswer_truthful {l : Bounds} {e : String × Window} {i : Nat} (h : l[i]? = some e)
    (current : Bounds) :
    applyAnswer txt ((l.flatMap callsOf).map (answer history)) current (e, i) =
      .ok (KeyedTable.set current e.1 (e.2.narrow (alive history e.1 e.2.middle))) := by
  have hvalue : ∀ (j : Nat) (call : Call), j < 3 → (callsOf e)[j]? = some call →
      valueAt ((l.flatMap callsOf).map (answer history)) (i * 3 + j) =
        .ok (answer history call) := by
    intro j call hj hcall
    have hat : (l.flatMap callsOf)[i * 3 + j]? = some call := by
      have hlen : ∀ entry, (callsOf entry).length = 3 := fun _ => rfl
      rw [getElem?_flatMap hlen l hj, h]
      exact hcall
    rw [valueAt, List.getElem?_map, hat]
    rfl
  have hbalance := hvalue 0 ⟨.getBalance, e.1, e.2.middle⟩ (by decide) rfl
  have hnonce := hvalue 1 ⟨.getTransactionCount, e.1, e.2.middle⟩ (by decide) rfl
  have hcode := hvalue 2 ⟨.getCode, e.1, e.2.middle⟩ (by decide) rfl
  rw [Nat.add_zero] at hbalance
  simp only [applyAnswer, hbalance, hnonce, hcode, bind_ok, accountExists_answer]

/-- A round advances every window by its own answer. -/
theorem round_truthful (hnode : Truthful node history) (hnodup : (bounds.map Prod.fst).Nodup) :
    CreatedAccounts.round txt node bounds =
      .ok (bounds.map fun e => (e.1, e.2.advance (alive history e.1))) := by
  rw [CreatedAccounts.round, hnode, bind_ok]
  have hstep : ∀ numbered ∈ (active bounds).zipIdx, ∀ current,
      applyAnswer txt (((active bounds).flatMap callsOf).map (answer history)) current numbered =
        .ok (KeyedTable.set current numbered.1.1
          (numbered.1.2.narrow (alive history numbered.1.1 numbered.1.2.middle))) := by
    rintro ⟨e, i⟩ hmem current
    exact applyAnswer_truthful (List.mk_mem_zipIdx_iff_getElem?.mp hmem) current
  rw [foldlM_ok hstep]
  have hfold : (active bounds).zipIdx.foldl (fun current numbered =>
      KeyedTable.set current numbered.1.1
        (numbered.1.2.narrow (alive history numbered.1.1 numbered.1.2.middle))) bounds =
      (active bounds).foldl (fun current e =>
        KeyedTable.set current e.1 (e.2.narrow (alive history e.1 e.2.middle))) bounds := by
    conv_rhs => rw [← List.zipIdx_map_fst 0 (active bounds), List.foldl_map]
  rw [hfold, active, foldl_set_eq_map hnodup]
  apply congrArg Except.ok
  apply List.map_congr_left
  intro e he
  by_cases hopen : e.2.isOpen
  · simp [Window.advance, hopen]
  · simp [Window.advance, hopen]

theorem nodup_advance (hnodup : (bounds.map Prod.fst).Nodup) (f : String × Window → Window) :
    ((bounds.map fun e => (e.1, f e)).map Prod.fst).Nodup := by
  rw [List.map_map]
  exact hnodup

/-- The loop bisects every account on its own. -/
theorem bisect_truthful (hnode : Truthful node history) (hnodup : (bounds.map Prod.fst).Nodup)
    (rounds : Nat) :
    bisect txt node rounds bounds =
      .ok (bounds.map fun e => (e.1, settle (alive history e.1) rounds e.2)) := by
  induction rounds generalizing bounds with
  | zero => simp [bisect, settle]
  | succ rounds ih =>
    rw [bisect]
    by_cases hnone : active bounds = []
    · rw [if_pos hnone]
      apply congrArg Except.ok
      conv_lhs => rw [← List.map_id bounds]
      apply List.map_congr_left
      intro e he
      have hclosed : ¬ e.2.isOpen := by
        intro hopen
        have hmem : e ∈ active bounds := List.mem_filter.mpr ⟨he, decide_eq_true hopen⟩
        rw [hnone] at hmem
        cases hmem
      rw [settle_closed _ hclosed]
      rfl
    · rw [if_neg hnone, round_truthful hnode hnodup, bind_ok,
        ih (nodup_advance hnodup fun e => e.2.advance (alive history e.1)), List.map_map]
      rfl

end Rounds

/-! ## The accounts of a state difference -/

/-- The rows are those of a difference between the tries of two blocks: a created account is in
the new trie and not in the old one. -/
structure StateDiff (py : PyText) (history : History) (oldBlock newBlock : Int)
    (rows : List Row) : Prop where
  typed : ∀ row ∈ rows, ∃ kind, row.lookup "change_type" = some kind
  created : ∀ row ∈ rows, row.lookup "change_type" = some (some "created") →
    ∃ address, row.lookup "address" = some (some address) ∧
      history oldBlock (py.lower address) = none ∧
      (history newBlock (py.lower address)).isSome

def addressOf (py : PyText) (row : Row) : String :=
  py.lower (((row.lookup "address").join).getD "")

/-- The addresses of the created accounts, in lower case. -/
def createdAddresses (py : PyText) (rows : List Row) : List String :=
  (rows.filter fun row => row.lookup "change_type" = some (some "created")).map (addressOf py)

variable {rows : List Row} {args : Args} {oldBlock newBlock : Int}

theorem get_of_lookup {row : Row} {field : String} {cell : Option String}
    (h : row.lookup field = some cell) : row.get field = .ok cell := by
  simp only [Row.get, h]

/-- The created rows are those whose change says so. -/
theorem createdRows_ok (h : ∀ row ∈ rows, ∃ kind, row.lookup "change_type" = some kind) :
    createdRows rows =
      .ok (rows.filter fun row => row.lookup "change_type" = some (some "created")) := by
  induction rows with
  | nil => rfl
  | cons row rows ih =>
    obtain ⟨⟨kind, hkind⟩, hrest⟩ := List.forall_mem_cons.mp h
    have htail := ih hrest
    rw [createdRows, bind_eq_ok] at htail
    obtain ⟨kinds, hkinds, hfiltered⟩ := htail
    rw [Except.ok.injEq] at hfiltered
    rw [createdRows, List.mapM_cons, get_of_lookup hkind, hkinds, List.filter_cons, hkind,
      ← hfiltered]
    simp only [raisePython, bind_ok, pure_eq_ok, List.zip_cons_cons, List.filter_cons,
      Option.some.injEq]
    split <;> rfl

theorem lowerAddress_ok {row : Row} {text : String}
    (h : row.lookup "address" = some (some text)) :
    lowerAddress txt row = .ok (addressOf txt.toPyText row) := by
  simp [lowerAddress, addressOf, get_of_lookup h, h, raisePython, PyText.lowered]

theorem values_foldl_set {κ β α : Type} [DecidableEq κ] (key : α → κ) (value : β) (l : List α)
    {table : List (κ × β)} (h : ∀ e ∈ table, e.2 = value) :
    ∀ e ∈ l.foldl (fun t a => KeyedTable.set t (key a) value) table, e.2 = value := by
  induction l generalizing table with
  | nil => exact h
  | cons a l ih =>
    have hset : ∀ e ∈ KeyedTable.set table (key a) value, e.2 = value :=
      KeyedTable.forall_set h rfl
    exact ih hset

/-- Every created account starts with the whole interval, and after the loop has the window that
its own bisection leaves. -/
theorem transitions_ok (hnode : Truthful node history)
    (hrows : StateDiff txt.toPyText history args.oldBlock args.newBlock rows) :
    ∃ bounds, transitions txt node args rows = .ok bounds ∧
      (bounds.map Prod.fst).Nodup ∧
      (∀ address, address ∈ bounds.map Prod.fst ↔
        address ∈ createdAddresses txt.toPyText rows) ∧
      ∀ e ∈ bounds, e.2 = settle (alive history e.1) (args.newBlock - args.oldBlock).toNat
        ⟨args.oldBlock + 1, args.newBlock⟩ := by
  obtain ⟨start, hstart⟩ : ∃ start : Bounds, start =
      (rows.filter fun row => row.lookup "change_type" = some (some "created")).foldl
        (fun t row => KeyedTable.set t (addressOf txt.toPyText row)
          ⟨args.oldBlock + 1, args.newBlock⟩) [] := ⟨_, rfl⟩
  have hbounds : startBounds txt args.oldBlock args.newBlock
      (rows.filter fun row => row.lookup "change_type" = some (some "created")) = .ok start := by
    rw [hstart, startBounds]
    apply foldlM_ok
    intro row hrow current
    rw [List.mem_filter, decide_eq_true_eq] at hrow
    obtain ⟨text, htext, -⟩ := hrows.created row hrow.1 hrow.2
    rw [lowerAddress_ok htext]
    rfl
  have hnodup : (start.map Prod.fst).Nodup := by
    rw [hstart]
    apply KeyedTable.nodup_foldl_set
    exact List.nodup_nil
  refine ⟨_, ?_, nodup_advance hnodup fun e =>
    settle (alive history e.1) (args.newBlock - args.oldBlock).toNat e.2, ?_, ?_⟩
  · rw [transitions, createdRows_ok hrows.typed, bind_ok, hbounds, bind_ok]
    exact bisect_truthful hnode hnodup _
  · intro address
    rw [List.map_map]
    change address ∈ start.map Prod.fst ↔ _
    rw [hstart, KeyedTable.mem_keys_foldl_set]
    simp [createdAddresses]
  · intro e he
    obtain ⟨source, hsource, rfl⟩ := List.mem_map.mp he
    have hwhole : source.2 = ⟨args.oldBlock + 1, args.newBlock⟩ := by
      rw [hstart] at hsource
      exact values_foldl_set _ _ _ (fun e he => absurd he List.not_mem_nil) source hsource
    rw [hwhole]

/-! ## Transition blocks -/

/-- The loop ends with every window closed, and every created account begins to exist at the
block found for it. -/
def TransitionsHold (txt : AccountText) (node : Node) (args : Args) (history : History)
    (rows : List Row) : Prop :=
  ∃ bounds, transitions txt node args rows = .ok bounds ∧ (∀ e ∈ bounds, ¬ e.2.isOpen) ∧
    ∀ address ∈ createdAddresses txt.toPyText rows, ∃ w, (address, w) ∈ bounds ∧
      args.oldBlock < w.low ∧ w.low ≤ args.newBlock ∧ ExistsAt txt history address w.low ∧
      ¬ ExistsAt txt history address (w.low - 1)

/-- The blocks that a bisection of the interval looks at while it finds nothing. -/
def upwardProbes (args : Args) : List Int :=
  probes (args.newBlock - args.oldBlock).toNat ⟨args.oldBlock + 1, args.newBlock⟩

/-- What is reported of an account is the block found for it. -/
theorem report_blocks {taken : String → Bool} {report : Report}
    (h : main txt node args taken rows = .ok report) :
    ∃ bounds, transitions txt node args rows = .ok bounds ∧
      List.Forall₂ (fun (e : String × Window) (r : ReportRow) =>
          r.transitionBlock = e.2.low ∧ txt.lowered r.address = .ok e.1)
        (bounds.insertionSort fun a b => a.1 ≤ b.1) report.rows := by
  unfold main at h
  cases htaken : [args.output, args.summary].find?
      (fun p => taken p || taken (p ++ ".partial")) with
  | some p =>
    rw [htaken] at h
    cases h
  | none =>
    simp only [htaken, bind_eq_ok] at h
    obtain ⟨created, -, byAddress, hindex, bounds, hbounds, reported, hreported, u, -, hreport⟩ := h
    cases hreport
    have hindexed : ∀ e ∈ byAddress, lowerAddress txt e.2 = .ok e.1 := by
      have hempty : ∀ e ∈ ([] : List (String × Row)), lowerAddress txt e.2 = .ok e.1 :=
        fun e he => absurd he List.not_mem_nil
      refine foldlM_invariant (fun _ table => ∀ e ∈ table, lowerAddress txt e.2 = .ok e.1)
        (fun _ table row next hinv hstep => ?_) [] hempty hindex
      obtain ⟨address, haddress, hnext⟩ := bind_eq_ok.mp hstep
      cases hnext
      exact KeyedTable.forall_set hinv haddress
    refine ⟨bounds, hbounds, (mapM_ok_iff.mp hreported).imp fun e r hrow => ?_⟩
    obtain ⟨⟨hash, evidence⟩, -, hrow⟩ := bind_eq_ok.mp hrow
    cases hlookup : byAddress.lookup e.1 with
    | none =>
      simp only [hlookup] at hrow
      cases hrow
    | some row =>
      simp only [hlookup, bind_eq_ok, raisePython_ok] at hrow
      obtain ⟨secureKey, -, address, haddress, balance, -, nonce, -, codeHash, -, hr⟩ := hrow
      cases hr
      have hkey := hindexed _ (KeyedTable.mem_of_lookup hlookup)
      rw [lowerAddress, haddress] at hkey
      exact ⟨rfl, raisePython_ok.mp hkey⟩

/-- The blocks found are transitions exactly when every created account passes the test at the
new block or at one of those on the way up to it. -/
theorem transitions_hold_iff (hrange : args.oldBlock < args.newBlock)
    (hnode : Truthful node history)
    (hrows : StateDiff txt.toPyText history args.oldBlock args.newBlock rows) :
    TransitionsHold txt node args history rows ↔
      ∀ address ∈ createdAddresses txt.toPyText rows,
        ExistsAt txt history address args.newBlock ∨
          ∃ m ∈ upwardProbes args, ExistsAt txt history address m := by
  obtain ⟨bounds, hbounds, hnodup, hkeys, hwindows⟩ := transitions_ok hnode hrows
  have hwidth : (⟨args.oldBlock + 1, args.newBlock⟩ : Window).width ≤
      (args.newBlock - args.oldBlock).toNat := by
    simp only [Window.width]
    omega
  have hbegins : ∀ address ∈ createdAddresses txt.toPyText rows,
      Begins (alive history address) ⟨args.oldBlock + 1, args.newBlock⟩
          (settle (alive history address) (args.newBlock - args.oldBlock).toNat
            ⟨args.oldBlock + 1, args.newBlock⟩).low ↔
        ExistsAt txt history address args.newBlock ∨
          ∃ m ∈ upwardProbes args, ExistsAt txt history address m := by
    intro address haddress
    obtain ⟨row, hrow, rfl⟩ := List.mem_map.mp haddress
    rw [List.mem_filter, decide_eq_true_eq] at hrow
    obtain ⟨text, htext, hold, -⟩ := hrows.created row hrow.1 hrow.2
    have habsent : alive history (addressOf txt.toPyText row) (args.oldBlock + 1 - 1) = false := by
      rw [Int.add_sub_cancel, alive, addressOf, htext, Option.join_some, Option.getD_some, hold]
    rw [begins_iff (by simp only; omega) habsent hwidth]
    simp only [existsAt_iff]
    rfl
  constructor
  · rintro ⟨bounds', hbounds', -, hall⟩ address haddress
    rw [hbounds, Except.ok.injEq] at hbounds'
    subst hbounds'
    obtain ⟨w, hw, hlow, hhigh, hexists, hbefore⟩ := hall address haddress
    have hsettled := hwindows _ hw
    simp only at hsettled
    rw [← hbegins address haddress, ← hsettled]
    rw [existsAt_iff] at hexists hbefore
    exact ⟨by simp only; omega, hhigh, hexists, by simpa using hbefore⟩
  · intro h
    refine ⟨bounds, hbounds, fun e he => ?_, fun address haddress => ?_⟩
    · rw [hwindows e he]
      exact settle_closes hwidth
    · obtain ⟨e, he, rfl⟩ := List.mem_map.mp ((hkeys address).mpr haddress)
      obtain ⟨hlow, hhigh, hholds, hbefore⟩ := (hbegins e.1 haddress).mpr (h e.1 haddress)
      rw [← hwindows e he] at hlow hhigh hholds hbefore
      refine ⟨e.2, he, by simp only at hlow; omega, hhigh, existsAt_iff.mpr hholds, ?_⟩
      rw [existsAt_iff, hbefore]
      exact Bool.false_ne_true

/-! ## An account with nothing -/

theorem mapM_hexValue {l : List Nat} (h : ∀ d ∈ l, d < 16) :
    (l.map Nat.digitChar).mapM TraceInspection.hexValue = some (l.map UInt8.ofNat) := by
  induction l with
  | nil => rfl
  | cons d l ih =>
    obtain ⟨hd, hl⟩ := List.forall_mem_cons.mp h
    rw [List.map_cons, List.mapM_cons, BlacklistedAddresses.hexValue_digitChar d hd, ih hl]
    rfl

/-- The digits of a quantity are read back, the last one first. -/
theorem foldl_digits {l : List Nat} (h : ∀ d ∈ l, d < 16) :
    (l.reverse.map UInt8.ofNat).foldl (fun (n : Int) (value : UInt8) => n * 16 + value.toNat) 0 =
      ((Nat.ofDigits 16 l : Nat) : Int) := by
  induction l with
  | nil => rfl
  | cons d l ih =>
    obtain ⟨hd, hl⟩ := List.forall_mem_cons.mp h
    have hbyte : (UInt8.ofNat d).toNat = d := by
      rw [UInt8.toNat_ofNat']
      omega
    have hcons : (Nat.ofDigits 16 (d :: l) : Nat) = d + 16 * Nat.ofDigits 16 l :=
      Nat.ofDigits_cons
    rw [List.reverse_cons, List.map_append, List.foldl_append, ih hl, hcons]
    simp only [List.map_cons, List.map_nil, List.foldl_cons, List.foldl_nil, hbyte]
    push_cast
    ring

theorem readHex_quantity (n : Nat) : ExploitFlow.readHex (quantity n) = some (n : Int) := by
  by_cases hzero : n = 0
  · subst hzero
    decide
  · have hlist : (quantity n).toList =
        '0' :: 'x' :: (Nat.digits 16 n).reverse.map Nat.digitChar := by
      rw [quantity, if_neg hzero, String.toList_append, String.toList_ofList,
        String.toList_ofList]
      rfl
    have hdigit : ∀ d ∈ Nat.digits 16 n, d < 16 := fun d hd => Nat.digits_lt_base (by decide) hd
    rw [ExploitFlow.readHex, hlist]
    simp only
    rw [mapM_hexValue (fun d hd => hdigit d (List.mem_reverse.mp hd)), Option.map_some,
      foldl_digits hdigit, Nat.ofDigits_digits]

def plainText : AccountText :=
  { PyText.ascii with
    hexInt := ExploitFlow.readHex
    hexInt_quantity := readHex_quantity }

/-- A node that answers from this history and traces nothing. -/
def historyNode (history : History) : Node where
  batch calls := .ok (calls.map (answer history))
  traceBlock _ := .ok []
  blockTransactions _ := .ok []

def sampleArgs : Args where
  output := "created.csv"
  summary := "created.json"
  oldBlock := 1
  newBlock := 4

def sampleRows : List Row :=
  [[("secure_key", some "0x01"), ("address", some "0xAB"), ("change_type", some "created"),
    ("new_balance_atto", some "5"), ("new_nonce", some "0"), ("new_code_hash", some "")]]

/-- An account that is in the trie from the third block on. -/
def appears (account : Account) : History := fun block address =>
  if 3 ≤ block ∧ address = "0xab" then some account else none

theorem stateDiff_appears (account : Account) :
    StateDiff plainText.toPyText (appears account) 1 4 sampleRows := by
  have hlower : plainText.lower "0xAB" = "0xab" := by decide
  constructor
  case typed =>
    intro row hrow
    rw [sampleRows, List.mem_singleton] at hrow
    exact ⟨some "created", by rw [hrow]; rfl⟩
  case created =>
    intro row hrow _
    rw [sampleRows, List.mem_singleton] at hrow
    refine ⟨"0xAB", by rw [hrow]; rfl, ?_, ?_⟩
    · simp [appears]
    · simp [appears, hlower]

theorem transitions_hold_sample :
    TransitionsHold plainText (historyNode (appears ⟨5, 0, []⟩)) sampleArgs (appears ⟨5, 0, []⟩)
        sampleRows ↔
      ∀ address ∈ createdAddresses plainText.toPyText sampleRows,
        ExistsAt plainText (appears ⟨5, 0, []⟩) address sampleArgs.newBlock ∨
          ∃ m ∈ upwardProbes sampleArgs, ExistsAt plainText (appears ⟨5, 0, []⟩) address m :=
  transitions_hold_iff (by decide) (fun _ => rfl) (stateDiff_appears ⟨5, 0, []⟩)

/-- An account without balance, nonce and code is reported at the new block, where the test does
not see it either. -/
theorem empty_account_reported :
    StateDiff plainText.toPyText (appears ⟨0, 0, []⟩) sampleArgs.oldBlock sampleArgs.newBlock
        sampleRows ∧
      ¬ TransitionsHold plainText (historyNode (appears ⟨0, 0, []⟩)) sampleArgs
        (appears ⟨0, 0, []⟩) sampleRows := by
  refine ⟨stateDiff_appears ⟨0, 0, []⟩, ?_⟩
  rintro ⟨bounds, -, -, hall⟩
  have haddress : "0xab" ∈ createdAddresses plainText.toPyText sampleRows := by decide
  obtain ⟨w, -, -, -, hexists, -⟩ := hall "0xab" haddress
  have hnone : ∀ block, alive (appears ⟨0, 0, []⟩) "0xab" block = false := by
    intro block
    rw [alive, appears]
    split
    · rfl
    · rename_i account hsome
      split at hsome
      · cases hsome
        rfl
      · cases hsome
  rw [existsAt_iff, hnone] at hexists
  cases hexists

end TransitionBlocks
