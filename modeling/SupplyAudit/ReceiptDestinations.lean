import Mathlib.Data.List.Nodup
import SupplyAudit.IntervalAudit

/-!
# The destination blocks of receipts

`map-cx-receipt-destinations.py` asks the node of the destination shard, batch by
batch, where each outgoing receipt was applied, and writes a row for each. A
receipt that was never applied has a row of its own kind.
-/

namespace ReceiptDestinations

open ScriptValues FallibleScan AuditFiles IntervalAudit

/-! ## Fields with fallbacks -/

/-- The first of the names that the row has and that is not empty. -/
def firstField (row : Row) (names : List String) : Option (Option String) :=
  names.findSome? fun name => (row.lookup name).filter fun cell => cell ≠ some ""

def required (row : Row) (names : List String) (path : String) :
    Except AuditError (Option String) :=
  match firstField row names with
  | some cell => .ok cell
  | none => .error (.keyError (path ++ ": expected one of " ++ ", ".intercalate names))

variable (py : PyText)

/-- `int(required(row, names, path))` -/
def integer (row : Row) (names : List String) (path : String) : Except AuditError Int := do
  let cell ← required row names path
  raisePython (py.parsed cell)

/-! ## Selection -/

structure Args where
  input : String
  output : String
  destinationShard : Int
  minimumSourceBlock : Int := 0
  batchSize : Int := 100
  retries : Int := 5
  allowMissing : Bool := false

structure Selected where
  txHash : String
  sourceBlock : Int
  destinationShard : Int
  amountAtto : Option String

def selectRow (args : Args) (row : Row) : Except AuditError (Option Selected) := do
  let shard ← integer py row ["destination_shard", "to_shard"] args.input
  let block ← integer py row ["source_block"] args.input
  if shard ≠ args.destinationShard ∨ block < args.minimumSourceBlock then .ok none
  else do
    let hashCell ← required row ["tx_hash", "receipt_tx_hash"] args.input
    let hash ← raisePython (py.lowered hashCell)
    let amount ← required row ["amount_atto", "value_atto"] args.input
    .ok (some ⟨hash, block, shard, amount⟩)

def selectedRows (args : Args) (rows : List Row) : Except AuditError (List Selected) := do
  let chosen ← rows.mapM (selectRow py args)
  .ok (chosen.filterMap id)

/-! ## The node -/

/-- A receipt as the node of the destination shard has it. -/
structure CxReceipt where
  hash : String
  value : Value
  blockNumber : Value
  blockHash : String

/-- A call of `hmyv2_getCXReceiptByHash`. -/
structure Request where
  id : Int
  txHash : String

structure Item where
  id : Int
  error : Option String
  result : Option CxReceipt

/-- The batch call, after its retries; the answers come in any order. -/
structure Node where
  batch : List Request → Except AuditError (List Item)

/-! ## Mapping -/

inductive Destination where
  | notFound
  | applied (block : Int) (blockHash : String)
  deriving DecidableEq

structure Mapped where
  row : Selected
  destination : Destination

/-- `by_id[id]`: of several items the last counts. -/
def itemOf (response : List Item) (id : Int) : Except AuditError Item :=
  match response.reverse.find? fun item => item.id = id with
  | none => .error (.keyError (toString id))
  | some item => .ok item

def mapRow (response : List Item) (id : Int) (row : Selected) : Except AuditError Mapped := do
  let item ← itemOf response id
  match item.error, item.result with
  | some text, _ => .error (.runtimeError text)
  | none, none => .ok ⟨row, .notFound⟩
  | none, some receipt => do
    require (py.lower receipt.hash = row.txHash) (.valueError ("hash mismatch for " ++ row.txHash))
    let value ← receipt.value.int py
    let amount ← raisePython (py.parsed row.amountAtto)
    require (value = amount) (.valueError ("value mismatch for " ++ row.txHash))
    let block ← receipt.blockNumber.int py
    .ok ⟨row, .applied block receipt.blockHash⟩

/-- The loop over batches; every batch has at least one row. -/
def mapBatches (node : Node) (args : Args) :
    Nat → Int → List Selected → Except AuditError (List Mapped)
  | 0, _, _ => .ok []
  | fuel + 1, start, rows =>
    if rows.isEmpty then .ok []
    else do
      let chunk := rows.take args.batchSize.toNat
      let response ← node.batch (chunk.zipIdx.map fun numbered =>
        ⟨start + numbered.2, numbered.1.txHash⟩)
      let mapped ← chunk.zipIdx.mapM fun numbered =>
        mapRow py response (start + numbered.2) numbered.1
      let rest ← mapBatches node args fuel (start + args.batchSize)
        (rows.drop args.batchSize.toNat)
      .ok (mapped ++ rest)

/-! ## The written file -/

def fields : List String :=
  ["tx_hash", "source_block", "destination_shard", "amount_atto", "destination_status",
    "destination_block", "destination_block_hash"]

def Destination.cells : Destination → List String
  | .notFound => ["not_found", "", ""]
  | .applied block blockHash => ["applied", toString block, blockHash]

def Mapped.cells (mapped : Mapped) : List String :=
  [mapped.row.txHash, toString mapped.row.sourceBlock, toString mapped.row.destinationShard,
    mapped.row.amountAtto.getD ""] ++ mapped.destination.cells

structure Output where
  file : List (List String)
  mapped : Nat
  missing : Nat

def main (node : Node) (args : Args) (taken : String → Bool) (rows : List Row) :
    Except AuditError Output := do
  require (0 < args.batchSize ∧ 0 < args.retries)
    (.valueError "batch size and retries must be positive")
  let selected ← selectedRows py args rows
  let mapped ← mapBatches py node args selected.length 0 selected
  let missing := mapped.countP fun m => m.destination = .notFound
  require (missing = 0 ∨ args.allowMissing = true)
    (.valueError (toString missing ++ " destination receipts not found; rerun with " ++
      "--allow-missing only when missing receipts are intentionally " ++
      "kept outside the historical balance derivation"))
  require (taken args.output = false ∧ taken (args.output ++ ".partial") = false)
    (.fileExists args.output)
  .ok ⟨fields :: mapped.map Mapped.cells, mapped.length - missing, missing⟩

/-! ## Receipts and their rows -/

/-- A receipt from shard 0, and the block of the destination shard that applied it, if one did. -/
structure Credit where
  txHash : String
  amount : Int
  sourceBlock : Int
  applied : Option Int
  deriving DecidableEq

variable {py} {args : Args} {node : Node}

/-- The row of a receipt in the outgoing ledger. -/
structure CreditRow (py : PyText) (args : Args) (row : Row) (credit : Credit) : Prop where
  shard : integer py row ["destination_shard", "to_shard"] args.input = .ok args.destinationShard
  block : integer py row ["source_block"] args.input = .ok credit.sourceBlock
  hash : ∃ text, required row ["tx_hash", "receipt_tx_hash"] args.input = .ok (some text) ∧
    py.lower text = credit.txHash
  amount : ∃ text, required row ["amount_atto", "value_atto"] args.input = .ok (some text) ∧
    py.int text = some credit.amount

/-- The row of a receipt to another shard. -/
structure OtherRow (py : PyText) (args : Args) (row : Row) : Prop where
  shard : ∃ shard, integer py row ["destination_shard", "to_shard"] args.input = .ok shard ∧
    shard ≠ args.destinationShard
  block : ∃ block, integer py row ["source_block"] args.input = .ok block

/-- The ledger lists these receipts to the destination shard, among others. -/
inductive Lists (py : PyText) (args : Args) : List Row → List Credit → Prop where
  | nil : Lists py args [] []
  | credit {row : Row} {credit : Credit} {rows : List Row} {credits : List Credit} :
      CreditRow py args row credit → Lists py args rows credits →
        Lists py args (row :: rows) (credit :: credits)
  | other {row : Row} {rows : List Row} {credits : List Credit} :
      OtherRow py args row → Lists py args rows credits → Lists py args (row :: rows) credits

/-- What the script keeps of a receipt. -/
structure Keeps (py : PyText) (args : Args) (selected : Selected) (credit : Credit) : Prop where
  hash : selected.txHash = credit.txHash
  shard : selected.destinationShard = args.destinationShard
  amount : ∃ text, selected.amountAtto = some text ∧ text ≠ "" ∧ py.int text = some credit.amount

/-- A field that is read is not empty. -/
theorem required_ne_empty {row : Row} {names : List String} {path text : String}
    (h : required row names path = .ok (some text)) : text ≠ "" := by
  rw [required] at h
  cases hfirst : firstField row names with
  | none =>
    rw [hfirst] at h
    cases h
  | some cell =>
    rw [hfirst] at h
    cases h
    obtain ⟨name, -, hname⟩ := List.exists_of_findSome?_eq_some hfirst
    rw [Option.filter_eq_some_iff] at hname
    rintro rfl
    simp at hname

theorem selectRow_credit {row : Row} {credit : Credit} (h : CreditRow py args row credit) :
    if credit.sourceBlock < args.minimumSourceBlock then selectRow py args row = .ok none
    else ∃ selected, selectRow py args row = .ok (some selected) ∧
      Keeps py args selected credit := by
  obtain ⟨hash, hhash, hlower⟩ := h.hash
  obtain ⟨amount, hamount, hint⟩ := h.amount
  split
  · rename_i hbelow
    simp only [selectRow, h.shard, h.block, bind_ok, if_pos (Or.inr hbelow)]
  · rename_i hnot
    refine ⟨⟨py.lower hash, credit.sourceBlock, args.destinationShard, some amount⟩, ?_,
      hlower, rfl, amount, rfl, required_ne_empty hamount, hint⟩
    simp only [selectRow, h.shard, h.block, bind_ok, ne_eq, not_true_eq_false, false_or,
      if_neg hnot, hhash, hamount, PyText.lowered, raisePython]

theorem selectRow_other {row : Row} (h : OtherRow py args row) :
    selectRow py args row = .ok none := by
  obtain ⟨shard, hshard, hne⟩ := h.shard
  obtain ⟨block, hblock⟩ := h.block
  simp only [selectRow, hshard, hblock, bind_ok, if_pos (Or.inl hne)]

/-- The receipts from the minimal source block on. -/
def recent (args : Args) (credits : List Credit) : List Credit :=
  credits.filter fun credit => args.minimumSourceBlock ≤ credit.sourceBlock

theorem selectedRows_cons {row : Row} {rows : List Row} {chosen : Option Selected}
    {rest : List Selected} (hrow : selectRow py args row = .ok chosen)
    (hrest : selectedRows py args rows = .ok rest) :
    selectedRows py args (row :: rows) = .ok (chosen.toList ++ rest) := by
  simp only [selectedRows, bind_eq_ok] at hrest
  obtain ⟨all, hall, hout⟩ := hrest
  cases hout
  simp only [selectedRows, List.mapM_cons, hrow, hall, bind_ok, pure_eq_ok]
  cases chosen <;> rfl

/-- The selection keeps exactly the recent receipts to the destination shard. -/
theorem selectedRows_ok {rows : List Row} {credits : List Credit}
    (h : Lists py args rows credits) :
    ∃ selected, selectedRows py args rows = .ok selected ∧
      List.Forall₂ (Keeps py args) selected (recent args credits) := by
  induction h with
  | nil => exact ⟨[], rfl, .nil⟩
  | @credit row credit rows credits hrow hrest ih =>
    obtain ⟨rest, hselected, hkeeps⟩ := ih
    have hchosen := selectRow_credit hrow
    by_cases hbelow : credit.sourceBlock < args.minimumSourceBlock
    · rw [if_pos hbelow] at hchosen
      refine ⟨rest, selectedRows_cons hchosen hselected, ?_⟩
      rw [recent, List.filter_cons_of_neg (by simpa using hbelow)]
      exact hkeeps
    · rw [if_neg hbelow] at hchosen
      obtain ⟨selected, hok, hkeep⟩ := hchosen
      refine ⟨selected :: rest, selectedRows_cons hok hselected, ?_⟩
      rw [recent, List.filter_cons_of_pos (by simpa using hbelow)]
      exact .cons hkeep hkeeps
  | other hrow hrest ih =>
    obtain ⟨rest, hselected, hkeeps⟩ := ih
    exact ⟨rest, selectedRows_cons (selectRow_other hrow) hselected, hkeeps⟩

/-! ## A truthful node -/

/-- The node answers every request of a batch with what it knows of the hash. -/
def Answers (node : Node) (find : String → Option CxReceipt) : Prop :=
  ∀ requests : List Request, (requests.map Request.id).Nodup →
    ∃ items, node.batch requests = .ok items ∧
      items.Perm (requests.map fun request => ⟨request.id, none, find request.txHash⟩)

/-- What the node knows of a receipt: nothing, or its hash, amount and block. -/
def Knows (py : PyText) (find : String → Option CxReceipt) (credit : Credit) : Prop :=
  match credit.applied with
  | none => find credit.txHash = none
  | some block => ∃ receipt, find credit.txHash = some receipt ∧
      py.lower receipt.hash = credit.txHash ∧ receipt.value.int py = .ok credit.amount ∧
      receipt.blockNumber.int py = .ok block

variable {find : String → Option CxReceipt}

/-- Whatever the order of the answers, an id gives its own. -/
theorem itemOf_perm {items : List Item} {requests : List Request}
    (hperm : items.Perm (requests.map fun request => ⟨request.id, none, find request.txHash⟩))
    (hids : (requests.map Request.id).Nodup) {request : Request} (hmem : request ∈ requests) :
    itemOf items request.id = .ok ⟨request.id, none, find request.txHash⟩ := by
  have hitem : ∀ item ∈ items.reverse, item.id = request.id →
      item = ⟨request.id, none, find request.txHash⟩ := by
    intro item hin hid
    obtain ⟨other, hother, rfl⟩ := List.mem_map.mp (hperm.mem_iff.mp (List.mem_reverse.mp hin))
    have hsame : other = request := List.inj_on_of_nodup_map hids hother hmem hid
    rw [hsame]
  rw [itemOf]
  cases hfound : items.reverse.find? fun item => item.id = request.id with
  | none =>
    have hin : (⟨request.id, none, find request.txHash⟩ : Item) ∈ items.reverse := by
      rw [List.mem_reverse]
      exact hperm.mem_iff.mpr (List.mem_map_of_mem hmem)
    have hnone := List.find?_eq_none.mp hfound _ hin
    simp at hnone
  | some item =>
    have hid := List.find?_some hfound
    rw [decide_eq_true_eq] at hid
    rw [hitem item (List.mem_of_find?_eq_some hfound) hid]

/-- The destination of a mapped row is that of its receipt. -/
structure Maps (py : PyText) (args : Args) (mapped : Mapped) (credit : Credit) : Prop where
  keeps : Keeps py args mapped.row credit
  destination : match credit.applied with
    | none => mapped.destination = .notFound
    | some block => ∃ blockHash, mapped.destination = .applied block blockHash

theorem mapRow_ok {response : List Item} {id : Int} {selected : Selected} {credit : Credit}
    (hkeeps : Keeps py args selected credit) (hknows : Knows py find credit)
    (hitem : itemOf response id = .ok ⟨id, none, find selected.txHash⟩) :
    ∃ mapped, mapRow py response id selected = .ok mapped ∧ Maps py args mapped credit := by
  obtain ⟨text, htext, -, hint⟩ := hkeeps.amount
  simp only [mapRow, hitem, bind_ok, hkeeps.hash]
  unfold Knows at hknows
  cases happlied : credit.applied with
  | none =>
    simp only [happlied] at hknows
    refine ⟨⟨selected, .notFound⟩, by simp only [hknows], hkeeps, ?_⟩
    simp only [happlied]
  | some block =>
    simp only [happlied] at hknows
    obtain ⟨receipt, hfind, hhash, hvalue, hblock⟩ := hknows
    refine ⟨⟨selected, .applied block receipt.blockHash⟩, ?_, hkeeps, ?_⟩
    · simp only [hfind, hhash, hvalue, hblock, htext, hint, PyText.parsed, raisePython, bind_ok,
        require, if_true]
    · simp only [happlied]
      exact ⟨receipt.blockHash, rfl⟩

/-- Two relations in a row, through a list in between. -/
theorem exists_between {α β γ : Type} {R : α → β → Prop} {S : β → γ → Prop} {as : List α}
    {cs : List γ} (h : List.Forall₂ (fun a c => ∃ b, R a b ∧ S b c) as cs) :
    ∃ bs, List.Forall₂ R as bs ∧ List.Forall₂ S bs cs := by
  induction h with
  | nil => exact ⟨[], .nil, .nil⟩
  | cons hfirst hrest ih =>
    obtain ⟨b, hR, hS⟩ := hfirst
    obtain ⟨bs, hRs, hSs⟩ := ih
    exact ⟨b :: bs, .cons hR hRs, .cons hS hSs⟩

/-- The mapping of a batch, row by row. -/
theorem mapM_batch {chunk : List Selected} {credits : List Credit} {start : Int}
    {response : List Item} (hkeeps : List.Forall₂ (Keeps py args) chunk credits)
    (hknows : ∀ credit ∈ credits, Knows py find credit)
    (hitems : ∀ numbered ∈ chunk.zipIdx, itemOf response (start + numbered.2) =
      .ok ⟨start + numbered.2, none, find numbered.1.txHash⟩) :
    ∃ mapped, (chunk.zipIdx.mapM fun numbered =>
        mapRow py response (start + numbered.2) numbered.1) = .ok mapped ∧
      List.Forall₂ (Maps py args) mapped credits := by
  rw [← List.zipIdx_map_fst 0 chunk, List.forall₂_map_left_iff] at hkeeps
  have hleft := (List.forall₂_and_left chunk.zipIdx credits).mpr ⟨hitems, hkeeps⟩
  have hright := (List.forall₂_and_left credits chunk.zipIdx).mpr ⟨hknows, hleft.flip⟩
  have hrows : List.Forall₂ (fun (numbered : Selected × Nat) credit => ∃ mapped,
      mapRow py response (start + numbered.2) numbered.1 = .ok mapped ∧
        Maps py args mapped credit) chunk.zipIdx credits :=
    hright.flip.imp fun numbered credit h => mapRow_ok h.2.2 h.1 h.2.1
  obtain ⟨mapped, hmapped, hmaps⟩ := exists_between hrows
  exact ⟨mapped, mapM_ok_iff.mpr hmapped, hmaps⟩

/-- The batches map every row, whatever their size. -/
theorem mapBatches_ok (hnode : Answers node find) (hsize : 0 < args.batchSize) (fuel : Nat)
    {rows : List Selected} {credits : List Credit} (hfuel : rows.length ≤ fuel)
    (hkeeps : List.Forall₂ (Keeps py args) rows credits)
    (hknows : ∀ credit ∈ credits, Knows py find credit) (start : Int) :
    ∃ mapped, mapBatches py node args fuel start rows = .ok mapped ∧
      List.Forall₂ (Maps py args) mapped credits := by
  induction fuel generalizing rows credits start with
  | zero =>
    have hnil : rows = [] := List.length_eq_zero_iff.mp (Nat.le_zero.mp hfuel)
    subst hnil
    cases hkeeps
    exact ⟨[], rfl, .nil⟩
  | succ fuel ih =>
    rw [mapBatches]
    cases hempty : rows.isEmpty with
    | true =>
      rw [List.isEmpty_iff] at hempty
      subst hempty
      cases hkeeps
      exact ⟨[], rfl, .nil⟩
    | false =>
      obtain ⟨requests, hrequests⟩ : ∃ requests : List Request, requests =
          (rows.take args.batchSize.toNat).zipIdx.map fun numbered =>
            ⟨start + numbered.2, numbered.1.txHash⟩ := ⟨_, rfl⟩
      have hids : (requests.map Request.id).Nodup := by
        have hmap : requests.map Request.id =
            ((rows.take args.batchSize.toNat).zipIdx.map Prod.snd).map
              (fun i : Nat => start + (i : Int)) := by
          rw [hrequests, List.map_map, List.map_map]
          rfl
        rw [hmap, List.zipIdx_map_snd]
        apply List.Nodup.map _ List.nodup_range'
        intro i j hij
        have hij' : start + (i : Int) = start + (j : Int) := hij
        omega
      obtain ⟨items, hitems, hperm⟩ := hnode requests hids
      have hknown : ∀ numbered ∈ (rows.take args.batchSize.toNat).zipIdx,
          itemOf items (start + numbered.2) =
            .ok ⟨start + numbered.2, none, find numbered.1.txHash⟩ := by
        intro numbered hnumbered
        have hmem : (⟨start + numbered.2, numbered.1.txHash⟩ : Request) ∈ requests := by
          rw [hrequests]
          exact List.mem_map_of_mem hnumbered
        exact itemOf_perm hperm hids hmem
      obtain ⟨mapped, hmapped, hmaps⟩ := mapM_batch (List.forall₂_take args.batchSize.toNat hkeeps)
        (fun credit hc => hknows credit (List.mem_of_mem_take hc)) hknown
      have hrest : (rows.drop args.batchSize.toNat).length ≤ fuel := by
        have hne : rows.length ≠ 0 := by
          intro hzero
          rw [List.length_eq_zero_iff] at hzero
          rw [hzero] at hempty
          cases hempty
        rw [List.length_drop]
        omega
      obtain ⟨more, hmore, hmoreMaps⟩ := ih hrest
        (List.forall₂_drop args.batchSize.toNat hkeeps)
        (fun credit hc => hknows credit (List.mem_of_mem_drop hc)) (start + args.batchSize)
      refine ⟨mapped ++ more, ?_, ?_⟩
      · simp only [← hrequests, hitems, hmapped, hmore, bind_ok]
        rfl
      · rw [← List.take_append_drop args.batchSize.toNat credits]
        exact List.rel_append hmaps hmoreMaps

/-- A truthful node maps every recent receipt to its own row. -/
theorem main_maps (hnode : Answers node find) (hsize : 0 < args.batchSize)
    (hretries : 0 < args.retries) {taken : String → Bool}
    (hfree : taken args.output = false ∧ taken (args.output ++ ".partial") = false)
    {rows : List Row} {credits : List Credit} (hlists : Lists py args rows credits)
    (hknows : ∀ credit ∈ credits, Knows py find credit)
    (hmissing : args.allowMissing = true ∨ ∀ credit ∈ credits, credit.applied ≠ none) :
    ∃ mapped missing, main py node args taken rows =
        .ok ⟨fields :: mapped.map Mapped.cells, mapped.length - missing, missing⟩ ∧
      List.Forall₂ (Maps py args) mapped (recent args credits) := by
  obtain ⟨selected, hselected, hkeeps⟩ := selectedRows_ok hlists
  have hrecent : ∀ credit ∈ recent args credits, credit ∈ credits :=
    fun credit hc => (List.mem_filter.mp hc).1
  obtain ⟨mapped, hmapped, hmaps⟩ := mapBatches_ok hnode hsize selected.length (le_refl _) hkeeps
    (fun credit hc => hknows credit (hrecent credit hc)) 0
  have hallowed : mapped.countP (fun m => m.destination = .notFound) = 0 ∨
      args.allowMissing = true := by
    obtain hallow | happlied := hmissing
    · exact Or.inr hallow
    · left
      rw [List.countP_eq_zero]
      intro m hm
      obtain ⟨credit, hcredit, hmap⟩ := forall₂_exists_left hmaps hm
      have hdestination := hmap.destination
      cases hblock : credit.applied with
      | none => exact absurd hblock (happlied credit (hrecent credit hcredit))
      | some block =>
        simp only [hblock] at hdestination
        obtain ⟨blockHash, heq⟩ := hdestination
        simp [heq]
  refine ⟨mapped, mapped.countP fun m => m.destination = .notFound, ?_, hmaps⟩
  unfold main
  simp only [require_of (And.intro hsize hretries), hselected, hmapped, require_of hallowed,
    require_of hfree, bind_ok]

end ReceiptDestinations
