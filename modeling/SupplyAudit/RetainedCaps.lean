import Mathlib.Algebra.BigOperators.Group.Finset.Basic
import Mathlib.Algebra.Order.BigOperators.Group.Finset
import SupplyAudit.CappedShares
import SupplyAudit.ExploitFlow
import SupplyAudit.FallibleScan

/-!
# Caps of several incidents against one balance

Each incident caps what an address has received at the whole balance of the
address. An address that two incidents have paid can be counted twice.
-/

namespace RetainedCaps

open ScriptValues FallibleScan KeyedTable ExploitFlow

/-! ## What the incident contracts paid -/

/-- The edge is counted for the incident. -/
def pays (records : Records) (incident : Incident) (e : Edge) : Bool :=
  e.effective ∧ e.sender = incident.contract ∧ incident.name ∈ splitText e.incident ∧
    (records.lookup ⟨0, e.transactionHash⟩).any fun record =>
      "initial-distribution-call" ∈ record.roles

/-- The edges that pay an address. -/
def payments (records : Records) (edges : List Edge) (incident : Incident) (a : String) :
    List Edge :=
  edges.filter fun e => pays records incident e && e.recipient = a

/-- What an incident contract has paid to an address. -/
def paid (records : Records) (edges : List Edge) (incident : Incident) (a : String) : Int :=
  ((payments records edges incident a).map Edge.valueAtto).sum

theorem payments_concat (records : Records) (edges : List Edge) (incident : Incident) (a : String)
    (e : Edge) : payments records (edges ++ [e]) incident a =
      payments records edges incident a ++
        if pays records incident e && e.recipient = a then [e] else [] := by
  rw [payments, List.filter_append, List.filter_singleton]
  cases pays records incident e && e.recipient = a <;> rfl

theorem paid_pos {records : Records} {edges : List Edge} {incident : Incident} {a : String}
    (h : payments records edges incident a ≠ []) : 0 < paid records edges incident a := by
  refine List.sum_pos _ ?_ fun hnil => h (List.map_eq_nil_iff.mp hnil)
  intro value hvalue
  obtain ⟨e, -, rfl⟩ := List.mem_map.mp hvalue
  exact e.positive

theorem paid_of_payments_nil {records : Records} {edges : List Edge} {incident : Incident}
    {a : String} (h : payments records edges incident a = []) :
    paid records edges incident a = 0 := by
  rw [paid, h]
  rfl

/-- The table of an incident has what it paid, for the addresses that it paid. -/
structure Receives (records : Records) (incident : Incident) (edges : List Edge)
    (received : List (String × Int)) : Prop where
  nodup : (received.map Prod.fst).Nodup
  lookup : ∀ a, received.lookup a = if payments records edges incident a = [] then none
    else some (paid records edges incident a)

theorem addEdge_ok {records : Records} {incident : Incident} {done : List Edge}
    {received received' : List (String × Int)} {e : Edge}
    (hdone : Receives records incident done received)
    (h : addEdge records incident received e = .ok received') :
    Receives records incident (done ++ [e]) received' := by
  have hskip (hnot : pays records incident e = false) :
      Receives records incident (done ++ [e]) received := by
    refine ⟨hdone.nodup, fun a => ?_⟩
    rw [hdone.lookup, paid, paid, payments_concat, hnot, Bool.false_and, if_neg Bool.false_ne_true,
      List.append_nil]
  rw [addEdge] at h
  split at h
  · rename_i hcounted
    rw [bind_eq_ok] at h
    obtain ⟨record, hfind, h⟩ := h
    have hrecord := find_eq_ok.mp hfind
    split at h
    · rename_i hrole
      cases h
      have hpays : pays records incident e = true := by
        simp [pays, hcounted, hrecord, hrole]
      refine ⟨nodup_update hdone.nodup _ _ _, fun a => ?_⟩
      rw [update, lookup_set, hdone.lookup, hdone.lookup, paid, paid, paid, payments_concat, hpays,
        Bool.true_and]
      by_cases ha : a = e.recipient
      · have hadded : payments records done incident e.recipient ++ [e] ≠ [] :=
          List.concat_ne_nil e _
        rw [if_pos ha, ha, if_pos (decide_eq_true rfl), if_neg hadded, List.map_append,
          List.sum_append, List.map_singleton, List.sum_singleton]
        by_cases hnone : payments records done incident e.recipient = []
        · rw [if_pos hnone, hnone]
          rfl
        · rw [if_neg hnone, Option.getD_some]
      · have hother : ¬ decide (e.recipient = a) = true := fun h => ha (of_decide_eq_true h).symm
        rw [if_neg ha, if_neg hother, List.append_nil]
    · rename_i hrole
      cases h
      exact hskip (by simp [pays, hrecord, hrole])
  · rename_i hnot
    cases h
    refine hskip (decide_eq_false fun hpays => hnot ⟨hpays.1, hpays.2.1, hpays.2.2.1⟩)

theorem receives_of_ok {records : Records} {edges : List Edge} {incident : Incident}
    {received : List (String × Int)}
    (h : edges.foldlM (addEdge records incident) [] = .ok received) :
    Receives records incident edges received :=
  have hempty : Receives records incident [] [] := ⟨List.nodup_nil, fun _ => rfl⟩
  foldlM_invariant (Receives records incident) (fun _ _ _ _ => addEdge_ok) [] hempty h

/-! ## The summaries -/

/-- The addresses that an incident contract has paid. -/
def recipients (records : Records) (edges : List Edge) : Finset String :=
  (incidents.flatMap fun incident =>
    (edges.filter (pays records incident)).map Edge.recipient).toFinset

theorem mem_recipients_iff {records : Records} {edges : List Edge} {a : String} :
    a ∈ recipients records edges ↔
      ∃ incident ∈ incidents, payments records edges incident a ≠ [] := by
  simp only [recipients, List.mem_toFinset, List.mem_flatMap, List.mem_map, List.mem_filter,
    payments, ne_eq, List.filter_eq_nil_iff, Bool.and_eq_true, decide_eq_true_eq, not_forall,
    not_not, exists_prop]
  tauto

/-- The incidents that have paid an address. -/
def payers (records : Records) (edges : List Edge) (a : String) : List Incident :=
  incidents.filter fun incident => payments records edges incident a ≠ []

/-- The balance that the node reports for an address. -/
def balanceAt (py : FlowText) (node : ArchiveNode) (head a : String) : Int :=
  ((node.balance a head).toOption.bind py.hexInt).getD 0

section Summaries
variable (py : FlowText) (records : Records) (edges : List Edge) (node : ArchiveNode)
variable (head : String)

/-- What an incident counts as held by an address. -/
def heldFor (incident : Incident) (a : String) : Int :=
  if payments records edges incident a = [] then 0
  else min (paid records edges incident a) (balanceAt py node head a)

/-- All amounts that an incident counts as held. -/
def heldOf (incident : Incident) : Int :=
  ∑ a ∈ recipients records edges, heldFor py records edges node head incident a

/-- No balance is used beyond its amount: not for one address over all incidents, and
not in the retained total. -/
structure CapsWithinBalances (summaries : List (String × Summary)) : Prop where
  caps : List.Forall₂ (fun incident s => s.1 = incident.name ∧
    s.2.heldCapAtto = toString (heldOf py records edges node head incident)) incidents summaries
  held : ∀ a ∈ recipients records edges,
    (incidents.map fun incident => heldFor py records edges node head incident a).sum ≤
      balanceAt py node head a
  retained : ∃ total, retainedFromFlow py summaries = .ok total ∧
    total ≤ ∑ a ∈ recipients records edges, balanceAt py node head a

variable {py records edges node head}

theorem field_of_ok {addresses : List String} (hnodup : addresses.Nodup)
    {fields : List (String × Int)}
    (h : batchAccountField py node.balance addresses head = .ok fields) {a : String}
    (ha : a ∈ addresses) : fieldOf fields a = balanceAt py node head a := by
  have hentry : ∀ a entry, (do
      let result ← (node.balance a head).mapError FlowError.node
      let field ← (py.hex result).mapError FlowError.value
      .ok (a, field)) = Except.ok (ε := FlowError) entry →
      entry = (a, balanceAt py node head a) := by
    intro a entry h
    simp only [bind_eq_ok, mapError_eq_ok] at h
    obtain ⟨result, hresult, field, hfield, h⟩ := h
    cases h
    rw [FlowText.hex] at hfield
    rw [balanceAt, hresult]
    cases hread : py.hexInt result with
    | none => rw [hread] at hfield; cases hfield
    | some value =>
      rw [hread] at hfield
      cases hfield
      exact congrArg (Prod.mk a) (congrArg (Option.getD · 0) hread).symm
  have hkeys : addresses.map id = fields.map Prod.fst :=
    map_eq_of_mapM_ok h fun a entry hok => by rw [hentry a entry hok]; rfl
  rw [List.map_id] at hkeys
  obtain ⟨entry, hmem, hok⟩ := mapM_ok_left h ha
  have hfound := lookup_of_mem (hkeys ▸ hnodup) hmem
  rw [hentry a entry hok] at hfound
  rw [fieldOf, hfound, Option.getD_some]

/-- The cap of an incident is what its table holds under the balances. -/
theorem sum_held {incident : Incident} (hincident : incident ∈ incidents)
    {received : List (String × Int)} (h : Receives records incident edges received)
    {balances : List (String × Int)}
    (hbalances : ∀ a ∈ received.map Prod.fst, fieldOf balances a = balanceAt py node head a) :
    (received.map fun r => min r.2 (fieldOf balances r.1)).sum =
      heldOf py records edges node head incident := by
  have hmem : ∀ a, a ∈ received.map Prod.fst ↔ payments records edges incident a ≠ [] := by
    intro a
    have hnone := lookup_eq_none_iff received a
    rw [h.lookup a] at hnone
    by_cases hnil : payments records edges incident a = []
    · simpa [hnil] using hnone
    · simpa [hnil] using hnone
  have hentries : received.map (fun r => min r.2 (fieldOf balances r.1)) =
      (received.map Prod.fst).map (heldFor py records edges node head incident) := by
    rw [List.map_map]
    refine List.map_congr_left fun r hr => ?_
    have hkey := List.mem_map_of_mem (f := Prod.fst) hr
    have hlookup := lookup_of_mem h.nodup hr
    rw [h.lookup, if_neg ((hmem _).mp hkey)] at hlookup
    rw [hbalances _ hkey, Function.comp_apply, heldFor, if_neg ((hmem _).mp hkey),
      Option.some.inj hlookup]
  rw [hentries, ← List.sum_toFinset _ h.nodup, heldOf]
  refine Finset.sum_subset (fun a ha => ?_) fun a _ hnot => ?_
  · exact mem_recipients_iff.mpr ⟨incident, hincident, (hmem a).mp (List.mem_toFinset.mp ha)⟩
  · rw [List.mem_toFinset, hmem, not_not] at hnot
    exact if_pos hnot

theorem forall₂_zip_map {α β γ δ : Type} {R : α → β → Prop} {P : α → γ × δ → Prop} {l : List α}
    {bs : List β} (h : List.Forall₂ R l bs) (name : α → γ) (summary : β → δ)
    (hP : ∀ a ∈ l, ∀ b ∈ bs, R a b → P a (name a, summary b)) :
    List.Forall₂ P l ((l.map name).zip (bs.map summary)) := by
  induction h with
  | nil => exact .nil
  | cons hab _ ih =>
    refine .cons (hP _ List.mem_cons_self _ List.mem_cons_self hab) (ih fun a ha b hb => ?_)
    exact hP a (List.mem_cons_of_mem _ ha) b (List.mem_cons_of_mem _ hb)

/-- A completed run reports the caps of its incidents. -/
theorem caps_of_ok {summaries : List (String × Summary)}
    (h : distributionSummary py records edges node = .ok (head, summaries)) :
    List.Forall₂ (fun incident s => s.1 = incident.name ∧
      s.2.heldCapAtto = toString (heldOf py records edges node head incident)) incidents
      summaries := by
  simp only [distributionSummary, bind_eq_ok] at h
  obtain ⟨head', hhead, received, hreceived, balances, hbalances, nonces, -, h⟩ := h
  cases h
  refine forall₂_zip_map (mapM_ok_iff.mp hreceived) _ _ fun incident hincident r hr hok => ?_
  refine ⟨rfl, congrArg toString ?_⟩
  refine sum_held hincident (receives_of_ok (mapError_eq_ok.mp hok)) fun a ha => ?_
  have hperm := List.perm_insertionSort (· ≤ ·)
    ((received.flatMap fun r => r.map Prod.fst).dedup)
  refine field_of_ok (hperm.nodup_iff.mpr (List.nodup_dedup _)) hbalances ?_
  rw [hperm.mem_iff, List.mem_dedup, List.mem_flatMap]
  exact ⟨r, hr, ha⟩

theorem list_sum_finset_sum {α β : Type} (l : List α) (s : Finset β) (f : α → β → Int) :
    (l.map fun a => ∑ b ∈ s, f a b).sum = ∑ b ∈ s, (l.map fun a => f a b).sum := by
  induction l with
  | nil => simp
  | cons a l ih =>
    rw [List.map_cons, List.sum_cons, ih, ← Finset.sum_add_distrib]
    rfl

/-- The retained total is what all incidents count as held. -/
theorem retainedFromFlow_of_caps {summaries : List (String × Summary)}
    (h : List.Forall₂ (fun incident s => s.1 = incident.name ∧
      s.2.heldCapAtto = toString (heldOf py records edges node head incident)) incidents
      summaries) :
    retainedFromFlow py summaries = .ok (∑ a ∈ recipients records edges,
      (incidents.map fun incident => heldFor py records edges node head incident a).sum) := by
  have hcaps : summaries.mapM (fun s => py.parsed (some s.2.heldCapAtto)) =
      .ok (incidents.map (heldOf py records edges node head)) := by
    rw [mapM_ok_iff, List.forall₂_map_right_iff]
    refine h.flip.imp fun s incident hcap => ?_
    rw [hcap.2, PyText.parsed, py.int_toString]
  rw [retainedFromFlow, hcaps, bind_ok, ← list_sum_finset_sum]
  rfl

/-- What the payers count as held of an address. -/
theorem sum_heldFor (a : String) :
    (incidents.map fun incident => heldFor py records edges node head incident a).sum =
      (((payers records edges a).map fun incident => paid records edges incident a).map
        fun amount => min amount (balanceAt py node head a)).sum := by
  rw [payers, List.map_map, ← sum_map_filter (p := fun incident =>
    payments records edges incident a ≠ [])]
  · congr 1
    refine List.map_congr_left fun incident hincident => ?_
    exact if_neg (of_decide_eq_true (List.mem_filter.mp hincident).2)
  · intro incident _ hnot
    exact if_pos (not_not.mp (of_decide_eq_false hnot))

theorem sum_paid (a : String) :
    ((payers records edges a).map fun incident => paid records edges incident a).sum =
      (incidents.map fun incident => paid records edges incident a).sum := by
  refine sum_map_filter fun incident _ hnot => ?_
  exact paid_of_payments_nil (not_not.mp (of_decide_eq_false hnot))

/-- What is counted as held of an address stays within its balance only where the
balance is not needed twice. -/
theorem held_le_iff {a : String} (ha : a ∈ recipients records edges) :
    (incidents.map fun incident => heldFor py records edges node head incident a).sum ≤
        balanceAt py node head a ↔
      (payers records edges a).length ≤ 1 ∨ balanceAt py node head a ≤ 0 ∨
        (incidents.map fun incident => paid records edges incident a).sum ≤
          balanceAt py node head a := by
  have hpos : ∀ amount ∈ (payers records edges a).map fun incident =>
      paid records edges incident a, 0 < amount := by
    intro amount hamount
    obtain ⟨incident, hincident, rfl⟩ := List.mem_map.mp hamount
    exact paid_pos (of_decide_eq_true (List.mem_filter.mp hincident).2)
  obtain ⟨incident, hincident, hpays⟩ := mem_recipients_iff.mp ha
  have hpayer : incident ∈ payers records edges a :=
    List.mem_filter.mpr ⟨hincident, decide_eq_true hpays⟩
  have hne : ((payers records edges a).map fun incident => paid records edges incident a) ≠ [] :=
    List.ne_nil_of_mem (List.mem_map_of_mem hpayer)
  have hlength : (payers records edges a).length = 1 ↔ (payers records edges a).length ≤ 1 := by
    have hsome := List.length_pos_of_mem hpayer
    omega
  rw [sum_heldFor, CappedShares.sum_min_le_iff hpos hne, List.length_map, hlength, sum_paid]

end Summaries

theorem payers_of_not_mem {records : Records} {edges : List Edge} {a : String}
    (h : a ∉ recipients records edges) : payers records edges a = [] := by
  rw [payers, List.filter_eq_nil_iff]
  intro incident hincident hpays
  exact h (mem_recipients_iff.mpr ⟨incident, hincident, of_decide_eq_true hpays⟩)

/-- The caps of a run stay within the balances exactly when no address that two
incidents have paid has a positive balance below the sum of what they paid. -/
theorem caps_within_balances_iff (py : FlowText) (records : Records) (edges : List Edge)
    (node : ArchiveNode) (head : String) (summaries : List (String × Summary))
    (hrun : distributionSummary py records edges node = .ok (head, summaries)) :
    CapsWithinBalances py records edges node head summaries ↔
      ∀ a, (payers records edges a).length ≤ 1 ∨ balanceAt py node head a ≤ 0 ∨
        (incidents.map fun incident => paid records edges incident a).sum ≤
          balanceAt py node head a := by
  have hcaps := caps_of_ok hrun
  constructor
  · intro h a
    by_cases ha : a ∈ recipients records edges
    · exact (held_le_iff ha).mp (h.held a ha)
    · rw [payers_of_not_mem ha]
      exact Or.inl (Nat.zero_le 1)
  · intro h
    have hheld := fun a ha => (held_le_iff ha).mpr (h a)
    exact ⟨hcaps, hheld, _, retainedFromFlow_of_caps hcaps, Finset.sum_le_sum hheld⟩

/-! ## An address that both incidents have paid -/

def samplePayment (incident : Incident) (transactionHash : String) : Edge where
  incident := incident.name
  shardId := 0
  blockNumber := 1
  transactionHash := transactionHash
  edgeIndex := 1
  depth := 0
  callType := .str "CALL"
  sender := incident.contract
  recipient := "0xaa"
  valueAtto := 3
  effective := true
  error := .str ""
  positive := by decide

def sampleEdges : List Edge := List.zipWith samplePayment incidents ["0x01", "0x02"]

def sampleDistribution (transactionHash : String) : Key × Record :=
  (⟨0, transactionHash⟩,
    ⟨0, 1, 0, transactionHash, ["initial-distribution-call"], [], [], .str "", 0, 0, 0, 0, 0, 0, 0⟩)

def sampleDistributions : Records := ["0x01", "0x02"].map sampleDistribution

def sampleHead (balance : String) : ArchiveNode where
  trace _ := .error "not asked"
  blockNumber := .ok "0x1"
  balance _ _ := .ok balance
  transactionCount _ _ := .ok "0x0"

theorem recipients_sample : recipients sampleDistributions sampleEdges = {"0xaa"} := by
  decide +kernel

theorem exists_summaries (node : ArchiveNode)
    (h : (distributionSummary FlowText.ascii sampleDistributions sampleEdges node).map Prod.fst =
      .ok "0x1") : ∃ summaries,
    distributionSummary FlowText.ascii sampleDistributions sampleEdges node =
      .ok ("0x1", summaries) := by
  cases hrun : distributionSummary FlowText.ascii sampleDistributions sampleEdges node with
  | error err => rw [hrun] at h; cases h
  | ok result =>
    rw [hrun] at h
    exact ⟨result.2, congrArg Except.ok (Prod.ext (Except.ok.inj h) rfl)⟩

theorem caps_within_balances_iff_enough : ∃ summaries,
    distributionSummary FlowText.ascii sampleDistributions sampleEdges (sampleHead "0x6") =
        .ok ("0x1", summaries) ∧
      CapsWithinBalances FlowText.ascii sampleDistributions sampleEdges (sampleHead "0x6") "0x1"
        summaries := by
  obtain ⟨summaries, hrun⟩ := exists_summaries (sampleHead "0x6") (by decide +kernel)
  refine ⟨summaries, hrun, (caps_within_balances_iff _ _ _ _ _ _ hrun).mpr fun a => ?_⟩
  by_cases ha : a ∈ recipients sampleDistributions sampleEdges
  · rw [recipients_sample, Finset.mem_singleton] at ha
    subst ha
    exact Or.inr (Or.inr (by decide +kernel))
  · rw [payers_of_not_mem ha]
    exact Or.inl (Nat.zero_le 1)

/-- A balance of 4 is counted as 3 for one incident and 3 for the other. -/
theorem balance_counted_twice : ∃ summaries,
    distributionSummary FlowText.ascii sampleDistributions sampleEdges (sampleHead "0x4") =
        .ok ("0x1", summaries) ∧
      retainedFromFlow FlowText.ascii summaries = .ok 6 ∧
      recipients sampleDistributions sampleEdges = {"0xaa"} ∧
      balanceAt FlowText.ascii (sampleHead "0x4") "0x1" "0xaa" = 4 ∧
      ¬ CapsWithinBalances FlowText.ascii sampleDistributions sampleEdges (sampleHead "0x4") "0x1"
        summaries := by
  obtain ⟨summaries, hrun⟩ := exists_summaries (sampleHead "0x4") (by decide +kernel)
  have hretained : retainedFromFlow FlowText.ascii summaries = .ok 6 := by
    rw [retainedFromFlow_of_caps (caps_of_ok hrun), recipients_sample, Finset.sum_singleton]
    decide +kernel
  refine ⟨summaries, hrun, hretained, recipients_sample, by decide +kernel, fun h => ?_⟩
  have hheld := h.held "0xaa" (by rw [recipients_sample]; exact Finset.mem_singleton_self _)
  exact absurd hheld (by decide +kernel)

end RetainedCaps
