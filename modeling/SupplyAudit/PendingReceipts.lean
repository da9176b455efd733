import SupplyAudit.LedgerReaders

/-!
# The report's pending receipts by key

Loading the report groups its receipts by lower-cased key. The claim of a key
is the sum of its receipts, its address agrees with each of theirs, and the
claims together add up to the total that the report publishes.
-/

namespace PendingReceipts

open ScriptValues FallibleScan KeyedTable ActualSupplyLedger LedgerReaders

variable {py : PyText}

/-! ## Reading the receipts -/

/-- A pending receipt as the report names it. -/
structure ReceiptClaim where
  key : String
  address : String
  amount : Int
  deriving DecidableEq

structure ReadsReceipt (py : PyText) (row : Row) (c : ReceiptClaim) : Prop where
  key : rowKey py row = .ok c.key
  address : row.get "to" = .ok (some c.address)
  amount : ∃ text, row.get "amount_atto" = .ok (some text) ∧ py.int text = some c.amount
  nonneg : 0 ≤ c.amount

/-- A row reads as one claim. -/
theorem ReadsReceipt.unique {row : Row} {c c' : ReceiptClaim} (h : ReadsReceipt py row c)
    (h' : ReadsReceipt py row c') : c = c' := by
  obtain ⟨hkey, haddress, ⟨text, htext, hamount⟩, -⟩ := h
  obtain ⟨hkey', haddress', ⟨text', htext', hamount'⟩, -⟩ := h'
  rw [hkey, Except.ok.injEq] at hkey'
  rw [haddress, Except.ok.injEq, Option.some.injEq] at haddress'
  rw [htext, Except.ok.injEq, Option.some.injEq] at htext'
  subst htext'
  rw [hamount, Option.some.injEq] at hamount'
  cases c
  cases c'
  simp only [ReceiptClaim.mk.injEq]
  exact ⟨hkey', haddress', hamount'⟩

theorem parsed_ok_iff {value : Option String} {z : Int} :
    py.parsed value = .ok z ↔ ∃ text, value = some text ∧ py.int text = some z := by
  cases value with
  | none => simp [PyText.parsed]
  | some text =>
    rw [PyText.parsed]
    cases hz : py.int text with
    | none => simp [hz]
    | some z' => simp [hz]

/-- The claims after one more receipt. -/
def credited (claims : PendingClaims) (c : ReceiptClaim) : PendingClaims :=
  let entry := (claims.lookup c.key).getD ⟨c.address, 0⟩
  KeyedTable.set claims c.key { entry with amount := entry.amount + c.amount }

/-- The receipt's address agrees with the one its key already has. -/
def Agrees (py : PyText) (claims : PendingClaims) (c : ReceiptClaim) : Prop :=
  ∀ claim, claims.lookup c.key = some claim → py.lower claim.address = py.lower c.address

/-- The loop body accepts exactly the readable receipts of agreeing address. -/
theorem addReceipt_ok_iff {acc acc' : PendingClaims × Int} {row : Row} :
    addReceipt py acc row = .ok acc' ↔
      ∃ c, ReadsReceipt py row c ∧ Agrees py acc.1 c ∧
        acc' = (credited acc.1 c, acc.2 + c.amount) := by
  simp only [addReceipt, bind_eq_ok, parsed_ok_iff]
  constructor
  · rintro ⟨keyValue, hkeyValue, key, hkey, address, haddress, amountValue, hamountValue, amount,
      ⟨text, rfl, hint⟩, h⟩
    by_cases hneg : amount < 0
    · rw [if_pos hneg] at h
      cases h
    rw [if_neg hneg] at h
    cases address with
    | none => cases h
    | some address =>
      dsimp only at h
      split at h
      · cases h
      · rename_i hagree
        cases h
        refine ⟨⟨key, address, amount⟩, ⟨?_, haddress, ⟨text, hamountValue, hint⟩,
          Int.not_lt.mp hneg⟩, ?_, rfl⟩
        · rw [rowKey, bind_eq_ok]
          exact ⟨keyValue, hkeyValue, hkey⟩
        · intro claim hclaim
          rw [not_not, hclaim] at hagree
          exact hagree
  · rintro ⟨c, ⟨hkey, haddress, ⟨text, hamountValue, hint⟩, hnonneg⟩, hagree, rfl⟩
    rw [rowKey, bind_eq_ok] at hkey
    obtain ⟨keyValue, hkeyValue, hkey⟩ := hkey
    refine ⟨keyValue, hkeyValue, c.key, hkey, some c.address, haddress, some text, hamountValue,
      c.amount, ⟨text, rfl, hint⟩, ?_⟩
    rw [if_neg (Int.not_lt.mpr hnonneg)]
    dsimp only
    rw [if_neg]
    · rfl
    · rw [not_not]
      cases hl : acc.1.lookup c.key with
      | none => rfl
      | some claim => exact hagree claim hl

/-- What the claims are after the receipts that have been read. -/
structure Collected (py : PyText) (cs : List ReceiptClaim) (claims : PendingClaims) : Prop where
  nodup : (claims.map Prod.fst).Nodup
  keys : ∀ k, k ∈ claims.map Prod.fst ↔ ∃ c ∈ cs, c.key = k
  amount : ∀ k, shareAt PendingClaim.amount claims k = ((cs.filter (fun c => c.key = k)).map ReceiptClaim.amount).sum
  address : ∀ c ∈ cs, Agrees py claims c
  total : total PendingClaim.amount claims = (cs.map ReceiptClaim.amount).sum

theorem claimed_eq_shareAt (claims : PendingClaims) (k : String) :
    ((claims.lookup k).map PendingClaim.amount).getD 0 = shareAt PendingClaim.amount claims k := by
  rw [shareAt]
  cases claims.lookup k with
  | none => rfl
  | some claim => rfl

theorem Collected.nil : Collected py [] [] :=
  ⟨List.nodup_nil, fun k => by simp, fun k => by simp [shareAt], nofun, rfl⟩

theorem shareAt_credited (claims : PendingClaims) (c : ReceiptClaim) (k : String) :
    shareAt PendingClaim.amount (credited claims c) k =
      shareAt PendingClaim.amount claims k + if c.key = k then c.amount else 0 := by
  rw [shareAt, credited, lookup_set]
  by_cases hk : k = c.key
  · subst hk
    cases hl : claims.lookup c.key with
    | none => simp [shareAt, hl]
    | some claim => simp [shareAt, hl]
  · simp [shareAt, hk, Ne.symm hk]

/-- One more receipt. -/
theorem Collected.credited {cs : List ReceiptClaim} {claims : PendingClaims}
    (h : Collected py cs claims) {c : ReceiptClaim} (hagree : Agrees py claims c) :
    Collected py (cs ++ [c]) (credited claims c) where
  nodup := nodup_set h.nodup _ _
  keys k := by
    rw [PendingReceipts.credited, mem_keys_set, h.keys]
    constructor
    · rintro (rfl | ⟨c', hc', rfl⟩)
      · exact ⟨c, List.mem_append_right cs List.mem_cons_self, rfl⟩
      · exact ⟨c', List.mem_append_left [c] hc', rfl⟩
    · rintro ⟨c', hc', rfl⟩
      rcases List.mem_append.mp hc' with hc' | hc'
      · exact Or.inr ⟨c', hc', rfl⟩
      · exact Or.inl (by rw [List.mem_singleton.mp hc'])
  amount k := by
    rw [shareAt_credited, h.amount, List.filter_append, List.map_append, List.sum_append]
    by_cases hk : c.key = k
    · simp [hk]
    · simp [hk]
  address c' hc' claim hclaim := by
    rw [PendingReceipts.credited, lookup_set] at hclaim
    have hold : ∀ claim, claims.lookup c.key = some claim →
        py.lower claim.address = py.lower c.address := hagree
    have hcur : py.lower ((claims.lookup c.key).getD ⟨c.address, 0⟩).address =
        py.lower c.address := by
      cases hl : claims.lookup c.key with
      | none => rfl
      | some claim => exact hold claim hl
    rcases List.mem_append.mp hc' with hc' | hc'
    · by_cases hk : c'.key = c.key
      · rw [if_pos hk, Option.some.injEq] at hclaim
        subst hclaim
        -- the key was already claimed, and its address is kept
        obtain ⟨claim', hclaim'⟩ : ∃ claim', claims.lookup c.key = some claim' := by
          rw [← Option.ne_none_iff_exists', ne_eq, lookup_eq_none_iff, not_not, h.keys]
          exact ⟨c', hc', hk⟩
        have haddr := h.address c' hc' claim' (hk ▸ hclaim')
        rw [hclaim'] at hcur ⊢
        exact haddr
      · rw [if_neg hk] at hclaim
        exact h.address c' hc' claim hclaim
    · rw [List.mem_singleton.mp hc'] at hclaim ⊢
      rw [if_pos rfl, Option.some.injEq] at hclaim
      subst hclaim
      exact hcur
  total := by
    rw [PendingReceipts.credited, total_update h.nodup ⟨c.address, 0⟩
      rfl rfl, h.total, List.map_append, List.sum_append, List.map_singleton, List.sum_singleton]

/-- The whole loop over the report's receipts. -/
theorem foldlM_addReceipt {rows : List Row} {cs : List ReceiptClaim} {acc acc' : PendingClaims × Int}
    (h : Collected py cs acc.1) (ht : acc.2 = (cs.map ReceiptClaim.amount).sum)
    (hrun : rows.foldlM (addReceipt py) acc = .ok acc') :
    ∃ more, List.Forall₂ (ReadsReceipt py) rows more ∧ Collected py (cs ++ more) acc'.1 ∧
      acc'.2 = ((cs ++ more).map ReceiptClaim.amount).sum := by
  induction rows generalizing cs acc with
  | nil =>
    cases hrun
    exact ⟨[], .nil, by rwa [List.append_nil], by rwa [List.append_nil]⟩
  | cons row rows ih =>
    rw [List.foldlM_cons, bind_eq_ok] at hrun
    obtain ⟨next, hstep, hrun⟩ := hrun
    obtain ⟨c, hreads, hagree, rfl⟩ := addReceipt_ok_iff.mp hstep
    obtain ⟨more, hmore, hcollected, htotal⟩ := ih (h.credited hagree)
      (by simp [ht]) hrun
    refine ⟨c :: more, .cons hreads hmore, ?_, ?_⟩
    · rwa [List.append_assoc] at hcollected
    · rwa [List.append_assoc] at htotal

/-- A loaded report: its receipts by key, adding up to the published total. -/
theorem loadPendingReceipts_ok {report : ReceiptReport} {claims : PendingClaims}
    (h : loadPendingReceipts py report = .ok claims) :
    ∃ cs, List.Forall₂ (ReadsReceipt py) report.receipts cs ∧ Collected py cs claims ∧
      py.int report.pendingActiveAtto = some (cs.map ReceiptClaim.amount).sum := by
  simp only [loadPendingReceipts, bind_eq_ok] at h
  obtain ⟨⟨pending, total⟩, hrun, reported, hreported, h⟩ := h
  dsimp only at h
  split at h
  · cases h
  · rename_i heq
    cases h
    obtain ⟨cs, hcs, hcollected, htotal⟩ := foldlM_addReceipt Collected.nil rfl hrun
    obtain ⟨text, htext, hint⟩ := parsed_ok_iff.mp hreported
    cases htext
    refine ⟨cs, hcs, hcollected, ?_⟩
    rw [hint, ← not_not.mp heq]
    exact congrArg some htotal

/-! ## Reports that load -/

/-- Receipts of one key name one address. -/
def OneAddress (py : PyText) (cs : List ReceiptClaim) : Prop :=
  ∀ c ∈ cs, ∀ c' ∈ cs, c.key = c'.key → py.lower c.address = py.lower c'.address

theorem Collected.agrees {cs : List ReceiptClaim} {claims : PendingClaims} (h : Collected py cs claims)
    {c : ReceiptClaim} (hc : ∀ c' ∈ cs, c'.key = c.key → py.lower c'.address = py.lower c.address) :
    Agrees py claims c := by
  intro claim hclaim
  have hmem : c.key ∈ claims.map Prod.fst := List.mem_map_of_mem (mem_of_lookup hclaim)
  obtain ⟨c', hc', hkey⟩ := (h.keys c.key).mp hmem
  have haddress := h.address c' hc' claim (hkey ▸ hclaim)
  exact haddress.trans (hc c' hc' hkey)

/-- The loop accepts readable receipts that name one address a key. -/
theorem foldlM_addReceipt_of_reads {rows : List Row} {more : List ReceiptClaim}
    (hreads : List.Forall₂ (ReadsReceipt py) rows more) {cs : List ReceiptClaim}
    {acc : PendingClaims × Int} (h : Collected py cs acc.1)
    (ht : acc.2 = (cs.map ReceiptClaim.amount).sum) (hone : OneAddress py (cs ++ more)) :
    ∃ acc', rows.foldlM (addReceipt py) acc = .ok acc' ∧ Collected py (cs ++ more) acc'.1 ∧
      acc'.2 = ((cs ++ more).map ReceiptClaim.amount).sum := by
  induction hreads generalizing cs acc with
  | nil => exact ⟨acc, rfl, by rwa [List.append_nil], by rwa [List.append_nil]⟩
  | @cons row c rows more hrow hreads ih =>
    have hagree : Agrees py acc.1 c := by
      apply h.agrees
      intro c' hc' hkey
      exact hone c' (List.mem_append_left _ hc') c
        (List.mem_append_right cs List.mem_cons_self) hkey
    have hstep := addReceipt_ok_iff.mpr ⟨c, hrow, hagree, rfl⟩
    have happend : cs ++ c :: more = cs ++ [c] ++ more := by
      rw [List.append_assoc, List.singleton_append]
    rw [happend] at hone ⊢
    let next : PendingClaims × Int := (credited acc.1 c, acc.2 + c.amount)
    have hnext : Collected py (cs ++ [c]) next.1 := h.credited hagree
    have htnext : next.2 = ((cs ++ [c]).map ReceiptClaim.amount).sum := by simp [next, ht]
    obtain ⟨acc', hrun, hcollected, htotal⟩ := ih hnext htnext hone
    refine ⟨acc', ?_, hcollected, htotal⟩
    rw [List.foldlM_cons, hstep, bind_ok]
    exact hrun

/-- A report of such receipts loads if its total is their sum. -/
theorem loadPendingReceipts_of_reads {report : ReceiptReport} {cs : List ReceiptClaim}
    (hreads : List.Forall₂ (ReadsReceipt py) report.receipts cs) (hone : OneAddress py cs)
    (hreported : py.int report.pendingActiveAtto = some (cs.map ReceiptClaim.amount).sum) :
    ∃ claims, loadPendingReceipts py report = .ok claims ∧ Collected py cs claims := by
  have hnil : Collected py [] (([], 0) : PendingClaims × Int).1 := Collected.nil
  obtain ⟨⟨claims, total⟩, hrun, hcollected, htotal⟩ :=
    foldlM_addReceipt_of_reads hreads hnil rfl hone
  refine ⟨claims, ?_, hcollected⟩
  rw [List.nil_append] at htotal
  simp only [loadPendingReceipts, hrun, bind_ok, PyText.parsed, hreported]
  rw [if_neg (not_not.mpr htotal)]

end PendingReceipts
