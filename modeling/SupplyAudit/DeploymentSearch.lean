import Mathlib.Data.Nat.Size
import SupplyAudit.WoneHolders

/-!
# The block that deployed the contract

The search closes in on a block with code whose predecessor has none. If code
stays once it is there, this is the first block with code. The search reads at
most 66 blocks, and nothing but a failed read or a cutoff without code stops it.
-/

namespace DeploymentSearch

open ByteWords FallibleScan WoneEvents WoneScan WoneHolders

variable {codeAt : UInt64 → Except String Bytes}

def HasCode (codeAt : UInt64 → Except String Bytes) (block : UInt64) : Prop :=
  ∃ code, codeAt block = .ok code ∧ code.length ≠ 0

def NoCode (codeAt : UInt64 → Except String Bytes) (block : UInt64) : Prop :=
  ∃ code, codeAt block = .ok code ∧ code.length = 0

/-- The blocks that the loop reads, as long as no read fails. -/
def searchReads (codeAt : UInt64 → Except String Bytes) (low high : UInt64) : List UInt64 :=
  if _ : low < high then
    middle low high ::
      match codeAt (middle low high) with
      | .error _ => []
      | .ok code =>
        if code.length = 0 then searchReads codeAt (middle low high + 1) high
        else searchReads codeAt low (middle low high)
  else []
termination_by high.toNat - low.toNat
decreasing_by
  · exact (middle_halves ‹low < high›).1
  · exact (middle_halves ‹low < high›).2

/-- The blocks that `findDeploymentBlock` reads, as long as no read fails. -/
def deploymentReads (codeAt : UInt64 → Except String Bytes) (cutoff : UInt64) : List UInt64 :=
  match codeAt cutoff with
  | .error _ => [cutoff]
  | .ok code =>
    if code.length = 0 then [cutoff]
    else match codeAt 0 with
      | .error _ => [cutoff, 0]
      | .ok code => if code.length ≠ 0 then [cutoff, 0] else cutoff :: 0 :: searchReads codeAt 1 cutoff

theorem context_ok {α : Type} {text : String} {r : Except String α} {a : α} :
    context text r = .ok a ↔ r = .ok a := by
  cases r with
  | error err => simp [context]
  | ok b => simp [context]

/-! ## Where the loop ends -/

/-- The bounds stay at a block with code and above one without. -/
theorem searchCode_ok {low high d : UInt64} (hle : low ≤ high) (hbelow : NoCode codeAt (low - 1))
    (hhigh : HasCode codeAt high) (h : searchCode codeAt low high = .ok d) :
    low ≤ d ∧ d ≤ high ∧ HasCode codeAt d ∧ NoCode codeAt (d - 1) := by
  fun_induction searchCode codeAt low high with
  | case1 low high hlt err hread => cases h
  | case2 low high hlt code hread hempty ih =>
    obtain ⟨-, hnext, hlow, hmid⟩ := middle_bounds hlt
    have hrest : middle low high + 1 ≤ high := by
      have hnat := UInt64.lt_iff_toNat_lt.mp hmid
      rw [UInt64.le_iff_toNat_le]
      omega
    have hprevious : middle low high + 1 - 1 = middle low high := by
      apply UInt64.toNat_inj.mp
      have hone : (1 : UInt64).toNat = 1 := rfl
      have hbound := (middle low high).toNat_lt
      rw [UInt64.toNat_sub, hnext, hone]
      omega
    obtain ⟨hstart, hend, hcode, hbefore⟩ :=
      ih hrest (by rw [hprevious]; exact ⟨code, hread, hempty⟩) hhigh h
    refine ⟨?_, hend, hcode, hbefore⟩
    have hnat := UInt64.le_iff_toNat_le.mp hstart
    have hnat' := UInt64.le_iff_toNat_le.mp hlow
    rw [UInt64.le_iff_toNat_le]
    omega
  | case3 low high hlt code hread hfull ih =>
    obtain ⟨-, -, hlow, hmid⟩ := middle_bounds hlt
    obtain ⟨hstart, hend, hcode, hbefore⟩ := ih hlow hbelow ⟨code, hread, hfull⟩ h
    exact ⟨hstart, UInt64.le_trans hend (UInt64.le_of_lt hmid), hcode, hbefore⟩
  | case4 low high hnot =>
    have hsame : high ≤ low := UInt64.not_lt.mp hnot
    have heq : low = high := UInt64.le_antisymm hle hsame
    rw [← Except.ok.inj h]
    exact ⟨UInt64.le_refl _, hle, heq ▸ hhigh, hbelow⟩

/-- The loop fails only where a read does. -/
theorem searchCode_fails {low high : UInt64} {err : String}
    (h : searchCode codeAt low high = .error err) :
    ∃ block ∈ searchReads codeAt low high, ∃ e, codeAt block = .error e := by
  fun_induction searchCode codeAt low high with
  | case1 low high hlt e hread =>
    rw [searchReads, dif_pos hlt]
    exact ⟨_, List.mem_cons_self, e, hread⟩
  | case2 low high hlt code hread hempty ih =>
    obtain ⟨block, hblock, hfailed⟩ := ih h
    rw [searchReads, dif_pos hlt, hread]
    simp only [if_pos hempty]
    exact ⟨block, List.mem_cons_of_mem _ hblock, hfailed⟩
  | case3 low high hlt code hread hfull ih =>
    obtain ⟨block, hblock, hfailed⟩ := ih h
    rw [searchReads, dif_pos hlt, hread]
    simp only [if_neg hfull]
    exact ⟨block, List.mem_cons_of_mem _ hblock, hfailed⟩
  | case4 low high hnot => cases h

/-- Every read halves what is left. -/
theorem length_searchReads (codeAt : UInt64 → Except String Bytes) (low high : UInt64) :
    (searchReads codeAt low high).length ≤ Nat.size (high.toNat - low.toNat) := by
  have hhalf : ∀ {w w' reads : Nat}, 0 < w → w' ≤ w / 2 → reads ≤ Nat.size w' →
      reads + 1 ≤ Nat.size w := by
    intro w w' reads hw hw' hreads
    have hsize : w / 2 < 2 ^ (Nat.size w - 1) := by
      have hlt := Nat.lt_size_self w
      have hpos : 0 < Nat.size w := Nat.size_pos.mpr hw
      have hsplit : 2 ^ Nat.size w = 2 ^ (Nat.size w - 1) * 2 := by
        rw [← Nat.pow_succ]
        congr 1
        omega
      omega
    have hbound := (Nat.size_le_size hw').trans (Nat.size_le.mpr hsize)
    have hpos : 0 < Nat.size w := Nat.size_pos.mpr hw
    omega
  fun_induction searchReads codeAt low high with
  | case1 low high hlt ih ih' =>
    obtain ⟨hmiddle, hnext, -, -⟩ := middle_bounds hlt
    have hnat := UInt64.lt_iff_toNat_lt.mp hlt
    rw [List.length_cons]
    cases hread : codeAt (middle low high) with
    | error e =>
      dsimp only
      exact hhalf (by omega) (Nat.zero_le _) (Nat.zero_le _)
    | ok code =>
      dsimp only
      split
      · exact hhalf (by omega) (by omega) ih
      · exact hhalf (by omega) (by omega) ih'
  | case2 low high hnot => exact Nat.zero_le _

/-! ## The deployment -/

/-- What a successful search has read. -/
theorem findDeploymentBlock_ok {cutoff d : UInt64}
    (h : findDeploymentBlock codeAt cutoff = .ok d) :
    d ≤ cutoff ∧ HasCode codeAt d ∧ (d ≠ 0 → NoCode codeAt (d - 1)) := by
  rw [findDeploymentBlock, bind_eq_ok] at h
  obtain ⟨code, hcode, h⟩ := h
  rw [guard_eq_ok, bind_eq_ok] at h
  obtain ⟨hfull, genesis, hgenesis, h⟩ := h
  rw [context_ok] at hcode hgenesis
  split at h
  · rename_i hearly
    rw [← Except.ok.inj h]
    exact ⟨UInt64.zero_le, ⟨genesis, hgenesis, hearly⟩, fun hne => absurd rfl hne⟩
  · rename_i hempty
    have hzero : NoCode codeAt (1 - 1) := ⟨genesis, hgenesis, not_not.mp hempty⟩
    have hpos : 1 ≤ cutoff := by
      have hone : (1 : UInt64).toNat = 1 := rfl
      have hne : cutoff.toNat ≠ 0 := by
        intro heq
        have hcutoff : cutoff = 0 := UInt64.toNat_inj.mp heq
        rw [hcutoff, hgenesis] at hcode
        rw [← Except.ok.inj hcode] at hfull
        exact hempty hfull
      rw [UInt64.le_iff_toNat_le, hone]
      omega
    obtain ⟨-, hle, hhas, hbefore⟩ := searchCode_ok hpos hzero ⟨code, hcode, hfull⟩ h
    exact ⟨hle, hhas, fun _ => hbefore⟩

/-- The search fails only where a read does, or when the cutoff has no code. -/
theorem findDeploymentBlock_fails {cutoff : UInt64} {err : String}
    (h : findDeploymentBlock codeAt cutoff = .error err) :
    NoCode codeAt cutoff ∨
      ∃ block ∈ deploymentReads codeAt cutoff, ∃ e, codeAt block = .error e := by
  rw [deploymentReads]
  cases hcode : codeAt cutoff with
  | error e => exact Or.inr ⟨cutoff, List.mem_cons_self, e, hcode⟩
  | ok code =>
    simp only [findDeploymentBlock, hcode, context, bind_ok] at h
    dsimp only
    split at h
    · exact Or.inl ⟨code, hcode, ‹_›⟩
    · rename_i hfull
      right
      rw [if_neg hfull]
      cases hgenesis : codeAt 0 with
      | error e => exact ⟨0, List.mem_cons_of_mem _ List.mem_cons_self, e, hgenesis⟩
      | ok genesis =>
        rw [hgenesis] at h
        simp only [bind_ok] at h
        split at h
        · cases h
        · rename_i hempty
          obtain ⟨block, hblock, hfailed⟩ := searchCode_fails h
          refine ⟨block, ?_, hfailed⟩
          dsimp only
          rw [if_neg hempty]
          exact List.mem_cons_of_mem _ (List.mem_cons_of_mem _ hblock)

theorem length_deploymentReads (codeAt : UInt64 → Except String Bytes) (cutoff : UInt64) :
    (deploymentReads codeAt cutoff).length ≤ 66 := by
  have hsearch : (searchReads codeAt 1 cutoff).length ≤ 64 := by
    have hbound := cutoff.toNat_lt
    exact (length_searchReads codeAt 1 cutoff).trans (Nat.size_le.mpr (by omega))
  rw [deploymentReads]
  split
  · simp
  · split
    · simp
    · split
      · simp
      · split
        · simp
        · simp only [List.length_cons]
          omega

/-- A read that succeeds returns the code that the chain has at the block. -/
def ServesCode (codeAt : UInt64 → Except String Bytes) (chain : Nat → Bytes) : Prop :=
  ∀ block code, codeAt block = .ok code → code = chain block.toNat

/-- Up to the cutoff the contract is never without code again. -/
def CodeStays (chain : Nat → Bytes) (cutoff : UInt64) : Prop :=
  ∀ m n, m ≤ n → n ≤ cutoff.toNat → chain m ≠ [] → chain n ≠ []

theorem HasCode.chain {chain : Nat → Bytes} (hserves : ServesCode codeAt chain) {block : UInt64}
    (h : HasCode codeAt block) : chain block.toNat ≠ [] := by
  obtain ⟨code, hread, hfull⟩ := h
  rw [← hserves block code hread]
  exact fun hnil => hfull (by rw [hnil]; rfl)

theorem NoCode.chain {chain : Nat → Bytes} (hserves : ServesCode codeAt chain) {block : UInt64}
    (h : NoCode codeAt block) : chain block.toNat = [] := by
  obtain ⟨code, hread, hempty⟩ := h
  rw [← hserves block code hread]
  exact List.length_eq_zero_iff.mp hempty

/-- A returned block has code and the block before it has none. -/
theorem found_appears {chain : Nat → Bytes} (hserves : ServesCode codeAt chain) {cutoff d : UInt64}
    (h : findDeploymentBlock codeAt cutoff = .ok d) :
    d ≤ cutoff ∧ chain d.toNat ≠ [] ∧ (0 < d.toNat → chain (d.toNat - 1) = []) := by
  obtain ⟨hle, hhas, hbefore⟩ := findDeploymentBlock_ok h
  refine ⟨hle, hhas.chain hserves, fun hpos => ?_⟩
  have hne : d ≠ 0 := by
    rintro rfl
    exact absurd hpos (by decide)
  have hnone := (hbefore hne).chain hserves
  have hone : (1 : UInt64).toNat = 1 := rfl
  have hge : 1 ≤ d := by
    rw [UInt64.le_iff_toNat_le, hone]
    exact hpos
  rwa [UInt64.toNat_sub_of_le _ _ hge, hone] at hnone

/-- If code stays, the blocks with code are those from the returned one on. -/
theorem found_first {chain : Nat → Bytes} (hserves : ServesCode codeAt chain) {cutoff d : UInt64}
    (hstays : CodeStays chain cutoff) (h : findDeploymentBlock codeAt cutoff = .ok d) {n : Nat}
    (hn : n ≤ cutoff.toNat) : chain n ≠ [] ↔ d.toNat ≤ n := by
  obtain ⟨hle, hhas, hbefore⟩ := found_appears hserves h
  constructor
  · intro hcode
    by_contra hlt
    have hpos : 0 < d.toNat := by omega
    have hbound := UInt64.le_iff_toNat_le.mp hle
    exact hstays n (d.toNat - 1) (by omega) (by omega) hcode (hbefore hpos)
  · exact fun hge => hstays d.toNat n hge hn hhas

/-- The search for the deployment, by the code of the chain. -/
structure Located (codeAt : UInt64 → Except String Bytes) (chain : Nat → Bytes) (cutoff : UInt64) :
    Prop where
  appears : ∀ d, findDeploymentBlock codeAt cutoff = .ok d →
    d ≤ cutoff ∧ chain d.toNat ≠ [] ∧ (0 < d.toNat → chain (d.toNat - 1) = [])
  first : CodeStays chain cutoff → ∀ d, findDeploymentBlock codeAt cutoff = .ok d →
    ∀ n ≤ cutoff.toNat, chain n ≠ [] ↔ d.toNat ≤ n
  /-- Nothing else stops the search. -/
  succeeds : (∃ d, findDeploymentBlock codeAt cutoff = .ok d) ∨ chain cutoff.toNat = [] ∨
    ∃ block ∈ deploymentReads codeAt cutoff, ∃ e, codeAt block = .error e
  cheap : (deploymentReads codeAt cutoff).length ≤ 66

theorem deployment_located {chain : Nat → Bytes} (hserves : ServesCode codeAt chain)
    (cutoff : UInt64) : Located codeAt chain cutoff := by
  constructor
  case appears => exact fun d h => found_appears hserves h
  case first => exact fun hstays d h n hn => found_first hserves hstays h hn
  case succeeds =>
    cases h : findDeploymentBlock codeAt cutoff with
    | ok d => exact Or.inl ⟨d, rfl⟩
    | error err =>
      obtain hnone | hfailed := findDeploymentBlock_fails h
      · exact Or.inr (Or.inl (hnone.chain hserves))
      · exact Or.inr (Or.inr hfailed)
  case cheap => exact length_deploymentReads codeAt cutoff

/-- A contract that is deployed in block 3. -/
def sampleChain (n : Nat) : Bytes := if 3 ≤ n then [0x60] else []

theorem deployment_located_sample :
    Located (fun block => .ok (sampleChain block.toNat)) sampleChain 10 ∧
      findDeploymentBlock (fun block => .ok (sampleChain block.toNat)) 10 = .ok 3 := by
  refine ⟨deployment_located ?_ 10, by decide +kernel⟩
  intro block code h
  exact (Except.ok.inj h).symm

end DeploymentSearch
