import Mathlib.Data.List.Basic
import SupplyAudit.FallibleScan

/-!
# Listings in pages

A server gives a listing page by page, and a client asks for one page after the
other until a page says that it is the last. What the client has made of the
pages in the end is a scan of all of them, however the listing was cut.
-/

namespace PagedListing

open FallibleScan

universe u
variable {ε σ β : Type u}

/-- A loop over pages, from a number on; without fuel it has not ended. -/
def scanPages (serve : Nat → Except ε β) (ends : β → Bool) (step : σ → β → Except ε σ) :
    Nat → Nat → σ → Option (Except ε σ)
  | 0, _, _ => none
  | fuel + 1, page, s =>
    match serve page with
    | .error err => some (.error err)
    | .ok batch =>
      match step s batch with
      | .error err => some (.error err)
      | .ok next =>
        if ends batch then some (.ok next) else scanPages serve ends step fuel (page + 1) next

/-- The pages that are served from a number on, up to the one that ends the listing. -/
inductive Serves (serve : Nat → Except ε β) (ends : β → Bool) : Nat → List β → Prop
  | last {page : Nat} {batch : β} (served : serve page = .ok batch) (final : ends batch = true) :
      Serves serve ends page [batch]
  | more {page : Nat} {batch : β} {rest : List β} (served : serve page = .ok batch)
      (further : ends batch = false) (next : Serves serve ends (page + 1) rest) :
      Serves serve ends page (batch :: rest)

variable {serve : Nat → Except ε β} {ends : β → Bool} {step : σ → β → Except ε σ}

theorem Serves.unique {page : Nat} {pages pages' : List β} (h : Serves serve ends page pages)
    (h' : Serves serve ends page pages') : pages = pages' := by
  induction h generalizing pages' with
  | last served final =>
    cases h' with
    | last served' final' => rw [Except.ok.inj (served.symm.trans served')]
    | more served' further' next' =>
      rw [← Except.ok.inj (served.symm.trans served'), final] at further'
      cases further'
  | more served further next ih =>
    cases h' with
    | last served' final' =>
      rw [← Except.ok.inj (served.symm.trans served'), further] at final'
      cases final'
    | more served' further' next' => rw [Except.ok.inj (served.symm.trans served'), ih next']

/-- A loop that ends has scanned the served pages, and has had fuel for each of them. -/
theorem scanPages_ok_iff {fuel page : Nat} {s s' : σ} :
    scanPages serve ends step fuel page s = some (.ok s') ↔
      ∃ pages, Serves serve ends page pages ∧ pages.length ≤ fuel ∧
        pages.foldlM step s = .ok s' := by
  induction fuel generalizing page s with
  | zero =>
    constructor
    · intro h
      cases h
    · rintro ⟨pages, hserves, hlength, -⟩
      cases hserves with
      | last served final => exact absurd hlength (Nat.not_succ_le_zero 0)
      | more served further next => exact absurd hlength (Nat.not_succ_le_zero _)
  | succ fuel ih =>
    rw [scanPages]
    constructor
    · intro h
      cases hserve : serve page with
      | error err =>
        rw [hserve] at h
        cases h
      | ok batch =>
        rw [hserve] at h
        dsimp only at h
        cases hstep : step s batch with
        | error err =>
          rw [hstep] at h
          cases h
        | ok next =>
          rw [hstep] at h
          dsimp only at h
          cases hends : ends batch with
          | true =>
            rw [hends, if_pos rfl] at h
            cases h
            refine ⟨[batch], .last hserve hends, Nat.succ_le_succ (Nat.zero_le fuel), ?_⟩
            rw [List.foldlM_cons, hstep]
            rfl
          | false =>
            rw [hends, if_neg Bool.false_ne_true] at h
            obtain ⟨pages, hserves, hlength, hscan⟩ := ih.mp h
            refine ⟨batch :: pages, .more hserve hends hserves, Nat.succ_le_succ hlength, ?_⟩
            rw [List.foldlM_cons, hstep, bind_ok, hscan]
    · rintro ⟨pages, hserves, hlength, hscan⟩
      cases hserves with
      | last served final =>
        rw [List.foldlM_cons, bind_eq_ok] at hscan
        obtain ⟨next, hstep, hscan⟩ := hscan
        cases hscan
        rw [served]
        dsimp only
        rw [hstep]
        dsimp only
        rw [final, if_pos rfl]
      | more served further next =>
        rw [List.foldlM_cons, bind_eq_ok] at hscan
        obtain ⟨between, hstep, hscan⟩ := hscan
        rw [served]
        dsimp only
        rw [hstep]
        dsimp only
        rw [further, if_neg Bool.false_ne_true]
        exact ih.mpr ⟨_, next, Nat.le_of_succ_le_succ hlength, hscan⟩

theorem Serves.imp {serve' : Nat → Except ε β}
    (h : ∀ page batch, serve page = .ok batch → serve' page = .ok batch) {page : Nat}
    {pages : List β} (hserves : Serves serve ends page pages) : Serves serve' ends page pages := by
  induction hserves with
  | last served final => exact .last (h _ _ served) final
  | more served further _ ih => exact .more (h _ _ served) further ih

/-- The pages before an empty one are served up to it. -/
theorem serves_append {page : Nat} {pages : List β} {final : β}
    (hserved : ∀ i (h : i < pages.length), serve (page + i) = .ok pages[i])
    (hfurther : ∀ batch ∈ pages, ends batch = false)
    (hfinal : serve (page + pages.length) = .ok final) (hends : ends final = true) :
    Serves serve ends page (pages ++ [final]) := by
  induction pages generalizing page with
  | nil => exact .last hfinal hends
  | cons batch rest ih =>
    obtain ⟨hbatch, hrest⟩ := List.forall_mem_cons.mp hfurther
    have hshift : ∀ i : Nat, page + 1 + i = page + (i + 1) := fun i => by omega
    refine .more (hserved 0 (Nat.succ_pos _)) hbatch (ih ?_ hrest ?_)
    · intro i hi
      rw [hshift, hserved (i + 1) (Nat.succ_lt_succ hi)]
      rfl
    · rw [hshift]
      exact hfinal

/-! ## Pages of a fixed size -/

section Sized
variable {α : Type u} (items : List α) (size : Nat)

/-- A page of the listing; past the end it is empty. -/
def pageOf (page : Nat) : List α := (items.drop (page * size)).take size

/-- A page with fewer entries than asked for is the last. -/
def short (batch : List α) : Bool := batch.length < size

/-- Pages of one size give every entry once, in order, and there is one more of them than are
full. -/
theorem serves_pageOf (hsize : 0 < size) {page : Nat} (hpage : page * size ≤ items.length) :
    ∃ pages, Serves (fun page => (.ok (pageOf items size page) : Except ε (List α))) (short size)
        page pages ∧
      pages.flatten = items.drop (page * size) ∧
      pages.length = (items.length - page * size) / size + 1 := by
  obtain ⟨left, hleft⟩ : ∃ left, items.length - page * size = left := ⟨_, rfl⟩
  induction left using Nat.strong_induction_on generalizing page with
  | _ left ih =>
    have hlength : (items.drop (page * size)).length = left := by rw [List.length_drop, hleft]
    by_cases hshort : left < size
    · refine ⟨[pageOf items size page], .last rfl ?_, ?_, ?_⟩
      · rw [short, pageOf, List.length_take, hlength, decide_eq_true_eq]
        omega
      · rw [List.flatten_singleton, pageOf, List.take_of_length_le (by omega)]
      · rw [hleft, Nat.div_eq_of_lt hshort]
        rfl
    · have hnext : (page + 1) * size = page * size + size := Nat.succ_mul page size
      have hbound : (page + 1) * size ≤ items.length := by omega
      obtain ⟨pages, hserves, hflatten, hcount⟩ := ih (left - size) (by omega) hbound (by omega)
      refine ⟨pageOf items size page :: pages, .more rfl ?_ hserves, ?_, ?_⟩
      · rw [short, pageOf, List.length_take, hlength, decide_eq_false_iff_not]
        omega
      · rw [List.flatten_cons, hflatten, pageOf, hnext, ← List.drop_drop,
          List.take_append_drop]
      · have hdiv : left / size = (left - size) / size + 1 :=
          Nat.div_eq_sub_div hsize (Nat.not_lt.mp hshort)
        have hrest : items.length - (page + 1) * size = left - size := by omega
        rw [List.length_cons, hcount, hrest, hleft, hdiv]

theorem foldlM_collect (pages : List (List α)) (collected : List α) :
    pages.foldlM (fun collected batch => (.ok (collected ++ batch) : Except ε (List α)))
      collected = .ok (collected ++ pages.flatten) := by
  induction pages generalizing collected with
  | nil =>
    rw [List.flatten_nil, List.append_nil]
    rfl
  | cons batch rest ih => rw [List.foldlM_cons, bind_ok, ih, List.flatten_cons, List.append_assoc]

/-- A loop with fuel for `bound` pages of one size that ends has collected the whole listing, and
has had room for it. -/
theorem scanPages_collect (hsize : 0 < size) {bound : Nat} {serve : Nat → Except ε (List α)}
    (hserve : ∀ page batch, serve page = .ok batch → batch = pageOf items size page)
    {collected : List α}
    (h : scanPages serve (short size) (fun collected batch => .ok (collected ++ batch)) bound 0 [] =
      some (.ok collected)) :
    collected = items ∧ items.length < bound * size := by
  obtain ⟨pages, hserves, hlength, hscan⟩ := scanPages_ok_iff.mp h
  have hfirst : 0 * size ≤ items.length := by omega
  obtain ⟨pages', hserves', hflatten, hcount⟩ := serves_pageOf items size hsize hfirst
  have hsame : pages = pages' := by
    refine (hserves.imp ?_).unique hserves'
    intro page batch hbatch
    rw [hserve page batch hbatch]
  subst hsame
  rw [foldlM_collect, List.nil_append, hflatten, Nat.zero_mul, List.drop_zero] at hscan
  rw [Nat.zero_mul, Nat.sub_zero] at hcount
  refine ⟨(Except.ok.inj hscan).symm, ?_⟩
  rwa [← Nat.div_lt_iff_lt_mul hsize, ← Nat.succ_le_iff, Nat.succ_eq_add_one, ← hcount]

end Sized

end PagedListing
