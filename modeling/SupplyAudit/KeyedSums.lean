import Mathlib.Algebra.BigOperators.Group.Finset.Piecewise
import SupplyAudit.KeyedTable

/-!
# Sums of keyed entries

A list of keyed amounts gives every key the sum of its amounts. A table filled
from the list has the same amounts, whether it accumulates or, where no key
repeats, sets them; and the keys share the total out.
-/

namespace KeyedSums

open KeyedTable

universe u v
variable {κ : Type u} {M : Type v} [DecidableEq κ] [AddCommMonoid M]

/-- The sum of the amounts of a key. -/
def sumAt (entries : List (κ × M)) (k : κ) : M :=
  (entries.map fun e => if k = e.1 then e.2 else 0).sum

@[simp] theorem sumAt_nil (k : κ) : sumAt ([] : List (κ × M)) k = 0 := rfl

theorem sumAt_cons (e : κ × M) (entries : List (κ × M)) (k : κ) :
    sumAt (e :: entries) k = (if k = e.1 then e.2 else 0) + sumAt entries k := by
  rw [sumAt, List.map_cons, List.sum_cons, sumAt]

theorem sumAt_append (front back : List (κ × M)) (k : κ) :
    sumAt (front ++ back) k = sumAt front k + sumAt back k := by
  rw [sumAt, List.map_append, List.sum_append, sumAt, sumAt]

theorem sumAt_perm {entries entries' : List (κ × M)} (h : entries.Perm entries') (k : κ) :
    sumAt entries k = sumAt entries' k := (h.map _).sum_eq

theorem sumAt_of_not_mem {entries : List (κ × M)} {k : κ} (h : k ∉ entries.map Prod.fst) :
    sumAt entries k = 0 := by
  induction entries with
  | nil => rfl
  | cons e entries ih =>
    rw [List.map_cons, List.mem_cons, not_or] at h
    rw [sumAt_cons, if_neg h.1, ih h.2, add_zero]

theorem sumAt_of_mem {entries : List (κ × M)} (h : (entries.map Prod.fst).Nodup) {e : κ × M}
    (he : e ∈ entries) : sumAt entries e.1 = e.2 := by
  induction entries with
  | nil => exact absurd he List.not_mem_nil
  | cons first entries ih =>
    rw [List.map_cons, List.nodup_cons] at h
    rw [sumAt_cons]
    rcases List.mem_cons.mp he with rfl | he
    · rw [if_pos rfl, sumAt_of_not_mem h.1, add_zero]
    · have hne : e.1 ≠ first.1 := fun heq => h.1 (heq ▸ List.mem_map_of_mem he)
      rw [if_neg hne, ih h.2 he, zero_add]

/-- A table is a list of entries of its own. -/
theorem lookup_eq_sumAt {entries : List (κ × M)} (h : (entries.map Prod.fst).Nodup) (k : κ) :
    (entries.lookup k).getD 0 = sumAt entries k := by
  cases hk : entries.lookup k with
  | none => rw [Option.getD_none, sumAt_of_not_mem ((lookup_eq_none_iff entries k).mp hk)]
  | some value => rw [Option.getD_some, sumAt_of_mem h (mem_of_lookup hk)]

/-- Keys share the total out, if those without a share have nothing. -/
theorem sum_sumAt (keys : Finset κ) {entries : List (κ × M)}
    (h : ∀ e ∈ entries, e.1 ∉ keys → e.2 = 0) :
    ∑ k ∈ keys, sumAt entries k = (entries.map Prod.snd).sum := by
  induction entries with
  | nil => simp
  | cons e entries ih =>
    have hrest := ih fun other hother => h other (List.mem_cons_of_mem e hother)
    have hfirst : ∑ k ∈ keys, (if k = e.1 then e.2 else 0) = e.2 := by
      rw [Finset.sum_ite_eq']
      split
      · rfl
      · rename_i hnot
        exact (h e List.mem_cons_self hnot).symm
    simp only [sumAt_cons]
    rw [Finset.sum_add_distrib, hfirst, hrest, List.map_cons, List.sum_cons]

end KeyedSums
