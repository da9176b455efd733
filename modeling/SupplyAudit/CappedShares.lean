import Mathlib.Algebra.Order.BigOperators.Group.List

/-!
# Shares capped at one amount

Several shares may each be capped at the same amount. The capped shares together
stay within the amount only where it is never needed more than once.
-/

namespace CappedShares

variable {M : Type*} [AddCommGroup M] [LinearOrder M] [IsOrderedAddMonoid M]

theorem sum_min_le_sum (shares : List M) (cap : M) :
    (shares.map fun x => min x cap).sum ≤ shares.sum := by
  induction shares with
  | nil => exact le_rfl
  | cons x shares ih =>
    rw [List.map_cons, List.sum_cons, List.sum_cons]
    exact add_le_add (min_le_left x cap) ih

theorem sum_min_pos {shares : List M} (hpos : ∀ x ∈ shares, 0 < x) (hne : shares ≠ []) {cap : M}
    (hcap : 0 < cap) : 0 < (shares.map fun x => min x cap).sum := by
  refine List.sum_pos _ ?_ fun h => hne (List.map_eq_nil_iff.mp h)
  intro m hm
  obtain ⟨x, hx, rfl⟩ := List.mem_map.mp hm
  exact lt_min (hpos x hx) hcap

/-- One share that fills the amount leaves nothing for another. -/
theorem lt_sum_min {shares : List M} (hpos : ∀ x ∈ shares, 0 < x) (htwo : shares.length ≠ 1)
    {cap : M} (hcap : 0 < cap) {x : M} (hx : x ∈ shares) (hfull : cap ≤ x) :
    cap < (shares.map fun x => min x cap).sum := by
  obtain ⟨left, right, rfl⟩ := List.append_of_mem hx
  have hothers : left ++ right ≠ [] := by
    intro hnil
    obtain ⟨rfl, rfl⟩ := List.append_eq_nil_iff.mp hnil
    exact htwo rfl
  have hrest : 0 < ((left ++ right).map fun x => min x cap).sum := by
    refine sum_min_pos (fun y hy => hpos y ?_) hothers hcap
    rw [List.mem_append, List.mem_cons]
    exact (List.mem_append.mp hy).imp_right Or.inr
  rw [List.map_append, List.sum_append] at hrest
  rw [List.map_append, List.sum_append, List.map_cons, List.sum_cons, min_eq_right hfull,
    add_left_comm]
  exact lt_add_of_pos_right cap hrest

/-- The capped shares fit into the amount exactly when there is one share, the
amount is not positive, or all shares fit uncapped. -/
theorem sum_min_le_iff {shares : List M} (hpos : ∀ x ∈ shares, 0 < x) (hne : shares ≠ [])
    (cap : M) : (shares.map fun x => min x cap).sum ≤ cap ↔
      shares.length = 1 ∨ cap ≤ 0 ∨ shares.sum ≤ cap := by
  constructor
  · intro h
    by_contra hnot
    rw [not_or, not_or, not_le, not_le] at hnot
    obtain ⟨htwo, hcap, hsum⟩ := hnot
    by_cases hfull : ∃ x ∈ shares, cap ≤ x
    · obtain ⟨x, hx, hle⟩ := hfull
      exact absurd h (not_le.mpr (lt_sum_min hpos htwo hcap hx hle))
    · have huncapped : shares.map (fun x => min x cap) = shares := by
        refine (List.map_congr_left fun x hx => ?_).trans (List.map_id' shares)
        exact min_eq_left (le_of_not_ge fun hle => hfull ⟨x, hx, hle⟩)
      rw [huncapped] at h
      exact absurd h (not_le.mpr hsum)
  · rintro (hone | hcap | hsum)
    · obtain ⟨x, rfl⟩ := List.length_eq_one_iff.mp hone
      rw [List.map_singleton, List.sum_singleton]
      exact min_le_right x cap
    · obtain ⟨x, rest, rfl⟩ := List.exists_cons_of_ne_nil hne
      have hrest : (rest.map fun x => min x cap).sum ≤ 0 := by
        refine (List.sum_le_card_nsmul _ 0 fun m hm => ?_).trans_eq (nsmul_zero _)
        obtain ⟨y, -, rfl⟩ := List.mem_map.mp hm
        exact (min_le_right y cap).trans hcap
      rw [List.map_cons, List.sum_cons]
      exact (add_le_add (min_le_right x cap) hrest).trans_eq (add_zero cap)
    · exact (sum_min_le_sum shares cap).trans hsum

end CappedShares
