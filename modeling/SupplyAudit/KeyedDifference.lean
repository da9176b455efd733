import Mathlib.Algebra.BigOperators.Group.Finset.Basic
import SupplyAudit.KeyedTable

/-!
# Differences of two keyed tables

A one-sided pass lists the entries of one table that the other does not have
with the same value. Two opposite passes together find every key at which the
tables differ, each once, if the second pass drops the keys that the first one
has listed. Nothing here depends on what the tables hold.
-/

namespace KeyedDifference

open KeyedTable

universe u v w
variable {κ : Type u} {β : Type v} [DecidableEq κ]
variable {old new forward reverse : List (κ × β)}

/-- The entries of `new` that are not entries of `old`, each listed once. -/
structure Lists (old new entries : List (κ × β)) : Prop where
  nodup : entries.Nodup
  exact : ∀ e, e ∈ entries ↔ e ∈ new ∧ e ∉ old

theorem mem_iff_lookup {table : List (κ × β)} (h : (table.map Prod.fst).Nodup) (k : κ)
    (value : β) : (k, value) ∈ table ↔ table.lookup k = some value :=
  ⟨lookup_of_mem h, mem_of_lookup⟩

theorem Lists.mem_iff (hold : (old.map Prod.fst).Nodup) (hnew : (new.map Prod.fst).Nodup)
    (h : Lists old new forward) (k : κ) (value : β) :
    (k, value) ∈ forward ↔ new.lookup k = some value ∧ old.lookup k ≠ some value := by
  rw [h.exact, mem_iff_lookup hnew, mem_iff_lookup hold]

/-- A pass over a table lists no key twice. -/
theorem Lists.nodup_keys (hnew : (new.map Prod.fst).Nodup) (h : Lists old new forward) :
    (forward.map Prod.fst).Nodup := by
  refine h.nodup.map_on ?_
  rintro ⟨k, value⟩ hmem ⟨k', value'⟩ hmem' rfl
  have hvalue := lookup_of_mem hnew ((h.exact _).mp hmem).1
  have hvalue' := lookup_of_mem hnew ((h.exact _).mp hmem').1
  rw [Prod.mk.injEq]
  exact ⟨rfl, Option.some.inj (hvalue.symm.trans hvalue')⟩

theorem Lists.mem_keys_iff (hold : (old.map Prod.fst).Nodup) (hnew : (new.map Prod.fst).Nodup)
    (h : Lists old new forward) (k : κ) :
    k ∈ forward.map Prod.fst ↔ new.lookup k ≠ none ∧ old.lookup k ≠ new.lookup k := by
  rw [List.mem_map]
  constructor
  · rintro ⟨⟨k, value⟩, hmem, rfl⟩
    obtain ⟨hvalue, hdiffers⟩ := (h.mem_iff hold hnew k value).mp hmem
    rw [hvalue]
    exact ⟨Option.some_ne_none value, hdiffers⟩
  · rintro ⟨hsome, hdiffers⟩
    obtain ⟨value, hvalue⟩ := Option.ne_none_iff_exists'.mp hsome
    rw [hvalue] at hdiffers
    exact ⟨(k, value), (h.mem_iff hold hnew k value).mpr ⟨hvalue, hdiffers⟩, rfl⟩

/-- What a reverse pass keeps: the entries whose keys are gone from `new`. -/
def dropped (new reverse : List (κ × β)) : List (κ × β) :=
  reverse.filter fun e => (new.lookup e.1).isNone

section Passes
variable (hold : (old.map Prod.fst).Nodup) (hnew : (new.map Prod.fst).Nodup)
variable (hforward : Lists old new forward) (hreverse : Lists new old reverse)
include hold hnew

theorem mem_dropped_iff (hreverse : Lists new old reverse) (k : κ) :
    k ∈ (dropped new reverse).map Prod.fst ↔ old.lookup k ≠ none ∧ new.lookup k = none := by
  constructor
  · intro h
    obtain ⟨e, hmem, rfl⟩ := List.mem_map.mp h
    obtain ⟨hlisted, hgone⟩ := List.mem_filter.mp hmem
    rw [Option.isNone_iff_eq_none] at hgone
    exact ⟨((hreverse.mem_keys_iff hnew hold e.1).mp (List.mem_map_of_mem hlisted)).1, hgone⟩
  · rintro ⟨hsome, hgone⟩
    have hdiffers : new.lookup k ≠ old.lookup k := by
      rw [hgone]
      exact hsome.symm
    obtain ⟨e, hlisted, rfl⟩ :=
      List.mem_map.mp ((hreverse.mem_keys_iff hnew hold k).mpr ⟨hsome, hdiffers⟩)
    exact List.mem_map_of_mem
      (List.mem_filter.mpr ⟨hlisted, Option.isNone_iff_eq_none.mpr hgone⟩)

include hforward hreverse

/-- The two passes together find the keys at which the tables differ. -/
theorem mem_passes_iff (k : κ) :
    k ∈ forward.map Prod.fst ++ (dropped new reverse).map Prod.fst ↔
      old.lookup k ≠ new.lookup k := by
  rw [List.mem_append, hforward.mem_keys_iff hold hnew, mem_dropped_iff hold hnew hreverse]
  by_cases hgone : new.lookup k = none
  · simp [hgone]
  · simp [hgone]

/-- They find each of them once. -/
theorem nodup_passes :
    (forward.map Prod.fst ++ (dropped new reverse).map Prod.fst).Nodup := by
  refine List.nodup_append.mpr ⟨hforward.nodup_keys hnew,
    (hreverse.nodup_keys hold).sublist (List.filter_sublist.map Prod.fst), ?_⟩
  rintro k hk k' hk' rfl
  exact ((hforward.mem_keys_iff hold hnew k).mp hk).1
    ((mem_dropped_iff hold hnew hreverse k).mp hk').2

end Passes

section Totals
variable {M : Type w} [AddCommGroup M] (share : β → M)

theorem sum_shareAt_finset {table : List (κ × β)} (h : (table.map Prod.fst).Nodup)
    {keys : Finset κ} (hkeys : ∀ k, k ∉ keys → table.lookup k = none) :
    ∑ k ∈ keys, shareAt share table k = total share table := by
  have hsubset : (table.map Prod.fst).toFinset ⊆ keys := by
    intro k hk
    by_contra hnot
    exact (lookup_eq_none_iff table k).mp (hkeys k hnot) (List.mem_toFinset.mp hk)
  rw [← Finset.sum_subset hsubset, List.sum_toFinset _ h, sum_shareAt share h (List.Perm.refl _)]
  intro k _ hnot
  rw [List.mem_toFinset] at hnot
  rw [shareAt, (lookup_eq_none_iff table k).mpr hnot, Option.elim_none]

/-- The totals of two tables differ by the keys at which the tables differ. -/
theorem sum_changes (hold : (old.map Prod.fst).Nodup) (hnew : (new.map Prod.fst).Nodup)
    {keys : List κ} (hkeys : keys.Nodup)
    (hcover : ∀ k, old.lookup k ≠ new.lookup k → k ∈ keys) :
    (keys.map fun k => shareAt share new k - shareAt share old k).sum =
      total share new - total share old := by
  let every := (keys ++ (old.map Prod.fst ++ new.map Prod.fst)).toFinset
  have hold' : ∀ k, k ∉ every → old.lookup k = none := by
    intro k hk
    simp only [every, List.mem_toFinset, List.mem_append, not_or] at hk
    exact (lookup_eq_none_iff old k).mpr hk.2.1
  have hnew' : ∀ k, k ∉ every → new.lookup k = none := by
    intro k hk
    simp only [every, List.mem_toFinset, List.mem_append, not_or] at hk
    exact (lookup_eq_none_iff new k).mpr hk.2.2
  have hsubset : keys.toFinset ⊆ every := by
    intro k hk
    simp only [every, List.mem_toFinset, List.mem_append] at hk ⊢
    exact Or.inl hk
  rw [← List.sum_toFinset _ hkeys, Finset.sum_subset hsubset, Finset.sum_sub_distrib,
    sum_shareAt_finset share hnew hnew', sum_shareAt_finset share hold hold']
  intro k _ hnot
  rw [List.mem_toFinset] at hnot
  have hsame : old.lookup k = new.lookup k := by
    by_contra hdiffers
    exact hnot (hcover k hdiffers)
  rw [shareAt, shareAt, hsame, sub_self]

end Totals

/-- The values after a list of changes, each of which sets one key. -/
def applied {γ : Type w} (values : κ → γ) (changes : List (κ × γ)) : κ → γ :=
  changes.foldl (fun values change => Function.update values change.1 change.2) values

/-- A key that no change names keeps its value; one that is named once has the new one. -/
theorem applied_eq {γ : Type w} (values : κ → γ) {changes : List (κ × γ)}
    (h : (changes.map Prod.fst).Nodup) (k : κ) :
    applied values changes k = (changes.lookup k).getD (values k) := by
  induction changes generalizing values with
  | nil => rfl
  | cons change rest ih =>
    obtain ⟨name, value⟩ := change
    rw [List.map_cons, List.nodup_cons] at h
    have hrest := ih (Function.update values name value) h.2
    rw [applied] at hrest ⊢
    rw [List.foldl_cons, hrest]
    by_cases hk : k = name
    · rw [hk, (lookup_eq_none_iff rest name).mpr h.1, lookup_cons_self, Option.getD_none,
        Option.getD_some, Function.update_self]
    · rw [lookup_cons_of_ne hk, Function.update_of_ne hk]

end KeyedDifference
