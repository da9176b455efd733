import Mathlib.Algebra.BigOperators.Group.List.Basic
import Mathlib.Tactic.Abel

/-!
# Tables as lists of keyed entries

A dictionary that is filled by insertion: setting a key replaces its entry, or
appends one. Keys stay distinct, a lookup sees the last value set, and a total
over the entries changes by the new value less the one it replaces.
-/

namespace KeyedTable

universe u v
variable {κ : Type u} {β : Type v} [DecidableEq κ]

def set : List (κ × β) → κ → β → List (κ × β)
  | [], key, value => [(key, value)]
  | entry :: rest, key, value =>
    if entry.1 = key then (key, value) :: rest else entry :: set rest key value

/-- The entry of a key changed; a key without one has a fresh entry changed. -/
def update (table : List (κ × β)) (key : κ) (fresh : β) (change : β → β) : List (κ × β) :=
  set table key (change ((table.lookup key).getD fresh))

theorem lookup_cons_self (key : κ) (value : β) (rest : List (κ × β)) :
    List.lookup key ((key, value) :: rest) = some value := by
  rw [List.lookup_cons, beq_self_eq_true]

theorem lookup_cons_of_ne {k key : κ} (h : k ≠ key) (value : β) (rest : List (κ × β)) :
    List.lookup k ((key, value) :: rest) = rest.lookup k := by
  rw [List.lookup_cons, beq_false_of_ne h]

theorem lookup_set (table : List (κ × β)) (key : κ) (value : β) (k : κ) :
    (set table key value).lookup k = if k = key then some value else table.lookup k := by
  induction table with
  | nil =>
    by_cases hk : k = key
    · rw [if_pos hk, hk]
      exact lookup_cons_self key value []
    · rw [if_neg hk]
      exact lookup_cons_of_ne hk value []
  | cons entry rest ih =>
    obtain ⟨name, old⟩ := entry
    rw [set]
    by_cases he : name = key
    · subst he
      rw [if_pos rfl]
      by_cases hk : k = name
      · rw [if_pos hk, hk, lookup_cons_self]
      · rw [if_neg hk, lookup_cons_of_ne hk, lookup_cons_of_ne hk]
    · rw [if_neg he]
      by_cases hk : k = name
      · subst hk
        rw [if_neg he, lookup_cons_self, lookup_cons_self]
      · rw [lookup_cons_of_ne hk, lookup_cons_of_ne hk, ih]

theorem length_set (table : List (κ × β)) (key : κ) (value : β) :
    (set table key value).length = table.length + if (table.lookup key).isSome then 0 else 1 := by
  induction table with
  | nil => rfl
  | cons entry rest ih =>
    obtain ⟨name, old⟩ := entry
    rw [set]
    by_cases hname : name = key
    · subst hname
      rw [if_pos rfl, lookup_cons_self]
      rfl
    · rw [if_neg hname, lookup_cons_of_ne (Ne.symm hname), List.length_cons, ih, List.length_cons]
      omega

/-- A key that is not yet in the table is appended. -/
theorem set_of_not_mem {table : List (κ × β)} {key : κ}
    (h : key ∉ table.map Prod.fst) (value : β) : set table key value = table ++ [(key, value)] := by
  induction table with
  | nil => rfl
  | cons entry rest ih =>
    rw [List.map_cons, List.mem_cons, not_or] at h
    rw [set, if_neg (Ne.symm h.1), ih h.2, List.cons_append]

theorem mem_keys_set (table : List (κ × β)) (key : κ) (value : β) (k : κ) :
    k ∈ (set table key value).map Prod.fst ↔ k = key ∨ k ∈ table.map Prod.fst := by
  induction table with
  | nil => simp [set]
  | cons entry rest ih =>
    rw [set]
    by_cases he : entry.1 = key
    · simp [he]
    · rw [if_neg he, List.map_cons, List.mem_cons, ih, List.map_cons, List.mem_cons]
      exact or_left_comm

theorem nodup_set {table : List (κ × β)} (h : (table.map Prod.fst).Nodup) (key : κ) (value : β) :
    ((set table key value).map Prod.fst).Nodup := by
  induction table with
  | nil => simp [set]
  | cons entry rest ih =>
    rw [List.map_cons, List.nodup_cons] at h
    rw [set]
    by_cases he : entry.1 = key
    · rw [if_pos he, List.map_cons, List.nodup_cons]
      exact ⟨he ▸ h.1, h.2⟩
    · rw [if_neg he, List.map_cons, List.nodup_cons, mem_keys_set]
      exact ⟨fun hm => hm.elim he h.1, ih h.2⟩

theorem nodup_update {table : List (κ × β)} (h : (table.map Prod.fst).Nodup) (key : κ) (fresh : β)
    (change : β → β) : ((update table key fresh change).map Prod.fst).Nodup := nodup_set h _ _

/-- Setting a key to something that holds of the new value keeps it of every value. -/
theorem forall_set {P : κ × β → Prop} {table : List (κ × β)} (h : ∀ entry ∈ table, P entry)
    {key : κ} {value : β} (hnew : P (key, value)) : ∀ entry ∈ set table key value, P entry := by
  induction table with
  | nil =>
    intro entry hentry
    rw [List.mem_singleton.mp hentry]
    exact hnew
  | cons first rest ih =>
    have hrest : ∀ entry ∈ rest, P entry := fun e he => h e (List.mem_cons_of_mem first he)
    intro entry hentry
    rw [set] at hentry
    split at hentry
    · rcases List.mem_cons.mp hentry with rfl | he
      · exact hnew
      · exact hrest entry he
    · rcases List.mem_cons.mp hentry with rfl | he
      · exact h entry List.mem_cons_self
      · exact ih hrest entry he

theorem mem_keys_foldl_set {α : Type*} (key : α → κ) (value : α → β) (l : List α)
    (table : List (κ × β)) (k : κ) :
    k ∈ (l.foldl (fun t a => set t (key a) (value a)) table).map Prod.fst ↔
      k ∈ l.map key ∨ k ∈ table.map Prod.fst := by
  induction l generalizing table with
  | nil => simp
  | cons a l ih =>
    rw [List.foldl_cons, ih, mem_keys_set, List.map_cons, List.mem_cons]
    tauto

theorem nodup_foldl_set {α : Type*} (key : α → κ) (value : α → β) (l : List α)
    {table : List (κ × β)} (h : (table.map Prod.fst).Nodup) :
    ((l.foldl (fun t a => set t (key a) (value a)) table).map Prod.fst).Nodup := by
  induction l generalizing table with
  | nil => exact h
  | cons a l ih => exact ih (nodup_set h _ _)

/-- A table computed from its keys. -/
theorem lookup_map_keys (value : κ → β) (keys : List κ) (k : κ) :
    (keys.map fun key => (key, value key)).lookup k = if k ∈ keys then some (value k) else none := by
  induction keys with
  | nil => rfl
  | cons key keys ih =>
    rw [List.map_cons]
    by_cases hk : k = key
    · subst hk
      rw [lookup_cons_self, if_pos List.mem_cons_self]
    · rw [lookup_cons_of_ne hk, ih]
      simp only [List.mem_cons, hk, false_or]

omit [DecidableEq κ] in
theorem keys_map_keys (value : κ → β) (keys : List κ) :
    (keys.map fun key => (key, value key)).map Prod.fst = keys := by
  rw [List.map_map]
  exact List.map_id keys

theorem lookup_eq_none_iff (table : List (κ × β)) (k : κ) :
    table.lookup k = none ↔ k ∉ table.map Prod.fst := by
  induction table with
  | nil => simp
  | cons entry rest ih =>
    obtain ⟨name, value⟩ := entry
    rw [List.map_cons, List.mem_cons, not_or]
    by_cases hk : k = name
    · simp [hk]
    · rw [lookup_cons_of_ne hk, ih, and_iff_right hk]

theorem lookup_of_mem {table : List (κ × β)} (h : (table.map Prod.fst).Nodup) {entry : κ × β}
    (hm : entry ∈ table) : table.lookup entry.1 = some entry.2 := by
  induction table with
  | nil => cases hm
  | cons first rest ih =>
    obtain ⟨name, value⟩ := first
    rw [List.map_cons, List.nodup_cons] at h
    rcases List.mem_cons.mp hm with rfl | hrest
    · exact lookup_cons_self name value rest
    · have hne : entry.1 ≠ name := fun he => h.1 (List.mem_map.mpr ⟨entry, hrest, he⟩)
      rw [lookup_cons_of_ne hne]
      exact ih h.2 hrest

theorem mem_of_lookup {κ : Type u} [BEq κ] [LawfulBEq κ] {table : List (κ × β)} {key : κ}
    {value : β} (h : table.lookup key = some value) : (key, value) ∈ table := by
  obtain ⟨before, after, rfl, -⟩ := List.lookup_eq_some_iff.mp h
  exact List.mem_append_right before List.mem_cons_self

/-- The order of entries does not matter to a lookup. -/
theorem lookup_perm {table table' : List (κ × β)} (h : (table.map Prod.fst).Nodup)
    (hperm : table.Perm table') (k : κ) : table.lookup k = table'.lookup k := by
  have h' := (hperm.map Prod.fst).nodup h
  cases hk : table'.lookup k with
  | none =>
    rw [lookup_eq_none_iff] at hk ⊢
    exact fun hmem => hk ((hperm.map Prod.fst).mem_iff.mp hmem)
  | some value => exact lookup_of_mem h (hperm.mem_iff.mpr (mem_of_lookup hk))

/-- A loop that sets each key once builds the table in the order of its entries. -/
theorem foldlM_set {α ε : Type*} {step : List (κ × β) → α → Except ε (List (κ × β))}
    {entry : α → κ × β} {rows : List α}
    (hstep : ∀ table, ∀ row ∈ rows, step table row = .ok (set table (entry row).1 (entry row).2))
    (hnodup : ((rows.map entry).map Prod.fst).Nodup) :
    rows.foldlM step [] = .ok (rows.map entry) := by
  have hrun : ∀ done rest : List α, done ++ rest = rows →
      rest.foldlM step (done.map entry) = .ok (rows.map entry) := by
    intro done rest
    induction rest generalizing done with
    | nil =>
      rintro rfl
      rw [List.append_nil]
      rfl
    | cons row rest ih =>
      intro heq
      have hrow : row ∈ rows := heq ▸ List.mem_append_right done List.mem_cons_self
      have hfresh : (entry row).1 ∉ (done.map entry).map Prod.fst := by
        rw [← heq, List.map_append, List.map_cons, List.map_append, List.map_cons,
          List.nodup_append] at hnodup
        exact fun hmem => hnodup.2.2 _ hmem _ List.mem_cons_self rfl
      have hset : set (done.map entry) (entry row).1 (entry row).2 = (done ++ [row]).map entry := by
        rw [set_of_not_mem hfresh, List.map_append, List.map_singleton]
      rw [List.foldlM_cons, hstep _ row hrow, hset]
      exact ih (done ++ [row]) (by rw [← heq, List.append_assoc, List.singleton_append])
  exact hrun [] rows rfl

section Totals
variable {M : Type*} [AddCommMonoid M] (share : β → M)

/-- The share of a key; a key without an entry has none. -/
def shareAt (table : List (κ × β)) (k : κ) : M := (table.lookup k).elim 0 share

def total (table : List (κ × β)) : M := (table.map fun entry => share entry.2).sum

theorem total_set {table : List (κ × β)} (h : (table.map Prod.fst).Nodup) (key : κ) (value : β) :
    total share (set table key value) + shareAt share table key =
      total share table + share value := by
  induction table with
  | nil => simp [set, total, shareAt]
  | cons entry rest ih =>
    obtain ⟨name, old⟩ := entry
    rw [List.map_cons, List.nodup_cons] at h
    rw [set]
    by_cases he : name = key
    · subst he
      rw [if_pos rfl, shareAt, lookup_cons_self, Option.elim_some]
      simp only [total, List.map_cons, List.sum_cons]
      abel
    · have hat : shareAt share ((name, old) :: rest) key = shareAt share rest key := by
        rw [shareAt, lookup_cons_of_ne (Ne.symm he), shareAt]
      have hrest := ih h.2
      rw [if_neg he, hat]
      simp only [total, List.map_cons, List.sum_cons] at hrest ⊢
      rw [add_assoc, hrest, add_assoc]

/-- The total is the shares of the keys, in any order of the keys. -/
theorem sum_shareAt {table : List (κ × β)} (h : (table.map Prod.fst).Nodup) {keys : List κ}
    (hperm : keys.Perm (table.map Prod.fst)) :
    (keys.map (shareAt share table)).sum = total share table := by
  rw [(hperm.map (shareAt share table)).sum_eq, List.map_map, total]
  congr 1
  apply List.map_congr_left
  intro entry hm
  simp [shareAt, lookup_of_mem h hm]

/-- A total changes by what the entry of one key changes by. -/
theorem total_update {M : Type*} [AddCancelCommMonoid M] {share : β → M} {table : List (κ × β)}
    (h : (table.map Prod.fst).Nodup) {key : κ} (fresh : β) {value : β} {change : M}
    (hfresh : share fresh = 0)
    (hvalue : share value = share ((table.lookup key).getD fresh) + change) :
    total share (set table key value) = total share table + change := by
  have hat : shareAt share table key = share ((table.lookup key).getD fresh) := by
    rw [shareAt]
    cases table.lookup key with
    | none => exact hfresh.symm
    | some old => rfl
  have hset := total_set share h key value
  rw [hat, hvalue, add_comm (share _) change, ← add_assoc] at hset
  exact add_right_cancel hset

/-- A total changes by what every entry changes by. -/
theorem total_update_add {M : Type*} [AddCancelCommMonoid M] {share : β → M}
    {table : List (κ × β)} (h : (table.map Prod.fst).Nodup) (key : κ) {fresh : β}
    {change : β → β} {amount : M} (hfresh : share fresh = 0)
    (hchange : ∀ value, share (change value) = share value + amount) :
    total share (update table key fresh change) = total share table + amount :=
  total_update h fresh hfresh (hchange _)

theorem shareAt_update {M : Type*} [AddCommMonoid M] {share : β → M} (table : List (κ × β))
    (key : κ) {fresh : β} {change : β → β} {amount : M} (hfresh : share fresh = 0)
    (hchange : ∀ value, share (change value) = share value + amount) (k : κ) :
    shareAt share (update table key fresh change) k =
      shareAt share table k + if k = key then amount else 0 := by
  rw [shareAt, shareAt, update, lookup_set]
  by_cases hk : k = key
  · rw [if_pos hk, if_pos hk, hk, Option.elim_some, hchange]
    cases table.lookup key with
    | none => rw [Option.getD_none, hfresh, Option.elim_none]
    | some value => rfl
  · rw [if_neg hk, if_neg hk, add_zero]

end Totals

end KeyedTable
