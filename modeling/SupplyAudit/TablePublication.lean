import Mathlib.Algebra.Order.BigOperators.Group.List
import Mathlib.Algebra.Order.Group.Int
import Mathlib.Data.List.Sort
import Mathlib.Order.Lattice
import SupplyAudit.FallibleScan
import SupplyAudit.KeyedSums

/-!
# Publishing a table

A table that is filled entry by entry holds, at each key, the entries of that
key folded in turn. It is read out either at a fixed list of keys or in the
order of its keys. The first loses no total when the list holds every key of the
table, and the second depends on the lookups of the table alone.
-/

namespace TablePublication

open KeyedTable KeyedSums FallibleScan

universe u v
variable {κ : Type u} {β : Type v}

section Grouped
variable [DecidableEq κ] {α : Type*} (key : α → κ) (fresh : β) (change : α → β → β)

/-- Every entry changes what the table holds at its key. -/
def grouped (table : List (κ × β)) (entries : List α) : List (κ × β) :=
  entries.foldl (fun table e => update table (key e) fresh (change e)) table

theorem nodup_grouped {table : List (κ × β)} (h : (table.map Prod.fst).Nodup) (entries : List α) :
    ((grouped key fresh change table entries).map Prod.fst).Nodup := by
  induction entries generalizing table with
  | nil => exact h
  | cons e entries ih => exact ih (nodup_update h (key e) fresh (change e))

/-- At a key, only the entries of that key count. -/
theorem lookup_grouped (table : List (κ × β)) (entries : List α) (k : κ) :
    (grouped key fresh change table entries).lookup k =
      if entries.filter (fun e => key e = k) = [] then table.lookup k
      else some ((entries.filter fun e => key e = k).foldl (fun b e => change e b)
        ((table.lookup k).getD fresh)) := by
  induction entries generalizing table with
  | nil => rfl
  | cons e entries ih =>
    rw [grouped, List.foldl_cons]
    change (grouped key fresh change _ entries).lookup k = _
    rw [ih, update, lookup_set]
    by_cases hk : key e = k
    · subst hk
      rw [if_pos rfl, List.filter_cons, if_pos (decide_eq_true rfl), if_neg (List.cons_ne_nil _ _),
        List.foldl_cons, Option.getD_some]
      by_cases hnil : entries.filter (fun e' => key e' = key e) = []
      · rw [if_pos hnil, hnil, List.foldl_nil]
      · rw [if_neg hnil]
    · have hskip : (e :: entries).filter (fun e' => decide (key e' = k)) =
          entries.filter fun e' => decide (key e' = k) :=
        List.filter_cons_of_neg (by simpa using hk)
      rw [if_neg (Ne.symm hk), hskip]

theorem mem_keys_grouped (table : List (κ × β)) (entries : List α) (k : κ) :
    k ∈ (grouped key fresh change table entries).map Prod.fst ↔
      k ∈ table.map Prod.fst ∨ ∃ e ∈ entries, key e = k := by
  induction entries generalizing table with
  | nil => simp [grouped]
  | cons e entries ih =>
    have hset := mem_keys_set table (key e) (change e ((table.lookup (key e)).getD fresh)) k
    have hrest := ih (update table (key e) fresh (change e))
    rw [update, hset, or_assoc, eq_comm (b := key e)] at hrest
    rw [List.exists_mem_cons_iff, or_left_comm]
    exact hrest

/-- What is made of the entries of a key does not depend on the order of all entries. -/
theorem map_lookup_grouped_perm {table : List (κ × β)} {γ : Type*} {f : β → γ} {k : κ}
    (hf : ∀ own own' : List α, own.Perm own' →
      f (own.foldl (fun b e => change e b) ((table.lookup k).getD fresh)) =
        f (own'.foldl (fun b e => change e b) ((table.lookup k).getD fresh)))
    {entries entries' : List α} (hperm : entries.Perm entries') :
    ((grouped key fresh change table entries).lookup k).map f =
      ((grouped key fresh change table entries').lookup k).map f := by
  have hown := hperm.filter fun e => decide (key e = k)
  rw [lookup_grouped, lookup_grouped]
  by_cases hnil : entries.filter (fun e => key e = k) = []
  · have hnil' : entries'.filter (fun e => key e = k) = [] := (hnil ▸ hown).nil_eq.symm
    rw [if_pos hnil, if_pos hnil']
  · have hnil' : ¬ entries'.filter (fun e => key e = k) = [] :=
      fun h => hnil ((h ▸ hown).eq_nil)
    rw [if_neg hnil, if_neg hnil', Option.map_some, Option.map_some, hf _ _ hown]

/-- A total of the table grows by what each entry adds to the value it changes. -/
theorem total_grouped {M : Type*} [AddCancelCommMonoid M] {share : β → M} {weight : α → M}
    {P : β → Prop} (hfresh : P fresh) (hzero : share fresh = 0)
    (hkeep : ∀ e b, P b → P (change e b))
    (hadd : ∀ e b, P b → share (change e b) = share b + weight e) {table : List (κ × β)}
    (h : (table.map Prod.fst).Nodup) (hall : ∀ entry ∈ table, P entry.2) (entries : List α) :
    total share (grouped key fresh change table entries) =
      total share table + (entries.map weight).sum := by
  induction entries generalizing table with
  | nil => simp [grouped]
  | cons e entries ih =>
    have hold : P ((table.lookup (key e)).getD fresh) := by
      cases hlookup : table.lookup (key e) with
      | none => exact hfresh
      | some b => exact hall (key e, b) (mem_of_lookup hlookup)
    have hstep := total_update h fresh hzero (hadd e _ hold)
    have hrest := ih (nodup_update h (key e) fresh (change e)) (forall_set hall (hkeep e _ hold))
    calc total share (grouped key fresh change table (e :: entries))
        = total share (update table (key e) fresh (change e)) + (entries.map weight).sum := hrest
      _ = total share table + weight e + (entries.map weight).sum :=
        congrArg (· + (entries.map weight).sum) hstep
      _ = total share table + ((e :: entries).map weight).sum := by
        rw [List.map_cons, List.sum_cons, add_assoc]

/-- The share of a key grows by the entries of that key. -/
theorem shareAt_grouped {M : Type*} [AddCommMonoid M] {share : β → M} {weight : α → M}
    (hzero : share fresh = 0) (hadd : ∀ e b, share (change e b) = share b + weight e)
    (table : List (κ × β)) (entries : List α) (k : κ) :
    shareAt share (grouped key fresh change table entries) k =
      shareAt share table k + (entries.map fun e => if k = key e then weight e else 0).sum := by
  induction entries generalizing table with
  | nil => exact (add_zero _).symm
  | cons e entries ih =>
    change shareAt share (grouped key fresh change (update table (key e) fresh (change e)) entries)
      k = _
    rw [ih, shareAt_update table (key e) hzero (hadd e), List.map_cons, List.sum_cons, add_assoc]

end Grouped

section Listed
variable [DecidableEq κ] {M : Type*} [AddCommMonoid M] {share : β → M} {table : List (κ × β)}

theorem sum_shareAt_of_superset (h : (table.map Prod.fst).Nodup) {keys : List κ}
    (hkeys : keys.Nodup) (hall : ∀ k ∈ table.map Prod.fst, k ∈ keys) :
    (keys.map (shareAt share table)).sum = total share table := by
  have habsent : ∀ k ∈ keys, decide (k ∈ table.map Prod.fst) = false →
      shareAt share table k = 0 := by
    intro k _ hk
    have hnone := (lookup_eq_none_iff table k).mpr (of_decide_eq_false hk)
    simp [shareAt, hnone]
  have hperm : (keys.filter fun k => decide (k ∈ table.map Prod.fst)).Perm
      (table.map Prod.fst) := by
    apply (List.perm_ext_iff_of_nodup (hkeys.filter _) h).mpr
    intro k
    constructor
    · intro hk
      exact of_decide_eq_true (List.mem_filter.mp hk).2
    · intro hk
      exact List.mem_filter.mpr ⟨hall k hk, decide_eq_true hk⟩
  calc (keys.map (shareAt share table)).sum
      = ((keys.filter fun k => decide (k ∈ table.map Prod.fst)).map (shareAt share table)).sum :=
        (sum_map_filter habsent).symm
    _ = total share table := sum_shareAt share h hperm

/-- A table that has at each key the sum of the key's amounts has the sum of all amounts. -/
theorem total_eq_of_sumAt (h : (table.map Prod.fst).Nodup) {entries : List (κ × M)}
    (hsame : ∀ k, shareAt share table k = sumAt entries k) :
    total share table = (entries.map Prod.snd).sum := by
  have hkeys := List.nodup_dedup (table.map Prod.fst ++ entries.map Prod.fst)
  have htable : ∀ k ∈ table.map Prod.fst,
      k ∈ (table.map Prod.fst ++ entries.map Prod.fst).dedup := by
    intro k hk
    exact List.mem_dedup.mpr (List.mem_append_left _ hk)
  rw [← sum_shareAt_of_superset h hkeys htable, List.map_congr_left fun k _ => hsame k,
    ← List.sum_toFinset _ hkeys]
  apply sum_sumAt
  intro entry hentry hnot
  have hmem : entry.1 ∈ (table.map Prod.fst ++ entries.map Prod.fst).dedup :=
    List.mem_dedup.mpr (List.mem_append_right _ (List.mem_map_of_mem hentry))
  exact absurd (List.mem_toFinset.mpr hmem) hnot

/-- A listing at keys that hold those of the table has the table's total. -/
theorem sum_listed (h : (table.map Prod.fst).Nodup) {keys : List κ} (hkeys : keys.Nodup)
    (hall : ∀ k ∈ table.map Prod.fst, k ∈ keys) {γ : Type*} {entry : κ → β → γ} {value : γ → M}
    (hvalue : ∀ k b, value (entry k b) = share b) :
    ((keys.filterMap fun k => (table.lookup k).map (entry k)).map value).sum =
      total share table := by
  have heach : ∀ k, ((table.lookup k).map (entry k)).elim 0 value = shareAt share table k := by
    intro k
    cases hk : table.lookup k with
    | none => simp [shareAt, hk]
    | some b => simp [shareAt, hk, hvalue]
  rw [sum_filterMap, List.map_congr_left fun k _ => heach k]
  exact sum_shareAt_of_superset h hkeys hall

/-- The listing names the keys of the table that it was asked for. -/
theorem keys_listed (keys : List κ) {γ : Type*} {entry : κ → β → γ} {name : γ → κ}
    (hname : ∀ k b, name (entry k b) = k) :
    (keys.filterMap fun k => (table.lookup k).map (entry k)).map name =
      keys.filter fun k => decide (k ∈ table.map Prod.fst) := by
  induction keys with
  | nil => rfl
  | cons k keys ih =>
    cases hk : table.lookup k with
    | none =>
      have hmem := (lookup_eq_none_iff table k).mp hk
      rw [List.filterMap_cons, hk, List.filter_cons_of_neg (by simpa using hmem)]
      exact ih
    | some b =>
      have hmem : k ∈ table.map Prod.fst :=
        List.mem_map.mpr ⟨(k, b), mem_of_lookup hk, rfl⟩
      rw [List.filterMap_cons, hk, List.filter_cons, if_pos (decide_eq_true hmem)]
      simp only [Option.map_some, List.map_cons, hname]
      exact congrArg (k :: ·) ih

end Listed

theorem keys_map {β' : Type*} (f : β → β') (table : List (κ × β)) :
    (table.map (Prod.map id f)).map Prod.fst = table.map Prod.fst := by
  rw [List.map_map]
  rfl

/-- Tables with the same lookups have the same entries. -/
theorem perm_of_lookup [DecidableEq κ] {table table' : List (κ × β)} (h : (table.map Prod.fst).Nodup)
    (h' : (table'.map Prod.fst).Nodup) (hsame : ∀ k, table.lookup k = table'.lookup k) :
    table.Perm table' := by
  apply (List.perm_ext_iff_of_nodup h.of_map h'.of_map).mpr
  intro entry
  constructor
  · intro hmem
    have hk := lookup_of_mem h hmem
    exact mem_of_lookup (hsame entry.1 ▸ hk)
  · intro hmem
    have hk := lookup_of_mem h' hmem
    exact mem_of_lookup ((hsame entry.1).symm ▸ hk)

theorem map_lookup [DecidableEq κ] {β' : Type*} (f : β → β') (table : List (κ × β)) (k : κ) :
    (table.map (Prod.map id f)).lookup k = (table.lookup k).map f := by
  induction table with
  | nil => rfl
  | cons entry rest ih =>
    obtain ⟨name, value⟩ := entry
    rw [List.map_cons, Prod.map_apply, id]
    by_cases hk : k = name
    · rw [hk, lookup_cons_self, lookup_cons_self, Option.map_some]
    · rw [lookup_cons_of_ne hk, lookup_cons_of_ne hk, ih]

section Sorted
variable [LinearOrder κ] {β' : Type*}

/-- Entries in the order of their keys. -/
def sorted (table : List (κ × β)) : List (κ × β) := table.insertionSort fun a b => a.1 ≤ b.1

theorem perm_sorted (table : List (κ × β)) : (sorted table).Perm table :=
  List.perm_insertionSort _ table

theorem pairwise_sorted {table : List (κ × β)} (h : (table.map Prod.fst).Nodup) :
    (sorted table).Pairwise fun a b => a.1 < b.1 := by
  have hle : (sorted table).Pairwise fun a b => a.1 ≤ b.1 :=
    @List.pairwise_insertionSort (κ × β) (fun a b => a.1 ≤ b.1) _
      ⟨fun a b => le_total a.1 b.1⟩ ⟨fun _ _ _ => le_trans⟩ table
  have hne : (sorted table).Pairwise fun a b => a.1 ≠ b.1 :=
    List.pairwise_map.mp (((perm_sorted table).map Prod.fst).nodup_iff.mpr h)
  exact (hle.and hne).imp fun hab => lt_of_le_of_ne hab.1 hab.2

/-- The sorted listing depends on the entries and not on their order. -/
theorem sorted_eq_of_perm {table table' : List (κ × β)} (h : (table.map Prod.fst).Nodup)
    (hperm : table.Perm table') : sorted table = sorted table' := by
  have h' : (table'.map Prod.fst).Nodup := (hperm.map Prod.fst).nodup h
  have hsame : (sorted table).Perm (sorted table') :=
    (perm_sorted table).trans (hperm.trans (perm_sorted table').symm)
  exact hsame.eq_of_pairwise (fun a b _ _ hab hba => absurd hab (lt_asymm hba))
    (pairwise_sorted h) (pairwise_sorted h')

theorem sorted_eq_of_lookup {table table' : List (κ × β)} (h : (table.map Prod.fst).Nodup)
    (h' : (table'.map Prod.fst).Nodup) (hsame : ∀ k, table.lookup k = table'.lookup k) :
    sorted table = sorted table' :=
  sorted_eq_of_perm h (perm_of_lookup h h' hsame)

/-- Changing the values of a sorted listing is sorting the changed table. -/
theorem map_sorted (f : β → β') {table : List (κ × β)} (h : (table.map Prod.fst).Nodup) :
    (sorted table).map (Prod.map id f) = sorted (table.map (Prod.map id f)) := by
  have hkeys : ((table.map (Prod.map id f)).map Prod.fst).Nodup := (keys_map f table).symm ▸ h
  have hperm : ((sorted table).map (Prod.map id f)).Perm (sorted (table.map (Prod.map id f))) :=
    ((perm_sorted table).map _).trans (perm_sorted _).symm
  exact hperm.eq_of_pairwise (fun a b _ _ hab hba => absurd hab (lt_asymm hba))
    (List.pairwise_map.mpr (pairwise_sorted h)) (pairwise_sorted hkeys)

/-- A listing of values in key order depends on what is made of each lookup alone. -/
theorem map_sorted_eq_of_lookup {f : β → β'} {table table' : List (κ × β)}
    (h : (table.map Prod.fst).Nodup) (h' : (table'.map Prod.fst).Nodup)
    (hsame : ∀ k, (table.lookup k).map f = (table'.lookup k).map f) :
    (sorted table).map (Prod.map id f) = (sorted table').map (Prod.map id f) := by
  rw [map_sorted f h, map_sorted f h']
  apply sorted_eq_of_lookup
  · rwa [keys_map]
  · rwa [keys_map]
  · intro k
    rw [map_lookup, map_lookup, hsame]

end Sorted

/-- Amounts that are not negative add up to nothing when each of them is nothing. -/
theorem sum_eq_zero_iff_of_nonneg {α : Type*} {l : List α} {amount : α → Int}
    (h : ∀ a ∈ l, 0 ≤ amount a) : (l.map amount).sum = 0 ↔ ∀ a ∈ l, amount a = 0 := by
  constructor
  · intro hsum a ha
    exact List.all_zero_of_le_zero_le_of_sum_eq_zero (List.forall_mem_map.mpr h) hsum
      (List.mem_map_of_mem ha)
  · intro hzero
    exact List.sum_eq_zero (List.forall_mem_map.mpr hzero)

section Overwritten
variable [DecidableEq κ]

/-- The table that is left when entries are set in turn. -/
def written (table entries : List (κ × Int)) : List (κ × Int) :=
  entries.foldl (fun table entry => KeyedTable.set table entry.1 entry.2) table

/-- A positive value that is overwritten is lost to the total. -/
theorem total_written {table : List (κ × Int)} (h : (table.map Prod.fst).Nodup)
    (hpos : ∀ entry ∈ table, 0 < entry.2) {entries : List (κ × Int)}
    (hentries : ∀ entry ∈ entries, 0 < entry.2) :
    total id (written table entries) ≤ total id table + (entries.map Prod.snd).sum ∧
      (total id (written table entries) = total id table + (entries.map Prod.snd).sum ↔
        (entries.map Prod.fst).Nodup ∧ ∀ entry ∈ entries, entry.1 ∉ table.map Prod.fst) := by
  induction entries generalizing table with
  | nil => simp [written]
  | cons entry entries ih =>
    obtain ⟨key, value⟩ := entry
    have hvalue : 0 < value := hentries (key, value) List.mem_cons_self
    have hstep := total_set id h key value
    have hset := nodup_set h key value
    obtain ⟨hle, hiff⟩ := ih hset (forall_set hpos hvalue)
      fun entry hentry => hentries entry (List.mem_cons_of_mem _ hentry)
    -- the share of the key before it is set is what the set loses
    have hlost : 0 ≤ shareAt id table key ∧
        (shareAt id table key = 0 ↔ key ∉ table.map Prod.fst) := by
      rw [← lookup_eq_none_iff, shareAt]
      cases hlookup : table.lookup key with
      | none => simp
      | some old =>
        have hold : 0 < old := hpos (key, old) (mem_of_lookup hlookup)
        simp only [Option.elim_some, id]
        constructor
        · omega
        · constructor
          · intro hzero
            omega
          · intro hnone
            cases hnone
    have hkeys : (∀ entry ∈ entries, entry.1 ∉ (KeyedTable.set table key value).map Prod.fst) ↔
        key ∉ entries.map Prod.fst ∧ ∀ entry ∈ entries, entry.1 ∉ table.map Prod.fst := by
      constructor
      · intro hall
        constructor
        · intro hmem
          obtain ⟨entry, hentry, hkey⟩ := List.mem_map.mp hmem
          exact hall entry hentry ((mem_keys_set _ _ _ _).mpr (Or.inl hkey))
        · intro entry hentry hmem
          exact hall entry hentry ((mem_keys_set _ _ _ _).mpr (Or.inr hmem))
      · rintro ⟨hnew, hall⟩ entry hentry hmem
        rcases (mem_keys_set _ _ _ _).mp hmem with hkey | hold
        · exact hnew (List.mem_map.mpr ⟨entry, hentry, hkey⟩)
        · exact hall entry hentry hold
    change total id (written (KeyedTable.set table key value) entries) ≤ _ ∧
      (total id (written (KeyedTable.set table key value) entries) = _ ↔ _)
    simp only [List.map_cons, List.sum_cons, List.nodup_cons, List.forall_mem_cons, id] at hstep ⊢
    constructor
    · omega
    · rw [hkeys] at hiff
      constructor
      · intro htotal
        have hzero : shareAt id table key = 0 := by omega
        obtain ⟨hnodup, hnew, hall⟩ := hiff.mp (by omega)
        exact ⟨⟨hnew, hnodup⟩, hlost.2.mp hzero, hall⟩
      · rintro ⟨⟨hnew, hnodup⟩, hkey, hall⟩
        have hzero := hlost.2.mpr hkey
        have hrest := hiff.mpr ⟨hnodup, hnew, hall⟩
        omega

theorem lookup_written_of_not_mem {entries : List (κ × Int)} {k : κ}
    (h : k ∉ entries.map Prod.fst) (table : List (κ × Int)) :
    (written table entries).lookup k = table.lookup k := by
  induction entries generalizing table with
  | nil => rfl
  | cons entry entries ih =>
    rw [List.map_cons, List.mem_cons, not_or] at h
    change (written (KeyedTable.set table entry.1 entry.2) entries).lookup k = _
    rw [ih h.2, lookup_set, if_neg h.1]

/-- The entries that a later entry of the same key replaces. -/
def overwritten : List (κ × Int) → List (κ × Int)
  | [] => []
  | entry :: rest =>
    if entry.1 ∈ rest.map Prod.fst then entry :: overwritten rest else overwritten rest

/-- A key's entries are the one that is left and those that it replaced. -/
theorem sumAt_written (table entries : List (κ × Int)) (k : κ) :
    sumAt entries k =
      (if k ∈ entries.map Prod.fst then ((written table entries).lookup k).getD 0 else 0) +
        sumAt (overwritten entries) k := by
  induction entries generalizing table with
  | nil => rfl
  | cons entry rest ih =>
    have hrest := ih (KeyedTable.set table entry.1 entry.2)
    have hlost : sumAt (overwritten (entry :: rest)) k =
        (if k = entry.1 ∧ entry.1 ∈ rest.map Prod.fst then entry.2 else 0) +
          sumAt (overwritten rest) k := by
      rw [overwritten]
      by_cases hagain : entry.1 ∈ rest.map Prod.fst
      · simp only [if_pos hagain, sumAt_cons, and_iff_left hagain]
      · simp only [and_false, if_false, zero_add, hagain]
    rw [sumAt_cons, hlost, hrest]
    change _ = (if k ∈ entry.1 :: rest.map Prod.fst then
      ((written (KeyedTable.set table entry.1 entry.2) rest).lookup k).getD 0 else 0) + _
    by_cases hagain : k ∈ rest.map Prod.fst
    · rw [if_pos hagain, if_pos (List.mem_cons_of_mem _ hagain)]
      by_cases hk : k = entry.1
      · rw [if_pos hk, if_pos ⟨hk, hk ▸ hagain⟩]
        abel
      · rw [if_neg hk, if_neg fun h => hk h.1]
        abel
    · rw [if_neg hagain, lookup_written_of_not_mem hagain, lookup_set]
      by_cases hk : k = entry.1
      · have hnot : ¬ (k = entry.1 ∧ entry.1 ∈ rest.map Prod.fst) := by
          rintro ⟨-, hmem⟩
          exact hagain (hk ▸ hmem)
        rw [if_pos hk, if_pos (hk ▸ List.mem_cons_self), if_neg hnot]
        simp [hk]
      · have hnone : k ∉ entry.1 :: rest.map Prod.fst := List.not_mem_cons_of_ne_of_not_mem hk hagain
        rw [if_neg hk, if_neg hnone, if_neg fun h => hk h.1]

/-- The entries of some keys, key by key. -/
theorem sum_sumAt_keys {keys : List κ} (hkeys : keys.Nodup) (entries : List (κ × Int)) :
    (keys.map (sumAt entries)).sum =
      ((entries.filter fun entry => decide (entry.1 ∈ keys)).map Prod.snd).sum := by
  have hown : ∀ k ∈ keys, sumAt entries k =
      sumAt (entries.filter fun entry => decide (entry.1 ∈ keys)) k := by
    intro k hk
    refine (sum_map_filter ?_).symm
    intro entry _ hother
    have hne : k ≠ entry.1 := fun h => of_decide_eq_false hother (h ▸ hk)
    exact if_neg hne
  rw [List.map_congr_left hown, ← List.sum_toFinset _ hkeys]
  apply sum_sumAt
  intro entry hentry hnot
  have hmem := of_decide_eq_true (List.mem_filter.mp hentry).2
  exact absurd (List.mem_toFinset.mpr hmem) hnot

end Overwritten

end TablePublication
