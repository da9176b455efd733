import Mathlib.Order.Lattice
import Mathlib.Algebra.BigOperators.Group.List.Basic

/-!
# Merging keyed lists by a cursor

A list whose keys strictly increase is read by one cursor: at each step the
head is taken if it has the step's key, and left where it is otherwise. As long
as the step's key is at most every key that is left, what is taken is what a
search by key would find, and what is left has larger keys.
-/

namespace KeyedMerge

universe u v
variable {α : Type u} {κ : Type v} [LinearOrder κ] (key : α → κ)

def Increasing (l : List α) : Prop := l.Pairwise (fun a b => key a < key b)

/-- No key of the list is below `k`. -/
def From (k : κ) (l : List α) : Prop := ∀ a ∈ l, k ≤ key a

/-- The element with key `k`. -/
def find (k : κ) (l : List α) : Option α := l.find? (fun a => key a = k)

/-- The head, if it has key `k`. -/
def current (k : κ) (l : List α) : Option α := l.head?.filter (fun a => key a = k)

/-- The list without its head, if that has key `k`. -/
def advance (k : κ) : List α → List α
  | [] => []
  | a :: rest => if key a = k then rest else a :: rest

/-- Nothing is lost and nothing is read twice. -/
theorem current_append_advance (k : κ) (l : List α) :
    (current key k l).toList ++ advance key k l = l := by
  cases l with
  | nil => rfl
  | cons a rest =>
    by_cases ha : key a = k
    · simp [current, advance, Option.filter, ha]
    · simp [current, advance, Option.filter, ha]

variable {key} {k : κ} {l : List α}

theorem from_of_head (hl : Increasing key l) (hk : ∀ a ∈ l.head?, k ≤ key a) : From key k l := by
  cases l with
  | nil => exact fun a ha => absurd ha List.not_mem_nil
  | cons a rest =>
    have hka : k ≤ key a := hk a rfl
    intro b hb
    rcases List.mem_cons.mp hb with rfl | hb
    · exact hka
    · exact hka.trans (le_of_lt (List.rel_of_pairwise_cons hl hb))

theorem advance_increasing (hl : Increasing key l) (k : κ) : Increasing key (advance key k l) := by
  rw [← current_append_advance key k l] at hl
  exact (List.pairwise_append.mp hl).2.1

/-- After a step only larger keys are left. -/
theorem lt_of_mem_advance (hl : Increasing key l) (hk : From key k l) {a : α}
    (ha : a ∈ advance key k l) : k < key a := by
  cases l with
  | nil => cases ha
  | cons b rest =>
    have hkb : k ≤ key b := hk b List.mem_cons_self
    rw [advance] at ha
    by_cases hb : key b = k
    · rw [if_pos hb] at ha
      exact hb ▸ List.rel_of_pairwise_cons hl ha
    · have hlt : k < key b := lt_of_le_of_ne hkb (Ne.symm hb)
      rw [if_neg hb] at ha
      rcases List.mem_cons.mp ha with rfl | ha
      · exact hlt
      · exact hlt.trans (List.rel_of_pairwise_cons hl ha)

theorem find_eq_none_of_lt (h : ∀ a ∈ l, k < key a) : find key k l = none := by
  rw [find, List.find?_eq_none]
  intro a ha
  simpa using (ne_of_gt (h a ha))

theorem find_append (k : κ) (l r : List α) :
    find key k (l ++ r) = (find key k l).or (find key k r) := List.find?_append

theorem find_current (k : κ) (l : List α) :
    find key k (current key k l).toList = current key k l := by
  cases l with
  | nil => rfl
  | cons a rest =>
    by_cases ha : key a = k
    · simp [find, current, Option.filter, ha]
    · simp [find, current, Option.filter, ha]

/-- The cursor takes what a search would find. -/
theorem current_eq_find (hl : Increasing key l) (hk : From key k l) :
    current key k l = find key k l := by
  conv_rhs => rw [← current_append_advance key k l]
  rw [find_append, find_current, find_eq_none_of_lt (fun a ha => lt_of_mem_advance hl hk ha),
    Option.or_none]

/-- A step does not disturb the search for other keys. -/
theorem find_advance {k' : κ} (hne : k' ≠ k) (l : List α) :
    find key k' (advance key k l) = find key k' l := by
  cases l with
  | nil => rfl
  | cons a rest =>
    by_cases ha : key a = k
    · simp [find, advance, ha, Ne.symm hne]
    · simp [advance, ha]

theorem find_of_mem (hl : Increasing key l) {a : α} (ha : a ∈ l) : find key (key a) l = some a := by
  induction l with
  | nil => cases ha
  | cons b rest ih =>
    rcases List.mem_cons.mp ha with rfl | hr
    · simp [find]
    · have hne : ¬ key b = key a := ne_of_lt (List.rel_of_pairwise_cons hl hr)
      have hrest := ih (List.pairwise_cons.mp hl).2 hr
      rw [find] at hrest ⊢
      simpa [List.find?_cons, hne] using hrest

theorem mem_of_find {a : α} (h : find key k l = some a) : a ∈ l ∧ key a = k :=
  ⟨List.mem_of_find?_eq_some h, by simpa using List.find?_some h⟩

variable (key) in
theorem mem_keys_iff (k k' : κ) (l : List α) :
    (∃ a ∈ l, key a = k') ↔
      (k' = k ∧ (current key k l).isSome) ∨ ∃ a ∈ advance key k l, key a = k' := by
  cases l with
  | nil => simp [current, advance]
  | cons a rest =>
    by_cases ha : key a = k
    · simp [current, advance, Option.filter, ha, eq_comm]
    · simp [current, advance, Option.filter, ha]

/-- A total over the list is the share of the step and the total over what is left. -/
theorem sum_step {M : Type*} [AddMonoid M] (share : α → M) (k : κ) (l : List α) :
    (l.map share).sum =
      ((current key k l).elim 0 share) + ((advance key k l).map share).sum := by
  conv_lhs => rw [← current_append_advance key k l]
  cases current key k l with
  | none => simp
  | some a => simp

/-- Rows that cover a list by its keys add up to the list's own total. -/
theorem sum_find {β : Type*} {keyOut : β → κ} {M : Type*} [AddMonoid M] (share : α → M)
    {out : List β} (hout : Increasing keyOut out) (hl : Increasing key l)
    (hcover : ∀ a ∈ l, ∃ row ∈ out, keyOut row = key a) :
    (out.map fun row => (find key (keyOut row) l).elim 0 share).sum = (l.map share).sum := by
  induction out generalizing l with
  | nil =>
    cases l with
    | nil => rfl
    | cons a rest =>
      obtain ⟨row, hrow, -⟩ := hcover a List.mem_cons_self
      cases hrow
  | cons row out ih =>
    have hfrom : From key (keyOut row) l := by
      intro a ha
      obtain ⟨row', hrow', hkey⟩ := hcover a ha
      rcases List.mem_cons.mp hrow' with rfl | hmem
      · exact le_of_eq hkey
      · exact hkey ▸ le_of_lt (List.rel_of_pairwise_cons hout hmem)
    have hrest := ih (List.pairwise_cons.mp hout).2 (advance_increasing hl (keyOut row))
      (fun a ha => ?_)
    · have hsame : (out.map fun r => (find key (keyOut r) l).elim 0 share) =
          out.map fun r => (find key (keyOut r) (advance key (keyOut row) l)).elim 0 share := by
        apply List.map_congr_left
        intro r hr
        rw [find_advance (ne_of_gt (List.rel_of_pairwise_cons hout hr))]
      rw [List.map_cons, List.sum_cons, hsame, hrest, ← current_eq_find hl hfrom,
        ← sum_step share (keyOut row) l]
    · have hlt := lt_of_mem_advance hl hfrom ha
      have hmem : a ∈ l := by
        rw [← current_append_advance key (keyOut row) l]
        exact List.mem_append_right _ ha
      obtain ⟨row', hrow', hkey⟩ := hcover a hmem
      rcases List.mem_cons.mp hrow' with rfl | hmem'
      · exact absurd hkey (ne_of_lt hlt)
      · exact ⟨row', hmem', hkey⟩

end KeyedMerge
