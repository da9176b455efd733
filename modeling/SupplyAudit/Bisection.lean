import Mathlib.Data.List.Nodup
import SupplyAudit.KeyedTable

/-!
# Bisection in lock step

A bisection halves a window toward a place where a predicate holds and does not
hold just before. The predicate need not be monotone: every bound that was
moved was moved to a place where it was looked at, and only the two bounds of
the first window can be wrong. Several bisections of a table advance together.
-/

namespace Bisection

structure Window where
  low : Int
  high : Int
  deriving DecidableEq

namespace Window

def isOpen (w : Window) : Prop := w.low < w.high

instance (w : Window) : Decidable w.isOpen := inferInstanceAs (Decidable (w.low < w.high))

def middle (w : Window) : Int := w.low + (w.high - w.low) / 2

/-- The half that an answer at the middle points to. -/
def narrow (w : Window) (present : Bool) : Window :=
  if present then { w with high := w.middle } else { w with low := w.middle + 1 }

/-- One step; a closed window stays. -/
def advance (p : Int → Bool) (w : Window) : Window :=
  if w.isOpen then w.narrow (p w.middle) else w

def width (w : Window) : Nat := (w.high - w.low).toNat

end Window

open Window

variable {p : Int → Bool} {w : Window}

theorem middle_mem (h : w.isOpen) : w.low ≤ w.middle ∧ w.middle < w.high := by
  simp only [isOpen] at h
  simp only [middle]
  omega

theorem advance_closed (h : ¬ w.isOpen) : w.advance p = w := if_neg h

theorem advance_present (h : w.isOpen) (hp : p w.middle = true) :
    w.advance p = { w with high := w.middle } := by
  rw [advance, if_pos h, narrow, if_pos hp]

theorem advance_absent (h : w.isOpen) (hp : p w.middle = false) :
    w.advance p = { w with low := w.middle + 1 } := by
  rw [advance, if_pos h, narrow, hp]
  rfl

theorem width_advance (h : w.isOpen) : (w.advance p).width < w.width := by
  obtain ⟨hlow, hhigh⟩ := middle_mem h
  simp only [isOpen] at h
  cases hp : p w.middle with
  | true =>
    rw [advance_present h hp]
    simp only [width]
    omega
  | false =>
    rw [advance_absent h hp]
    simp only [width]
    omega

/-- As many steps. -/
def settle (p : Int → Bool) : Nat → Window → Window
  | 0, w => w
  | steps + 1, w => settle p steps (w.advance p)

theorem settle_closed (steps : Nat) (h : ¬ w.isOpen) : settle p steps w = w := by
  induction steps with
  | zero => rfl
  | succ steps ih => rw [settle, advance_closed h, ih]

/-- With a step for every place the window closes. -/
theorem settle_closes {steps : Nat} (h : w.width ≤ steps) : ¬ (settle p steps w).isOpen := by
  induction steps generalizing w with
  | zero =>
    simp only [settle, isOpen]
    simp only [width] at h
    omega
  | succ steps ih =>
    rw [settle]
    by_cases hopen : w.isOpen
    · have hless := width_advance (p := p) hopen
      exact ih (by omega)
    · rw [advance_closed hopen, settle_closed steps hopen]
      exact hopen

/-! ## What the bounds say -/

/-- A bound inside the first window was moved there by what was seen. -/
structure Bracketed (p : Int → Bool) (start w : Window) : Prop where
  low_le : start.low ≤ w.low
  le : w.low ≤ w.high
  high_le : w.high ≤ start.high
  low_seen : w.low = start.low ∨ p (w.low - 1) = false
  high_seen : w.high = start.high ∨ p w.high = true

theorem bracketed_start (h : w.low ≤ w.high) : Bracketed p w w :=
  ⟨Int.le_refl _, h, Int.le_refl _, Or.inl rfl, Or.inl rfl⟩

theorem Bracketed.advance {start : Window} (h : Bracketed p start w) :
    Bracketed p start (w.advance p) := by
  by_cases hopen : w.isOpen
  · obtain ⟨hlow, hhigh⟩ := middle_mem hopen
    obtain ⟨hstart, hle, hend, hlowSeen, hhighSeen⟩ := h
    cases hp : p w.middle with
    | true =>
      rw [advance_present hopen hp]
      exact ⟨hstart, hlow, by simp only; omega, hlowSeen, Or.inr hp⟩
    | false =>
      rw [advance_absent hopen hp]
      refine ⟨by simp only; omega, by simp only; omega, hend, Or.inr ?_, hhighSeen⟩
      simpa using hp
  · rwa [advance_closed hopen]

theorem Bracketed.settle {start : Window} (steps : Nat) (h : Bracketed p start w) :
    Bracketed p start (settle p steps w) := by
  induction steps generalizing w with
  | zero => exact h
  | succ steps ih => exact ih h.advance

/-- The places that are looked at as long as nothing is found. -/
def probes : Nat → Window → List Int
  | 0, _ => []
  | steps + 1, w =>
    if w.isOpen then w.middle :: probes steps { w with low := w.middle + 1 } else []

/-- The upper bound moves exactly when one of these places has the property. -/
theorem settle_high_iff (steps : Nat) (w : Window) :
    (settle p steps w).high = w.high ↔ ∀ m ∈ probes steps w, p m = false := by
  induction steps generalizing w with
  | zero => simp [settle, probes]
  | succ steps ih =>
    rw [settle, probes]
    by_cases hopen : w.isOpen
    · obtain ⟨hlow, hhigh⟩ := middle_mem hopen
      rw [if_pos hopen, List.forall_mem_cons]
      cases hp : p w.middle with
      | true =>
        rw [advance_present hopen hp]
        have hbracket : Bracketed p { w with high := w.middle }
            (settle p steps { w with high := w.middle }) :=
          (bracketed_start hlow).settle steps
        have hbelow := hbracket.high_le
        refine iff_of_false (fun h => ?_) fun h => ?_
        · simp only at hbelow
          omega
        · cases h.1
      | false =>
        rw [advance_absent hopen hp]
        have hrest := ih { w with low := w.middle + 1 }
        simp only at hrest
        rw [hrest]
        simp
    · rw [if_neg hopen, advance_closed hopen, settle_closed steps hopen]
      simp

/-- The place where the window closes is one where the property begins. -/
structure Begins (p : Int → Bool) (start : Window) (b : Int) : Prop where
  low_le : start.low ≤ b
  le_high : b ≤ start.high
  holds : p b = true
  fails_before : p (b - 1) = false

/-- A bisection that starts above a place without the property ends where the property begins
exactly when it saw the property at all, or the last place has it. -/
theorem begins_iff {steps : Nat} (hle : w.low ≤ w.high) (hbelow : p (w.low - 1) = false)
    (hsteps : w.width ≤ steps) :
    Begins p w (settle p steps w).low ↔
      p w.high = true ∨ ∃ m ∈ probes steps w, p m = true := by
  have hclosed := settle_closes (p := p) hsteps
  have hbracket := (bracketed_start (p := p) hle).settle steps
  have hmeet : (settle p steps w).low = (settle p steps w).high := by
    have hle' := hbracket.le
    simp only [isOpen] at hclosed
    omega
  have hbefore : p ((settle p steps w).low - 1) = false := by
    obtain hsame | hseen := hbracket.low_seen
    · rw [hsame]
      exact hbelow
    · exact hseen
  have hhigh := settle_high_iff (p := p) steps w
  constructor
  · rintro ⟨-, -, hholds, -⟩
    by_cases htop : (settle p steps w).high = w.high
    · left
      rwa [hmeet, htop] at hholds
    · right
      by_contra hnone
      simp only [not_exists, not_and, Bool.not_eq_true] at hnone
      exact htop (hhigh.mpr hnone)
  · intro h
    refine ⟨hbracket.low_le, hmeet ▸ hbracket.high_le, ?_, hbefore⟩
    rw [hmeet]
    obtain htop | hseen := hbracket.high_seen
    · rw [htop]
      refine h.resolve_right ?_
      rintro ⟨m, hm, hp⟩
      rw [hhigh.mp htop m hm] at hp
      cases hp
    · exact hseen

/-! ## Many windows -/

/-- Setting the selected entries of a table one after the other changes each of them once. -/
theorem foldl_set_eq_map {κ β : Type*} [DecidableEq κ] {table : List (κ × β)}
    (h : (table.map Prod.fst).Nodup) (selected : κ × β → Bool) (change : κ × β → β) :
    (table.filter selected).foldl (fun t e => KeyedTable.set t e.1 (change e)) table =
      table.map fun e => if selected e then (e.1, change e) else e := by
  have hset : ∀ (front : List (κ × β)) (e : κ × β) (rest : List (κ × β)) (value : β),
      e.1 ∉ front.map Prod.fst →
        KeyedTable.set (front ++ e :: rest) e.1 value = front ++ (e.1, value) :: rest := by
    intro front e rest value hnot
    induction front with
    | nil => simp [KeyedTable.set]
    | cons first front ih =>
      rw [List.map_cons, List.mem_cons, not_or] at hnot
      rw [List.cons_append, KeyedTable.set, if_neg (Ne.symm hnot.1), ih hnot.2, List.cons_append]
  have hrun : ∀ (front rest : List (κ × β)), ((front ++ rest).map Prod.fst).Nodup →
      (rest.filter selected).foldl (fun t e => KeyedTable.set t e.1 (change e)) (front ++ rest) =
        front ++ rest.map fun e => if selected e then (e.1, change e) else e := by
    intro front rest hnodup
    induction rest generalizing front with
    | nil => rfl
    | cons e rest ih =>
      have hnot : e.1 ∉ front.map Prod.fst := by
        rw [List.map_append, List.map_cons] at hnodup
        intro hin
        exact (List.nodup_append.mp hnodup).2.2 _ hin _ List.mem_cons_self rfl
      cases hsel : selected e with
      | false =>
        rw [List.filter_cons_of_neg (by simp [hsel]), List.map_cons, hsel]
        have hnext := ih (front ++ [e]) (by simpa using hnodup)
        simpa using hnext
      | true =>
        rw [List.filter_cons_of_pos hsel, List.foldl_cons, hset front e rest _ hnot,
          List.map_cons, hsel]
        have hnext := ih (front ++ [(e.1, change e)]) (by simpa using hnodup)
        simpa using hnext
  exact hrun [] table h

end Bisection
