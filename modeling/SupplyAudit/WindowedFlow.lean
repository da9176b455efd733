import Mathlib.Algebra.BigOperators.Group.List.Basic
import Mathlib.Algebra.Order.Group.Int
import Mathlib.Algebra.Ring.Int.Defs
import Mathlib.Order.Lattice
import Mathlib.Tactic.Abel

/-!
# Flows over half-open windows

An account changes by dated amounts. The amounts between two dates, the later
one included, are those by which it has changed, so a past value is the present
one with the amounts of the window taken back, and the amounts of two windows
that meet at a date are those of the whole.
-/

namespace WindowedFlow

variable {M : Type*}

/-- Amounts by the block they belong to. -/
abbrev Events (M : Type*) := List (Int × M)

section Sums

variable [AddCommMonoid M]

/-- The amounts after `first` and up to `last`. -/
def windowSum (events : Events M) (first last : Int) : M :=
  ((events.filter fun e => first < e.1 ∧ e.1 ≤ last).map Prod.snd).sum

@[simp] theorem windowSum_nil (first last : Int) : windowSum ([] : Events M) first last = 0 := rfl

theorem windowSum_cons (e : Int × M) (events : Events M) (first last : Int) :
    windowSum (e :: events) first last =
      (if first < e.1 ∧ e.1 ≤ last then e.2 else 0) + windowSum events first last := by
  simp only [windowSum, List.filter_cons, decide_eq_true_eq]
  split
  · rfl
  · rw [zero_add]

theorem windowSum_empty (events : Events M) (first : Int) : windowSum events first first = 0 := by
  induction events with
  | nil => rfl
  | cons e events ih => rw [windowSum_cons, ih, if_neg (by omega), add_zero]

/-- Two windows that meet make one. -/
theorem windowSum_add (events : Events M) {first middle last : Int} (hfirst : first ≤ middle)
    (hlast : middle ≤ last) :
    windowSum events first last = windowSum events first middle + windowSum events middle last := by
  induction events with
  | nil => simp
  | cons e events ih =>
    rw [windowSum_cons, windowSum_cons, windowSum_cons, ih, add_add_add_comm]
    congr 1
    by_cases hlow : first < e.1 ∧ e.1 ≤ middle
    · rw [if_pos hlow, if_pos ⟨hlow.1, by omega⟩, if_neg (by omega), add_zero]
    · rw [if_neg hlow, zero_add]
      by_cases hhigh : middle < e.1 ∧ e.1 ≤ last
      · rw [if_pos hhigh, if_pos ⟨by omega, hhigh.2⟩]
      · rw [if_neg hhigh, if_neg (by omega)]

end Sums

/-! ## Accounts -/

section Accounts

variable [AddCommGroup M]

/-- From block to block the balance takes in the credits of the block and gives out its debits. -/
def Evolves (balance : Int → M) (credits debits : Events M) (start : Int) : Prop :=
  ∀ b, start ≤ b →
    balance (b + 1) = balance b + windowSum credits b (b + 1) - windowSum debits b (b + 1)

variable {balance : Int → M} {credits debits : Events M} {start : Int}

theorem Evolves.later (h : Evolves balance credits debits start) {middle : Int}
    (hmiddle : start ≤ middle) : Evolves balance credits debits middle :=
  fun b hb => h b (hmiddle.trans hb)

theorem Evolves.steps (h : Evolves balance credits debits start) (n : Nat) :
    balance (start + n) = balance start + windowSum credits start (start + n) -
      windowSum debits start (start + n) := by
  induction n with
  | zero =>
    rw [Int.natCast_zero, Int.add_zero, windowSum_empty, windowSum_empty, add_zero, sub_zero]
  | succ n ih =>
    have hcast : start + ((n + 1 : Nat) : Int) = start + n + 1 := by
      push_cast
      omega
    have hmiddle : start ≤ start + (n : Int) := by omega
    have hlast : start + (n : Int) ≤ start + n + 1 := by omega
    rw [hcast, h _ hmiddle, ih, windowSum_add credits hmiddle hlast,
      windowSum_add debits hmiddle hlast]
    abel

/-- Taking back the window gives the balance at its start. -/
theorem Evolves.derive (h : Evolves balance credits debits start) {last : Int}
    (hlast : start ≤ last) :
    balance last - windowSum credits start last + windowSum debits start last =
      balance start := by
  obtain ⟨n, rfl⟩ := Int.le.dest hlast
  rw [h.steps n]
  abel

end Accounts

end WindowedFlow
