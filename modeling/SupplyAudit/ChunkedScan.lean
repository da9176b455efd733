import SupplyAudit.FallibleScan

/-!
# Scans fetched in chunks

A sequence over the integers is read in chunks of a chosen size, and a step may
stop the scan at any entry. As long as the chunks come from one sequence, the
size of a chunk decides nothing but when a scan that fails does so.
-/

namespace ChunkedScan

open FallibleScan

universe u
variable {ε σ β : Type u}

/-- The entries of `count` positions in a row, if they are all there. -/
def stretch (entry : Int → Option β) (first : Int) : Nat → Option (List β)
  | 0 => some []
  | count + 1 =>
    (entry first).bind fun b => (stretch entry (first + 1) count).map fun rest => b :: rest

/-- The entries that are there among `count` positions in a row. -/
def present (entry : Int → Option β) (first : Int) : Nat → List β
  | 0 => []
  | count + 1 => (entry first).toList ++ present entry (first + 1) count

variable {entry : Int → Option β}

theorem stretch_add (first : Int) (m n : Nat) :
    stretch entry first (m + n) = (stretch entry first m).bind fun front =>
      (stretch entry (first + m) n).map fun rest => front ++ rest := by
  induction m generalizing first with
  | zero => simp [stretch]
  | succ m ih =>
    have hnext : first + 1 + (m : Int) = first + (m + 1 : Nat) := by
      push_cast
      omega
    rw [Nat.add_right_comm, stretch, stretch, ih, hnext]
    cases entry first with
    | none => rfl
    | some b =>
      cases stretch entry (first + 1) m with
      | none => rfl
      | some front =>
        cases stretch entry (first + (m + 1 : Nat)) n with
        | none => rfl
        | some rest => rfl

theorem length_present_le (first : Int) (count : Nat) :
    (present entry first count).length ≤ count := by
  induction count generalizing first with
  | zero => exact le_refl _
  | succ count ih =>
    have hrest := ih (first + 1)
    rw [present, List.length_append]
    cases entry first with
    | none =>
      simp only [Option.toList_none, List.length_nil]
      omega
    | some b =>
      simp only [Option.toList_some, List.length_singleton]
      omega

/-- All entries are there when as many are there as there are positions. -/
theorem stretch_eq_present {first : Int} {count : Nat} :
    stretch entry first count =
      if (present entry first count).length = count then some (present entry first count)
      else none := by
  induction count generalizing first with
  | zero => rfl
  | succ count ih =>
    have hle : (present entry (first + 1) count).length ≤ count := length_present_le ..
    cases hfirst : entry first with
    | none =>
      have hfew : ¬ (present entry first (count + 1)).length = count + 1 := by
        rw [present, hfirst, Option.toList_none, List.nil_append]
        omega
      rw [if_neg hfew, stretch, hfirst]
      rfl
    | some b =>
      rw [stretch, present, hfirst, ih]
      simp only [Option.bind_some, Option.toList_some, List.singleton_append, List.length_cons,
        Nat.add_right_cancel_iff]
      split <;> rfl

/-- A fetched range is that of the sequence; a range with a gap may also be refused. -/
def Serves (fetch : Int → Int → Except ε (List β)) (entry : Int → Option β) : Prop :=
  ∀ first last, first ≤ last →
    fetch first last = .ok (present entry first (last - first + 1).toNat) ∨
      (∃ e, fetch first last = .error e) ∧
        stretch entry first (last - first + 1).toNat = none

variable (fetch : Int → Int → Except ε (List β)) (short : Int → Int → Nat → ε)
  (step : σ → β → Except ε σ) (position : σ → Int) (stop size : Int)

/-- Fetch and scan chunk after chunk; `fuel` bounds their number. -/
def scan : Nat → σ → Except ε σ
  | 0, st => .ok st
  | fuel + 1, st =>
    if position st ≤ stop then do
      let last := min stop (position st + size - 1)
      let entries ← fetch (position st) last
      if (entries.length : Int) = last - position st + 1 then do
        let next ← entries.foldlM step st
        scan fuel next
      else .error (short (position st) last entries.length)
    else .ok st

variable {fetch short step position stop size}

/-- A step that succeeds moves on by one position. -/
def Advances (step : σ → β → Except ε σ) (position : σ → Int) : Prop :=
  ∀ st b next, step st b = .ok next → position next = position st + 1

theorem position_foldlM (h : Advances step position) {l : List β} {st next : σ}
    (hl : l.foldlM step st = .ok next) : position next = position st + l.length := by
  induction l generalizing st with
  | nil =>
    cases hl
    simp
  | cons b l ih =>
    rw [List.foldlM_cons, bind_eq_ok] at hl
    obtain ⟨middle, hb, hrest⟩ := hl
    have hfirst := h st b middle hb
    have hlast := ih hrest
    rw [List.length_cons]
    push_cast
    omega

theorem toOption_bind {α γ : Type u} (x : Except ε α) (f : α → Except ε γ) :
    (x >>= f).toOption = x.toOption.bind fun a => (f a).toOption := by
  cases x <;> rfl

/-- The scan of a whole stretch. -/
def whole (entry : Int → Option β) (step : σ → β → Except ε σ) (first : Int) (count : Nat)
    (st : σ) : Option σ :=
  (stretch entry first count).bind fun l => (l.foldlM step st).toOption

theorem whole_add (first : Int) (m n : Nat) (st : σ) :
    whole entry step first (m + n) st =
      (whole entry step first m st).bind fun next =>
        whole entry step (first + m) n next := by
  unfold whole
  rw [stretch_add]
  cases stretch entry first m with
  | none => rfl
  | some front =>
    simp only [Option.bind_some]
    cases hrest : stretch entry (first + m) n with
    | none => cases (front.foldlM step st).toOption <;> rfl
    | some rest =>
      simp only [Option.map_some, Option.bind_some, List.foldlM_append, toOption_bind]

/-- What the chunks of any size make of a sequence is the scan of the whole stretch. -/
theorem scan_toOption (hserves : Serves fetch entry) (hstep : Advances step position)
    (hsize : 1 ≤ size) {fuel : Nat} {st : σ} (hfuel : (stop - position st + 1).toNat ≤ fuel) :
    (scan fetch short step position stop size fuel st).toOption =
      whole entry step (position st) (stop - position st + 1).toNat st := by
  induction fuel generalizing st with
  | zero =>
    rw [Nat.le_zero.mp hfuel]
    rfl
  | succ fuel ih =>
    rw [scan]
    by_cases hmore : position st ≤ stop
    · rw [if_pos hmore]
      obtain ⟨last, hlast⟩ : ∃ last, last = min stop (position st + size - 1) := ⟨_, rfl⟩
      simp only [← hlast]
      have hle : position st ≤ last := by omega
      have hsplit : (stop - position st + 1).toNat =
          (last - position st + 1).toNat + (stop - last).toNat := by omega
      rw [hsplit, whole_add]
      obtain hok | ⟨⟨e, herr⟩, hgap⟩ := hserves (position st) last hle
      · rw [hok, bind_ok]
        unfold whole
        rw [stretch_eq_present]
        by_cases hfull :
            (present entry (position st) (last - position st + 1).toNat).length =
              (last - position st + 1).toNat
        · rw [if_pos (by omega), if_pos hfull, toOption_bind, Option.bind_some]
          cases hchunk : (present entry (position st)
              (last - position st + 1).toNat).foldlM step st with
          | error e => rfl
          | ok next =>
            have hnext := position_foldlM hstep hchunk
            have hposition : position next = last + 1 := by omega
            have hless : (stop - position next + 1).toNat ≤ fuel := by omega
            have hrest := ih hless
            simp only [Except.toOption, Option.bind_some]
            rw [show (position st + ((last - position st + 1).toNat : Int)) = position next by omega,
              show (stop - last).toNat = (stop - position next + 1).toNat by omega]
            exact hrest
        · rw [if_neg (by omega), if_neg hfull]
          rfl
      · unfold whole
        rw [herr, hgap]
        rfl
    · rw [if_neg hmore, show (stop - position st + 1).toNat = 0 by omega]
      rfl

theorem whole_succ (first : Int) (count : Nat) (st : σ) :
    whole entry step first (count + 1) st =
      (entry first).bind fun b => (step st b).toOption.bind fun next =>
        whole entry step (first + 1) count next := by
  have hone : whole entry step first 1 st =
      (entry first).bind fun b => (step st b).toOption := by
    unfold whole
    rw [stretch]
    cases entry first with
    | none => rfl
    | some b =>
      cases hb : step st b with
      | error e => simp [stretch, hb, Except.toOption]
      | ok next => simp [stretch, hb, Except.toOption]
  rw [Nat.add_comm, whole_add, hone]
  cases entry first with
  | none => rfl
  | some b => rfl

/-- What every step keeps holds where a whole scan ends. -/
theorem whole_invariant (Inv : Int → σ → Prop)
    (hstep : ∀ n st b next, Inv n st → entry n = some b → step st b = .ok next → Inv (n + 1) next)
    {first : Int} {count : Nat} {st last : σ} (h0 : Inv first st)
    (h : whole entry step first count st = some last) : Inv (first + count) last := by
  induction count generalizing first st with
  | zero =>
    cases h
    simpa using h0
  | succ count ih =>
    rw [whole_succ, Option.bind_eq_some_iff] at h
    obtain ⟨b, hb, h⟩ := h
    obtain ⟨next, hnext, hrest⟩ := Option.bind_eq_some_iff.mp h
    cases hrun : step st b with
    | error e =>
      rw [hrun] at hnext
      cases hnext
    | ok next' =>
      rw [hrun] at hnext
      cases hnext
      have hlast := ih (hstep first st b next h0 hb hrun) hrest
      have hcast : first + 1 + (count : Int) = first + (count + 1 : Nat) := by
        push_cast
        omega
      rwa [hcast] at hlast

end ChunkedScan
