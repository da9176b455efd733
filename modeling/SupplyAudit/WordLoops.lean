import SupplyAudit.FallibleScan

/-!
# Counting loops over 64-bit words

A loop counts a word up to a last value that it includes. The counter wraps, so
the comparison alone does not end the loop when the last value is the greatest
word. The numbers that a loop visits do not depend on what its body computes.
-/

namespace WordLoops

open FallibleScan

variable {ε σ : Type}

/-- The greatest word, `^uint64(0)`. -/
def lastWord : UInt64 := 18446744073709551615

/-- `for n := first; n <= last; n += stride`, with a body that may fail or not end
and a test after the body that breaks the loop. -/
structure Loop (ε σ : Type) where
  last : UInt64
  stride : UInt64
  breaks : UInt64 → Bool
  body : σ → UInt64 → Except ε σ → Prop

variable {loop : Loop ε σ}

/-- The loop, entered at a number and a state, visits these numbers and ends. -/
inductive Ends (loop : Loop ε σ) : UInt64 → σ → List UInt64 → Except ε σ → Prop where
  | exit (n : UInt64) (s : σ) (hlast : ¬ n ≤ loop.last) : Ends loop n s [] (.ok s)
  | fail (n : UInt64) (s : σ) (e : ε) (hlast : n ≤ loop.last) (hbody : loop.body s n (.error e)) :
      Ends loop n s [n] (.error e)
  | stop (n : UInt64) (s next : σ) (hlast : n ≤ loop.last) (hbody : loop.body s n (.ok next))
      (hbreaks : loop.breaks n = true) : Ends loop n s [n] (.ok next)
  | step (n : UInt64) (s next : σ) (visited : List UInt64) (r : Except ε σ)
      (hlast : n ≤ loop.last) (hbody : loop.body s n (.ok next)) (hbreaks : loop.breaks n = false)
      (rest : Ends loop (n + loop.stride) next visited r) : Ends loop n s (n :: visited) r

/-- The numbers that the loop visits from one on when its bodies complete. -/
inductive Counts (loop : Loop ε σ) : UInt64 → List UInt64 → Prop where
  | exit (n : UInt64) (hlast : ¬ n ≤ loop.last) : Counts loop n []
  | stop (n : UInt64) (hlast : n ≤ loop.last) (hbreaks : loop.breaks n = true) : Counts loop n [n]
  | step (n : UInt64) (visited : List UInt64) (hlast : n ≤ loop.last)
      (hbreaks : loop.breaks n = false) (rest : Counts loop (n + loop.stride) visited) :
      Counts loop n (n :: visited)

theorem Counts.unique {n : UInt64} {visited visited' : List UInt64} (h : Counts loop n visited)
    (h' : Counts loop n visited') : visited = visited' := by
  induction h generalizing visited' with
  | exit n hlast =>
    cases h' with
    | exit => rfl
    | stop _ hin => exact absurd hin hlast
    | step _ _ hin => exact absurd hin hlast
  | stop n hlast hbreaks =>
    cases h' with
    | exit _ hout => exact absurd hlast hout
    | stop => rfl
    | step _ _ _ hgoes => rw [hbreaks] at hgoes; cases hgoes
  | step n visited hlast hbreaks _ ih =>
    cases h' with
    | exit _ hout => exact absurd hlast hout
    | stop _ _ hstops => rw [hbreaks] at hstops; cases hstops
    | step _ _ _ _ rest' => rw [ih rest']

/-- A loop that completes has visited what it counts. -/
theorem Ends.counts {n : UInt64} {s s' : σ} {visited : List UInt64}
    (h : Ends loop n s visited (.ok s')) : Counts loop n visited := by
  generalize hr : Except.ok s' = r at h
  induction h with
  | exit n s hlast => exact .exit n hlast
  | fail => cases hr
  | stop n s next hlast _ hbreaks => exact .stop n hlast hbreaks
  | step n s next visited r hlast _ hbreaks _ ih => exact .step n visited hlast hbreaks (ih hr)

/-- A loop that completes has completed the body of every number it visited. -/
theorem Ends.body_of_mem {n m : UInt64} {s s' : σ} {visited : List UInt64}
    (h : Ends loop n s visited (.ok s')) (hm : m ∈ visited) :
    ∃ t t', loop.body t m (.ok t') := by
  generalize hr : Except.ok s' = r at h
  induction h with
  | exit => cases hm
  | fail => cases hr
  | stop n s next _ hbody =>
    rw [List.mem_singleton.mp hm]
    exact ⟨s, next, hbody⟩
  | step n s next visited r _ hbody _ _ ih =>
    rcases List.mem_cons.mp hm with rfl | hm
    · exact ⟨s, next, hbody⟩
    · exact ih hm hr

/-- What the bodies keep at the number they are given holds when the loop completes. -/
theorem Ends.invariant (Inv : UInt64 → σ → Prop) (Post : σ → Prop)
    (hnext : ∀ n s s', Inv n s → loop.body s n (.ok s') → loop.breaks n = false →
      Inv (n + loop.stride) s')
    (hexit : ∀ n s, Inv n s → Post s)
    (hstop : ∀ n s s', Inv n s → loop.body s n (.ok s') → loop.breaks n = true → Post s')
    {n : UInt64} {s s' : σ} {visited : List UInt64} (h0 : Inv n s)
    (h : Ends loop n s visited (.ok s')) : Post s' := by
  generalize hr : Except.ok s' = r at h
  induction h with
  | exit n s =>
    cases hr
    exact hexit n _ h0
  | fail => cases hr
  | stop n s next _ hbody hbreaks =>
    cases hr
    exact hstop n s _ h0 hbody hbreaks
  | step n s next visited r _ hbody hbreaks _ ih => exact ih (hnext n s next h0 hbody hbreaks) hr

/-- A loop completes when its bodies do, whatever state they meet. -/
theorem Counts.ends {n : UInt64} {visited : List UInt64} (h : Counts loop n visited)
    (hbody : ∀ m ∈ visited, ∀ s, ∃ s', loop.body s m (.ok s')) (s : σ) :
    ∃ s', Ends loop n s visited (.ok s') := by
  induction h generalizing s with
  | exit n hlast => exact ⟨s, .exit n s hlast⟩
  | stop n hlast hbreaks =>
    obtain ⟨next, hnext⟩ := hbody n List.mem_cons_self s
    exact ⟨next, .stop n s next hlast hnext hbreaks⟩
  | step n visited hlast hbreaks _ ih =>
    obtain ⟨next, hnext⟩ := hbody n List.mem_cons_self s
    obtain ⟨s', hs'⟩ := ih (fun m hm => hbody m (List.mem_cons_of_mem n hm)) next
    exact ⟨s', .step n s next visited _ hlast hnext hbreaks hs'⟩

/-- A loop up to the greatest word that never breaks does not complete. -/
theorem not_counts_of_endless (hlast : loop.last = lastWord)
    (hbreaks : ∀ n, loop.breaks n = false) {n : UInt64} {visited : List UInt64} :
    ¬ Counts loop n visited := by
  intro h
  induction h with
  | exit n hout =>
    refine hout ?_
    rw [hlast, UInt64.le_iff_toNat_le]
    exact Nat.le_of_lt_succ n.toNat_lt
  | stop n _ hstops => rw [hbreaks] at hstops; cases hstops
  | step _ _ _ _ _ ih => exact ih

/-- It has no end at all when no body fails. -/
theorem not_ends_of_endless (hlast : loop.last = lastWord) (hbreaks : ∀ n, loop.breaks n = false)
    (hbody : ∀ s n e, ¬ loop.body s n (.error e)) {n : UInt64} {s : σ} {visited : List UInt64}
    {r : Except ε σ} : ¬ Ends loop n s visited r := by
  intro h
  induction h with
  | exit n s hout =>
    refine hout ?_
    rw [hlast, UInt64.le_iff_toNat_le]
    exact Nat.le_of_lt_succ n.toNat_lt
  | fail n s e _ hfails => exact hbody s n e hfails
  | stop n _ _ _ _ hstops => rw [hbreaks] at hstops; cases hstops
  | step _ _ _ _ _ _ _ _ _ ih => exact ih

/-! ## Loops by one -/

/-- Every number from one to another, once and in order. -/
def numbers (first last : UInt64) : List UInt64 :=
  (List.range' first.toNat (last.toNat + 1 - first.toNat)).map UInt64.ofNat

theorem mem_numbers {first last n : UInt64} : n ∈ numbers first last ↔ first ≤ n ∧ n ≤ last := by
  simp only [numbers, List.mem_map, List.mem_range'_1, UInt64.le_iff_toNat_le]
  constructor
  · rintro ⟨k, ⟨hle, hlt⟩, rfl⟩
    have hlast := last.toNat_lt
    have hsize : UInt64.size = 2 ^ 64 := rfl
    rw [UInt64.toNat_ofNat_of_lt' (by omega)]
    omega
  · rintro ⟨hfirst, hlast⟩
    exact ⟨n.toNat, by omega, UInt64.ofNat_toNat⟩

theorem toNat_succ {n : UInt64} (h : n ≠ lastWord) : (n + 1).toNat = n.toNat + 1 := by
  have hne : n.toNat ≠ lastWord.toNat := fun heq => h (UInt64.toNat_inj.mp heq)
  have hlt := n.toNat_lt
  have hlast : lastWord.toNat = 2 ^ 64 - 1 := rfl
  have hone : (1 : UInt64).toNat = 1 := rfl
  rw [UInt64.toNat_add, hone]
  omega

theorem ne_lastWord_of_lt {n m : UInt64} (h : n < m) : n ≠ lastWord := by
  rintro rfl
  have hlt := UInt64.lt_iff_toNat_lt.mp h
  have hm := m.toNat_lt
  have hlast : lastWord.toNat = 2 ^ 64 - 1 := rfl
  omega

theorem succ_le_of_lt {n m : UInt64} (h : n < m) : n + 1 ≤ m := by
  have hlt := UInt64.lt_iff_toNat_lt.mp h
  rw [UInt64.le_iff_toNat_le, toNat_succ (ne_lastWord_of_lt h)]
  omega

theorem lt_of_mem {start last n : UInt64} (h : start < last)
    (hn : n ∈ numbers (start + 1) last) : start < n := by
  have hle := UInt64.le_iff_toNat_le.mp (mem_numbers.mp hn).1
  rw [toNat_succ (ne_lastWord_of_lt h)] at hle
  exact UInt64.lt_iff_toNat_lt.mpr hle

/-- The numbers up to one and from its successor on. -/
theorem numbers_append {first middle last : UInt64} (hfirst : first ≤ middle)
    (hmiddle : middle < last) :
    numbers first middle ++ numbers (middle + 1) last = numbers first last := by
  have hle := UInt64.le_iff_toNat_le.mp hfirst
  have hlt := UInt64.lt_iff_toNat_lt.mp hmiddle
  have hstart : first.toNat + (middle.toNat + 1 - first.toNat) = middle.toNat + 1 := by omega
  have hcount : middle.toNat + 1 - first.toNat + (last.toNat + 1 - (middle.toNat + 1)) =
      last.toNat + 1 - first.toNat := by omega
  rw [numbers, numbers, numbers, toNat_succ (ne_lastWord_of_lt hmiddle), ← List.map_append,
    ← hcount, ← List.range'_append_1, hstart]

/-- The numbers from one up to another, by a stride. -/
def numbersBy (stride first last : UInt64) : List UInt64 :=
  (List.range' first.toNat ((last.toNat - first.toNat) / stride.toNat + 1) stride.toNat).map
    UInt64.ofNat

theorem numbersBy_one {first last : UInt64} (h : first ≤ last) :
    numbersBy 1 first last = numbers first last := by
  have hle := UInt64.le_iff_toNat_le.mp h
  have hone : (1 : UInt64).toNat = 1 := rfl
  have hcount : last.toNat - first.toNat + 1 = last.toNat + 1 - first.toNat := by omega
  rw [numbersBy, numbers, hone, Nat.div_one, hcount]

theorem last_mem_numbersBy {stride first last : UInt64} (hle : first ≤ last)
    (hdvd : stride.toNat ∣ last.toNat - first.toNat) : last ∈ numbersBy stride first last := by
  have hlast := UInt64.le_iff_toNat_le.mp hle
  refine List.mem_map.mpr ⟨last.toNat, ?_, UInt64.ofNat_toNat⟩
  refine List.mem_range'.mpr ⟨(last.toNat - first.toNat) / stride.toNat, Nat.lt_succ_self _, ?_⟩
  rw [Nat.mul_div_cancel' hdvd]
  omega

theorem toNat_add_of_lt {n stride : UInt64} (h : n.toNat + stride.toNat < 2 ^ 64) :
    (n + stride).toNat = n.toNat + stride.toNat := by
  rw [UInt64.toNat_add, Nat.mod_eq_of_lt h]

/-- A loop that breaks only at the last number of its range, and before its counter
would wrap, visits its range once. -/
theorem counts_numbersBy (hpos : 0 < loop.stride.toNat)
    (hend : ∀ n ≤ loop.last, loop.breaks n = true → loop.last.toNat < n.toNat + loop.stride.toNat)
    (hwrap : ∀ n ≤ loop.last, loop.breaks n = false → n.toNat + loop.stride.toNat < 2 ^ 64)
    {first : UInt64} (hfirst : first ≤ loop.last) :
    Counts loop first (numbersBy loop.stride first loop.last) := by
  obtain ⟨k, hk⟩ : ∃ k, (loop.last.toNat - first.toNat) / loop.stride.toNat = k := ⟨_, rfl⟩
  induction k generalizing first with
  | zero =>
    have hle := UInt64.le_iff_toNat_le.mp hfirst
    have hlast : loop.last.toNat < first.toNat + loop.stride.toNat := by
      have hlt := (Nat.div_eq_zero_iff_lt hpos).mp hk
      omega
    rw [numbersBy, hk, List.range'_one, List.map_singleton, UInt64.ofNat_toNat]
    cases hb : loop.breaks first with
    | true => exact .stop _ hfirst hb
    | false =>
      refine .step _ _ hfirst hb (.exit _ ?_)
      rw [UInt64.not_le, UInt64.lt_iff_toNat_lt, toNat_add_of_lt (hwrap first hfirst hb)]
      exact hlast
  | succ k ih =>
    have hstride : loop.stride.toNat ≤ loop.last.toNat - first.toNat := by
      by_contra hlt
      rw [Nat.div_eq_of_lt (Nat.lt_of_not_le hlt)] at hk
      cases hk
    have hnot : loop.breaks first = false := by
      rw [← Bool.not_eq_true]
      intro htrue
      have hlt := hend first hfirst htrue
      omega
    have hnext := toNat_add_of_lt (hwrap first hfirst hnot)
    have hcount : (loop.last.toNat - (first + loop.stride).toNat) / loop.stride.toNat = k := by
      have hdiv := Nat.div_eq_sub_div hpos hstride
      rw [hk] at hdiv
      rw [hnext, Nat.sub_add_eq]
      omega
    have hrest := ih (UInt64.le_iff_toNat_le.mpr (by omega)) hcount
    rw [numbersBy, hcount] at hrest
    rw [numbersBy, hk, List.range'_succ, List.map_cons, UInt64.ofNat_toNat, ← hnext]
    exact .step _ _ hfirst hnot hrest

/-- A loop by one that breaks at most at the greatest word visits its range once,
unless the range reaches that word and the loop does not break there. -/
theorem counts_numbers (hstride : loop.stride = 1)
    (hbreaks : ∀ n, loop.breaks n = true → n = lastWord)
    (hlast : loop.last ≠ lastWord ∨ loop.breaks lastWord = true) {first : UInt64}
    (hfirst : first ≤ loop.last) : Counts loop first (numbers first loop.last) := by
  have hone : loop.stride.toNat = 1 := congrArg UInt64.toNat hstride
  rw [← numbersBy_one hfirst, ← hstride]
  refine counts_numbersBy (by omega) (fun n _ hb => ?_) (fun n hn hb => ?_) hfirst
  · have hmax : n.toNat = 2 ^ 64 - 1 := congrArg UInt64.toNat (hbreaks n hb)
    have hlt := loop.last.toNat_lt
    omega
  · have hne : n ≠ lastWord := by
      rintro rfl
      rcases hlast with hne | htrue
      · have hle := UInt64.le_iff_toNat_le.mp hn
        have hlt := loop.last.toNat_lt
        have hmax : lastWord.toNat = 2 ^ 64 - 1 := rfl
        exact hne (UInt64.toNat_inj.mp (by omega))
      · rw [htrue] at hb
        cases hb
    have hnext := toNat_succ hne
    have hlt := (n + 1).toNat_lt
    omega

theorem flatMap_range' (stride start k : Nat) :
    (List.range' (start + (stride - 1)) k stride).flatMap (fun j =>
      List.range' (j - (stride - 1)) stride) = List.range' start (stride * k) := by
  induction k generalizing start with
  | zero => rfl
  | succ k ih =>
    have hnext : start + (stride - 1) + stride = start + stride + (stride - 1) := by omega
    rw [List.range'_succ, List.flatMap_cons, hnext, ih, Nat.add_sub_cancel, List.range'_append_1,
      Nat.mul_succ, Nat.add_comm]

/-- The groups that end at every number of a stride cover a range once. -/
theorem flatMap_numbers {stride first last : UInt64} (hpos : 0 < stride.toNat)
    (hfirst : stride.toNat - 1 ≤ first.toNat) (hle : first ≤ last)
    (hdvd : stride.toNat ∣ last.toNat - first.toNat) :
    (numbersBy stride first last).flatMap (fun n => numbers (n - (stride - 1)) n) =
      numbers (first - (stride - 1)) last := by
  have hlast := UInt64.le_iff_toNat_le.mp hle
  have hone : (1 : UInt64).toNat = 1 := rfl
  have hbelow : (stride - 1).toNat = stride.toNat - 1 := by
    rw [UInt64.toNat_sub_of_le _ _ (UInt64.le_iff_toNat_le.mpr (by omega)), hone]
  have hgroup (n : UInt64) (hn : stride.toNat - 1 ≤ n.toNat) :
      numbers (n - (stride - 1)) n =
        (List.range' (n.toNat - (stride.toNat - 1)) stride.toNat).map UInt64.ofNat := by
    have hcount : n.toNat + 1 - (n.toNat - (stride.toNat - 1)) = stride.toNat := by omega
    rw [numbers, UInt64.toNat_sub_of_le _ _ (UInt64.le_iff_toNat_le.mpr (by omega)), hbelow, hcount]
  obtain ⟨k, hk⟩ := hdvd
  have hquotient : (last.toNat - first.toNat) / stride.toNat = k := by
    rw [hk, Nat.mul_div_cancel_left k hpos]
  have hrange := flatMap_range' stride.toNat (first.toNat - (stride.toNat - 1)) (k + 1)
  rw [Nat.sub_add_cancel hfirst] at hrange
  have htotal : last.toNat + 1 - (first.toNat - (stride.toNat - 1)) = stride.toNat * (k + 1) := by
    rw [Nat.mul_succ, ← hk]
    omega
  rw [numbersBy, hquotient, numbers, UInt64.toNat_sub_of_le _ _
    (UInt64.le_iff_toNat_le.mpr (by omega)), hbelow, htotal, ← hrange, List.map_flatMap,
    List.flatMap_map]
  refine List.flatMap_congr fun j hj => ?_
  obtain ⟨i, hi, rfl⟩ := List.mem_range'.mp hj
  have hsize : UInt64.size = 2 ^ 64 := rfl
  have hlt := last.toNat_lt
  have hbound : stride.toNat * i ≤ stride.toNat * k :=
    Nat.mul_le_mul_left _ (Nat.le_of_lt_succ hi)
  have hword : (UInt64.ofNat (first.toNat + stride.toNat * i)).toNat =
      first.toNat + stride.toNat * i := UInt64.toNat_ofNat_of_lt' (by omega)
  rw [hgroup _ (by omega), hword]

/-! ## Bodies that are functions -/

/-- A loop by one over a body that always ends. -/
def Loop.byOne (last : UInt64) (breaks : UInt64 → Bool) (step : σ → UInt64 → Except ε σ) :
    Loop ε σ where
  last := last
  stride := 1
  breaks := breaks
  body s n r := step s n = r

variable {last : UInt64} {breaks : UInt64 → Bool} {step : σ → UInt64 → Except ε σ}

/-- A completed loop is a scan of the numbers it counts. -/
theorem ends_iff_foldlM {n : UInt64} {s s' : σ} {visited : List UInt64} :
    Ends (.byOne last breaks step) n s visited (.ok s') ↔
      Counts (.byOne last breaks step) n visited ∧ visited.foldlM step s = .ok s' := by
  constructor
  · intro h
    refine ⟨h.counts, ?_⟩
    generalize hr : Except.ok s' = r at h ⊢
    induction h with
    | exit => rfl
    | fail => cases hr
    | stop n s next _ hbody =>
      rw [List.foldlM_cons, hbody]
      rfl
    | step n s next visited r _ hbody _ _ ih =>
      rw [List.foldlM_cons, hbody]
      exact ih hr
  · rintro ⟨hcounts, hscan⟩
    induction hcounts generalizing s with
    | exit n hlast =>
      cases hscan
      exact .exit n _ hlast
    | stop n hlast hbreaks =>
      rw [List.foldlM_cons, bind_eq_ok] at hscan
      obtain ⟨next, hnext, hscan⟩ := hscan
      cases hscan
      exact .stop n s _ hlast hnext hbreaks
    | step n visited hlast hbreaks _ ih =>
      rw [List.foldlM_cons, bind_eq_ok] at hscan
      obtain ⟨next, hnext, hscan⟩ := hscan
      exact .step n s next visited _ hlast hnext hbreaks (ih hscan)

end WordLoops
