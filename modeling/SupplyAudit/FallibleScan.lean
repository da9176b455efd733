import Mathlib.Data.List.Forall2
import Mathlib.Algebra.BigOperators.Group.List.Basic
import Mathlib.Algebra.Ring.Nat

/-!
# Scans that may stop at a record

A scan goes through a list of records, and each record either stops the whole
scan with an error or contributes to an accumulator. When the verdict on a
record does not look at the accumulator, the scan is the list of verdicts
followed by a pure fold, and facts about whole scans reduce to facts about
single records.
-/

namespace FallibleScan

universe u
variable {ε σ α β : Type u}

@[simp] theorem bind_ok (a : α) (f : α → Except ε β) : (Except.ok a >>= f) = f a := rfl

@[simp] theorem bind_error (e : ε) (f : α → Except ε β) :
    ((Except.error e : Except ε α) >>= f) = .error e := rfl

@[simp] theorem pure_eq_ok (a : α) : (pure a : Except ε α) = .ok a := rfl

/-- A sequence of two computations succeeds when both do. -/
theorem bind_eq_ok {x : Except ε α} {f : α → Except ε β} {b : β} :
    (x >>= f) = .ok b ↔ ∃ a, x = .ok a ∧ f a = .ok b := by
  cases x with
  | error e => simp
  | ok a => simp

/-- A check in front of a computation. -/
theorem guard_eq_ok {c : Prop} [Decidable c] {e : ε} {x : Except ε α} {a : α} :
    (if c then .error e else x) = .ok a ↔ ¬ c ∧ x = .ok a := by
  by_cases hc : c
  · simp [hc]
  · simp [hc]

theorem mapError_eq_ok {ε' : Type u} {r : Except ε α} {f : ε → ε'} {a : α} :
    r.mapError f = .ok a ↔ r = .ok a := by
  cases r <;> simp [Except.mapError]

/-- An error that no part raises is not raised by a sequence. -/
theorem bind_ne_error {x : Except ε α} {f : α → Except ε β} {e : ε} (hx : x ≠ .error e)
    (hf : ∀ a, f a ≠ .error e) : (x >>= f) ≠ .error e := by
  cases x with
  | error e' => exact fun h => hx (congrArg Except.error (Except.error.inj h))
  | ok a => exact hf a

/-- What each step keeps about the records read so far holds of a whole scan. -/
theorem foldlM_invariant (Inv : List α → σ → Prop) {step : σ → α → Except ε σ}
    (hstep : ∀ done s a s', Inv done s → step s a = .ok s' → Inv (done ++ [a]) s')
    {l : List α} (done : List α) {s s' : σ} (h0 : Inv done s) (h : l.foldlM step s = .ok s') :
    Inv (done ++ l) s' := by
  induction l generalizing done s with
  | nil =>
    cases h
    rwa [List.append_nil]
  | cons a l ih =>
    rw [List.foldlM_cons, bind_eq_ok] at h
    obtain ⟨next, hnext, hrest⟩ := h
    have hinv := ih (done ++ [a]) (hstep done s a next h0 hnext) hrest
    rwa [List.append_assoc, List.singleton_append] at hinv

/-- A property of the state that every element of the list keeps. -/
theorem foldlM_keep (Inv : σ → Prop) {step : σ → α → Except ε σ} {l : List α}
    (hstep : ∀ s, ∀ a ∈ l, ∀ s', Inv s → step s a = .ok s' → Inv s') {s s' : σ} (h0 : Inv s)
    (h : l.foldlM step s = .ok s') : Inv s' := by
  induction l generalizing s with
  | nil =>
    cases h
    exact h0
  | cons a l ih =>
    rw [List.foldlM_cons, bind_eq_ok] at h
    obtain ⟨next, hnext, hrest⟩ := h
    have hinv : Inv next := hstep s a List.mem_cons_self next h0 hnext
    exact ih (fun s b hb => hstep s b (List.mem_cons_of_mem a hb)) hinv hrest

/-- The same of a scan that numbers its records: what holds before each index holds in the end. -/
theorem foldlM_zipIdx {step : σ → α × Nat → Except ε σ} (Inv : Nat → σ → Prop)
    (hstep : ∀ i s a s', Inv i s → step s (a, i) = .ok s' → Inv (i + 1) s') {l : List α} {i : Nat}
    {s s' : σ} (h0 : Inv i s) (h : (l.zipIdx i).foldlM step s = .ok s') :
    Inv (i + l.length) s' := by
  induction l generalizing i s with
  | nil =>
    cases h
    exact h0
  | cons a l ih =>
    rw [List.zipIdx_cons, List.foldlM_cons, bind_eq_ok] at h
    obtain ⟨next, hnext, hrest⟩ := h
    have hdone := ih (hstep i s a next h0 hnext) hrest
    rw [List.length_cons]
    rwa [Nat.add_assoc, Nat.add_comm 1] at hdone

/-- A scan that no record stops is a fold. -/
theorem foldlM_ok {step : σ → α → Except ε σ} {f : σ → α → σ} {l : List α}
    (h : ∀ a ∈ l, ∀ s, step s a = .ok (f s a)) (s : σ) : l.foldlM step s = .ok (l.foldl f s) := by
  induction l generalizing s with
  | nil => rfl
  | cons a l ih =>
    rw [List.foldlM_cons, h a List.mem_cons_self, bind_ok, List.foldl_cons]
    exact ih (fun b hb => h b (List.mem_cons_of_mem a hb)) _

/-- Steps that agree on the records of a scan give the same scan. -/
theorem foldlM_congr {step step' : σ → α → Except ε σ} {l : List α}
    (h : ∀ a ∈ l, ∀ s, step' s a = step s a) (s : σ) : l.foldlM step' s = l.foldlM step s := by
  induction l generalizing s with
  | nil => rfl
  | cons a l ih =>
    rw [List.foldlM_cons, List.foldlM_cons, h a List.mem_cons_self]
    congr 1
    funext next
    exact ih (fun b hb => h b (List.mem_cons_of_mem a hb)) next

/-- A fold that hands on a result or an error is a scan. -/
theorem foldl_bind (step : α → σ → Except ε σ) (l : List α) (s : σ) :
    l.foldl (fun (r : Except ε σ) a => r.bind (step a)) (.ok s) =
      l.foldlM (fun s a => step a s) s := by
  induction l generalizing s with
  | nil => rfl
  | cons a l ih =>
    rw [List.foldl_cons, List.foldlM_cons]
    change l.foldl _ (step a s) = _
    cases hstep : step a s with
    | ok next => exact ih next
    | error err =>
      have hstuck : ∀ l : List α,
          l.foldl (fun (r : Except ε σ) a => r.bind (step a)) (.error err) = .error err := by
        intro l
        induction l with
        | nil => rfl
        | cons b l ihl => exact ihl
      exact hstuck l

theorem exists_of_isOk {r : Except ε α} (h : r.isOk = true) : ∃ a, r = .ok a := by
  cases r with
  | error e => cases h
  | ok a => exact ⟨a, rfl⟩

/-- A record is rejected when its verdict is an error. -/
def Rejects (verdict : α → Except ε β) (a : α) : Prop := ∃ e, verdict a = .error e

theorem not_rejects_iff {verdict : α → Except ε β} {a : α} :
    ¬ Rejects verdict a ↔ ∃ b, verdict a = .ok b := by
  cases hv : verdict a with
  | error e => simp [Rejects, hv]
  | ok b => simp [Rejects, hv]

/-- A scan with accumulator-free verdicts is `mapM` followed by a fold. -/
theorem foldlM_eq_mapM {step : σ → α → Except ε σ} {verdict : α → Except ε β}
    {record : σ → β → σ} (hstep : ∀ s a, step s a = (verdict a).map (record s))
    (l : List α) (s : σ) :
    l.foldlM step s = (l.mapM verdict).map (fun bs => bs.foldl record s) := by
  induction l generalizing s with
  | nil => rfl
  | cons a l ih =>
    rw [List.foldlM_cons, List.mapM_cons, hstep]
    cases verdict a with
    | error e => rfl
    | ok b =>
      change List.foldlM step (record s b) l = _
      rw [ih]
      cases hl : l.mapM verdict with
      | error e => simp [Except.map]
      | ok bs => simp [Except.map]

theorem mapM_ok_iff {verdict : α → Except ε β} {l : List α} {bs : List β} :
    l.mapM verdict = .ok bs ↔ List.Forall₂ (fun a b => verdict a = .ok b) l bs := by
  induction l generalizing bs with
  | nil => simp [eq_comm]
  | cons a l ih =>
    rw [List.mapM_cons]
    cases hv : verdict a with
    | error e => simp [List.forall₂_cons_left_iff, hv]
    | ok b =>
      cases hl : l.mapM verdict with
      | error e =>
        have hn : ∀ us, ¬ List.Forall₂ (fun a b => verdict a = .ok b) l us := by
          intro us hus
          have := ih.mpr hus
          rw [hl] at this
          cases this
        simp [List.forall₂_cons_left_iff, hn]
      | ok us =>
        have hus := ih.mp hl
        simp only [bind_ok, pure_eq_ok, List.forall₂_cons_left_iff, hv, Except.ok.injEq]
        constructor
        · rintro rfl
          exact ⟨b, us, rfl, hus, rfl⟩
        · rintro ⟨c, vs, rfl, hvs, rfl⟩
          have he := ih.mpr hvs
          rw [hl, Except.ok.injEq] at he
          rw [he]

/-- Verdicts that are known are the results. -/
theorem mapM_ok_of {verdict : α → Except ε β} {result : α → β} {l : List α}
    (h : ∀ a ∈ l, verdict a = .ok (result a)) : l.mapM verdict = .ok (l.map result) := by
  rw [mapM_ok_iff, List.forall₂_map_right_iff, List.forall₂_same]
  exact h

/-- A scan whose steps succeed by a relation succeeds by that relation along the list. -/
theorem foldlM_ok_iff {step : σ → α → Except ε σ} {R : α → β → Prop} {record : σ → β → σ}
    {l : List α} (hstep : ∀ a ∈ l, ∀ s s', step s a = .ok s' ↔ ∃ b, R a b ∧ s' = record s b)
    {s s' : σ} :
    l.foldlM step s = .ok s' ↔ ∃ bs, List.Forall₂ R l bs ∧ s' = bs.foldl record s := by
  induction l generalizing s with
  | nil => simp [eq_comm]
  | cons a l ih =>
    have hrest := fun s => ih (s := s) fun b hb => hstep b (List.mem_cons_of_mem a hb)
    rw [List.foldlM_cons, bind_eq_ok]
    constructor
    · rintro ⟨next, hnext, hscan⟩
      obtain ⟨b, hab, rfl⟩ := (hstep a List.mem_cons_self s next).mp hnext
      obtain ⟨bs, hbs, rfl⟩ := (hrest _).mp hscan
      exact ⟨b :: bs, .cons hab hbs, rfl⟩
    · rintro ⟨bs, hbs, rfl⟩
      cases hbs with
      | cons hab hbs =>
        exact ⟨_, (hstep a List.mem_cons_self s _).mpr ⟨_, hab, rfl⟩,
          (hrest _).mpr ⟨_, hbs, rfl⟩⟩

theorem exists_forall₂ {R : α → β → Prop} {l : List α} (h : ∀ a ∈ l, ∃ b, R a b) :
    ∃ bs, List.Forall₂ R l bs := by
  induction l with
  | nil => exact ⟨[], .nil⟩
  | cons a l ih =>
    obtain ⟨b, hab⟩ := h a List.mem_cons_self
    obtain ⟨bs, hbs⟩ := ih fun c hc => h c (List.mem_cons_of_mem a hc)
    exact ⟨b :: bs, .cons hab hbs⟩

theorem forall₂_exists_left {R : α → β → Prop} {l : List α} {bs : List β}
    (h : List.Forall₂ R l bs) {a : α} (ha : a ∈ l) : ∃ b ∈ bs, R a b := by
  induction h with
  | nil => cases ha
  | cons hab _ ih =>
    rename_i a' b l' bs' _
    rcases List.mem_cons.mp ha with rfl | ha
    · exact ⟨b, List.mem_cons_self, hab⟩
    · obtain ⟨c, hc, hac⟩ := ih ha
      exact ⟨c, List.mem_cons_of_mem b hc, hac⟩

theorem forall₂_exists_right {R : α → β → Prop} {l : List α} {bs : List β}
    (h : List.Forall₂ R l bs) {b : β} (hb : b ∈ bs) : ∃ a ∈ l, R a b :=
  forall₂_exists_left h.flip hb

theorem mapM_ok_left {verdict : α → Except ε β} {l : List α} {bs : List β}
    (h : l.mapM verdict = .ok bs) {a : α} (ha : a ∈ l) : ∃ b ∈ bs, verdict a = .ok b :=
  forall₂_exists_left (mapM_ok_iff.mp h) ha

theorem mapM_ok_right {verdict : α → Except ε β} {l : List α} {bs : List β}
    (h : l.mapM verdict = .ok bs) {b : β} (hb : b ∈ bs) : ∃ a ∈ l, verdict a = .ok b :=
  forall₂_exists_right (mapM_ok_iff.mp h) hb

/-- What a verdict determines about its record can be read off the verdicts in order. -/
theorem map_eq_of_mapM_ok_mem {γ : Type*} {verdict : α → Except ε β} {l : List α} {bs : List β}
    (h : l.mapM verdict = .ok bs) {f : α → γ} {g : β → γ}
    (hfg : ∀ a ∈ l, ∀ b, verdict a = .ok b → f a = g b) : l.map f = bs.map g := by
  rw [← List.forall₂_eq_eq_eq, List.forall₂_map_left_iff, List.forall₂_map_right_iff]
  have hmem := (List.forall₂_and_left l bs).mpr ⟨fun _ ha => ha, mapM_ok_iff.mp h⟩
  exact hmem.imp fun a b hab => hfg a hab.1 b hab.2

theorem map_eq_of_mapM_ok {γ : Type*} {verdict : α → Except ε β} {l : List α} {bs : List β}
    (h : l.mapM verdict = .ok bs) {f : α → γ} {g : β → γ}
    (hfg : ∀ a b, verdict a = .ok b → f a = g b) : l.map f = bs.map g :=
  map_eq_of_mapM_ok_mem h fun a _ => hfg a

/-- Two scans of one list whose verdicts agree on the parts they add, add the same parts. -/
theorem flatMap_eq_of_mapM_ok {ε' β' : Type u} {γ : Type*} {verdict : α → Except ε β}
    {verdict' : α → Except ε' β'} {l : List α} {bs : List β} {bs' : List β'}
    (h : l.mapM verdict = .ok bs) (h' : l.mapM verdict' = .ok bs') {part : β → List γ}
    {part' : β' → List γ}
    (hpart : ∀ a ∈ l, ∀ b b', verdict a = .ok b → verdict' a = .ok b' → part b = part' b') :
    bs.flatMap part = bs'.flatMap part' := by
  rw [mapM_ok_iff] at h h'
  induction h generalizing bs' with
  | nil =>
    cases h'
    rfl
  | cons hab _ ih =>
    cases h' with
    | cons hab' hrest =>
      rw [List.flatMap_cons, List.flatMap_cons, hpart _ List.mem_cons_self _ _ hab hab',
        ih hrest fun a ha => hpart a (List.mem_cons_of_mem _ ha)]

/-- The scan fails exactly when some record is rejected. -/
theorem mapM_error_iff {verdict : α → Except ε β} {l : List α} :
    Rejects (List.mapM verdict) l ↔ ∃ a ∈ l, Rejects verdict a := by
  induction l with
  | nil => simp [Rejects]
  | cons a l ih =>
    cases hv : verdict a with
    | error e => simp [Rejects, List.mapM_cons, hv]
    | ok b =>
      have ha : ¬ Rejects verdict a := not_rejects_iff.mpr ⟨b, hv⟩
      have hc : Rejects (List.mapM verdict) (a :: l) ↔ Rejects (List.mapM verdict) l := by
        cases hl : l.mapM verdict with
        | error e => simp [Rejects, List.mapM_cons, hv, hl]
        | ok bs => simp [Rejects, List.mapM_cons, hv, hl]
      rw [hc, ih]
      simp [ha]

theorem mapM_congr {verdict verdict' : α → Except ε β} {l : List α}
    (h : ∀ a ∈ l, verdict' a = verdict a) : l.mapM verdict' = l.mapM verdict := by
  induction l with
  | nil => rfl
  | cons a l ih =>
    rw [List.mapM_cons, List.mapM_cons, h a List.mem_cons_self,
      ih (fun b hb => h b (List.mem_cons_of_mem a hb))]

/-- If every record either is rejected or keeps its verdict, the same holds of
the whole scan. -/
theorem mapM_error_or_eq {verdict verdict' : α → Except ε β} {l : List α}
    (h : ∀ a ∈ l, Rejects verdict' a ∨ verdict' a = verdict a) :
    Rejects (List.mapM verdict') l ∨ l.mapM verdict' = l.mapM verdict := by
  by_cases hr : ∃ a ∈ l, Rejects verdict' a
  · exact Or.inl (mapM_error_iff.mpr hr)
  · right
    apply mapM_congr
    intro a ha
    rcases h a ha with hbad | heq
    · exact absurd ⟨a, ha, hbad⟩ hr
    · exact heq

section Projections
variable {τ γ M : Type*}

/-- A total to which every step adds its own share ends as the sum of the shares. -/
theorem foldl_total [AddMonoid M] {step : τ → γ → τ} (total : τ → M) {share : γ → M}
    (hstep : ∀ s c, total (step s c) = total s + share c) (l : List γ) (s : τ) :
    total (l.foldl step s) = total s + (l.map share).sum := by
  induction l generalizing s with
  | nil => simp
  | cons c l ih => rw [List.foldl_cons, ih, hstep, List.map_cons, List.sum_cons, add_assoc]

/-- A list to which every step appends its own part ends as the parts in order. -/
theorem foldl_listed {δ : Type*} {step : τ → γ → τ} (listed : τ → List δ) {part : γ → List δ}
    (hstep : ∀ s c, listed (step s c) = listed s ++ part c) (l : List γ) (s : τ) :
    listed (l.foldl step s) = listed s ++ l.flatMap part := by
  induction l generalizing s with
  | nil => simp
  | cons c l ih => rw [List.foldl_cons, ih, hstep, List.flatMap_cons, List.append_assoc]

theorem filterMap_concat {δ : Type*} (part : γ → Option δ) (l : List γ) (c : γ) :
    (l ++ [c]).filterMap part = l.filterMap part ++ (part c).toList := by
  rw [List.filterMap_append]
  cases hc : part c with
  | none => simp [hc]
  | some d => simp [hc]

theorem sum_map_one_eq_countP (p : γ → Bool) (l : List γ) :
    (l.map fun c => if p c then 1 else 0).sum = l.countP p := by
  induction l with
  | nil => rfl
  | cons c l ih => rw [List.map_cons, List.sum_cons, ih, List.countP_cons, Nat.add_comm]

theorem sum_map_flatMap [AddMonoid M] {δ : Type*} (part : γ → List δ) (weight : δ → M)
    (l : List γ) :
    ((l.flatMap part).map weight).sum = (l.map fun c => ((part c).map weight).sum).sum := by
  induction l with
  | nil => rfl
  | cons c l ih => simp [List.flatMap_cons, ih]

theorem sum_filterMap [AddMonoid M] {δ : Type*} (part : γ → Option δ) (share : δ → M)
    (l : List γ) :
    ((l.filterMap part).map share).sum = (l.map fun c => (part c).elim 0 share).sum := by
  induction l with
  | nil => rfl
  | cons c l ih =>
    cases hc : part c with
    | none => simp [hc, ih]
    | some d => simp [hc, ih]

/-- Elements without a share may be dropped from a sum. -/
theorem sum_map_filter [AddMonoid M] {p : γ → Bool} {share : γ → M} {l : List γ}
    (h : ∀ c ∈ l, p c = false → share c = 0) : ((l.filter p).map share).sum = (l.map share).sum := by
  induction l with
  | nil => rfl
  | cons c l ih =>
    have hrest := ih fun d hd => h d (List.mem_cons_of_mem c hd)
    cases hc : p c with
    | false =>
      rw [List.filter_cons_of_neg (by simp [hc]), hrest, List.map_cons, List.sum_cons,
        h c List.mem_cons_self hc, zero_add]
    | true =>
      rw [List.filter_cons_of_pos hc, List.map_cons, List.map_cons, List.sum_cons, List.sum_cons,
        hrest]

/-- A sum over the elements of either kind, the second apart from the first. -/
theorem sum_filter_or [AddCommMonoid M] (p q : γ → Bool) (share : γ → M) (l : List γ) :
    ((l.filter fun c => q c || p c).map share).sum =
      ((l.filter p).map share).sum + ((l.filter fun c => q c && !p c).map share).sum := by
  induction l with
  | nil => simp
  | cons c l ih =>
    cases hp : p c <;> cases hq : q c <;> simp [hp, hq, ih, add_assoc, add_left_comm]

end Projections

end FallibleScan
