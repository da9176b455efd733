import Mathlib.Logic.Function.Basic
import SupplyAudit.FallibleScan

/-!
# Files written under a temporary name

A disk is a partial map from file names to contents. A computation over it
returns a value or fails, and keeps what it did to the disk either way. A file
is staged when it is created under a temporary name, filled there, and moved to
its own name at the end: if no step fails, only the final file is new, and if
one does, only the temporary one is.
-/

namespace FileStore

universe u
variable {C ε α β : Type u}

/-- The files of a disk. -/
abbrev Disk (C : Type u) := String → Option C

namespace Disk

def put (d : Disk C) (p : String) (c : C) : Disk C := Function.update d p (some c)

def remove (d : Disk C) (p : String) : Disk C := Function.update d p none

@[simp] theorem put_self (d : Disk C) (p : String) (c : C) : d.put p c p = some c :=
  Function.update_self ..

@[simp] theorem put_put (d : Disk C) (p : String) (c c' : C) :
    (d.put p c).put p c' = d.put p c' :=
  Function.update_idem ..

theorem put_other (d : Disk C) {p q : String} (c : C) (h : q ≠ p) : d.put p c q = d q :=
  Function.update_of_ne h ..

/-- A file that was not there leaves no trace once it is removed. -/
theorem remove_put {d : Disk C} {p : String} (h : d p = none) (c : C) :
    (d.put p c).remove p = d := by
  apply funext
  intro q
  by_cases hq : q = p
  · subst hq
    simp [remove, h]
  · simp [remove, put, hq]

end Disk

/-- A computation over a disk; the disk it leaves stays when it fails. -/
def Action (C ε α : Type u) := Disk C → Except ε α × Disk C

namespace Action

protected def pure (a : α) : Action C ε α := fun d => (.ok a, d)

protected def bind (x : Action C ε α) (f : α → Action C ε β) : Action C ε β := fun d =>
  match x d with
  | (.ok a, next) => f a next
  | (.error e, next) => (.error e, next)

instance : Monad (Action C ε) where
  pure := Action.pure
  bind := Action.bind

@[simp] theorem pure_run (a : α) (d : Disk C) : (pure a : Action C ε α) d = (.ok a, d) := rfl

theorem bind_ok {x : Action C ε α} {d next : Disk C} {a : α} (h : x d = (.ok a, next))
    (f : α → Action C ε β) : (x >>= f) d = f a next := by
  change Action.bind x f d = _
  simp only [Action.bind, h]

theorem bind_error {x : Action C ε α} {d next : Disk C} {e : ε} (h : x d = (.error e, next))
    (f : α → Action C ε β) : (x >>= f) d = (.error e, next) := by
  change Action.bind x f d = _
  simp only [Action.bind, h]

/-- A sequence returns when both parts do. -/
theorem bind_eq_ok {x : Action C ε α} {f : α → Action C ε β} {d last : Disk C} {b : β} :
    (x >>= f) d = (.ok b, last) ↔ ∃ a next, x d = (.ok a, next) ∧ f a next = (.ok b, last) := by
  rcases hx : x d with ⟨r, next⟩
  cases r with
  | error e =>
    rw [bind_error hx]
    simp
  | ok a =>
    rw [bind_ok hx]
    simp

/-- A sequence fails when its first part fails, or its second part after the first returned. -/
theorem bind_eq_error {x : Action C ε α} {f : α → Action C ε β} {d last : Disk C} {e : ε} :
    (x >>= f) d = (.error e, last) ↔ x d = (.error e, last) ∨
      ∃ a next, x d = (.ok a, next) ∧ f a next = (.error e, last) := by
  rcases hx : x d with ⟨r, next⟩
  cases r with
  | error e' =>
    rw [bind_error hx]
    simp
  | ok a =>
    rw [bind_ok hx]
    simp

end Action

/-- A value or an error that was computed without the disk. -/
def lift (r : Except ε α) : Action C ε α := fun d => (r, d)

/-- Fail with the fault, if there is one. -/
def raiseIf : Option ε → Action C ε PUnit
  | none => pure ⟨⟩
  | some e => lift (.error e)

/-- Open a file that must not exist yet. -/
def createNew (p : String) (blank : C) (taken : ε) : Action C ε PUnit := fun d =>
  match d p with
  | none => (.ok ⟨⟩, d.put p blank)
  | some _ => (.error taken, d)

/-- Fill an open file. A write that fails leaves what it had written. -/
def writeTo (p : String) (c : C) : Option (ε × C) → Action C ε PUnit
  | none => fun d => (.ok ⟨⟩, d.put p c)
  | some (e, torn) => fun d => (.error e, d.put p torn)

def readFrom (p : String) (missing : ε) : Action C ε C := fun d =>
  match d p with
  | none => (.error missing, d)
  | some c => (.ok c, d)

/-- Move a file over another name. -/
def rename (p q : String) (missing : ε) : Action C ε PUnit := fun d =>
  match d p with
  | none => (.error missing, d)
  | some c => (.ok ⟨⟩, (d.remove p).put q c)

/-- Remove the files that are there. -/
def discard (ps : List String) : Action C ε PUnit := fun d => (.ok ⟨⟩, ps.foldl Disk.remove d)

/-- Run the handler when the body fails, and fail again. -/
def onError (body : Action C ε α) (handler : Action C ε PUnit) : Action C ε α := fun d =>
  match body d with
  | (.ok a, next) => (.ok a, next)
  | (.error e, next) => (handler >>= fun _ => lift (.error e)) next

@[simp] theorem lift_run (r : Except ε α) (d : Disk C) : lift r d = (r, d) := rfl

@[simp] theorem raiseIf_none (d : Disk C) : raiseIf (none : Option ε) d = (.ok ⟨⟩, d) := rfl

@[simp] theorem raiseIf_some (e : ε) (d : Disk C) : raiseIf (some e) d = (.error e, d) := rfl

theorem createNew_free {d : Disk C} {p : String} (h : d p = none) (blank : C) (taken : ε) :
    createNew p blank taken d = (.ok ⟨⟩, d.put p blank) := by
  simp only [createNew, h]

theorem createNew_taken {d : Disk C} {p : String} {c : C} (h : d p = some c) (blank : C)
    (taken : ε) : createNew p blank taken d = (.error taken, d) := by
  simp only [createNew, h]

theorem readFrom_found {d : Disk C} {p : String} {c : C} (h : d p = some c) (missing : ε) :
    readFrom p missing d = (.ok c, d) := by
  simp only [readFrom, h]

theorem writeTo_held (d : Disk C) (p : String) (c c' : C) :
    writeTo p c' (none : Option (ε × C)) (d.put p c) = (.ok ⟨⟩, d.put p c') := by
  simp only [writeTo, Disk.put_put]

/-- A file that was not there before moves without a trace. -/
theorem rename_new {d : Disk C} {p q : String} (h : d p = none) (c : C) (missing : ε) :
    rename p q missing (d.put p c) = (.ok ⟨⟩, d.put q c) := by
  simp only [rename, Disk.put_self, Disk.remove_put h]

theorem onError_ok {body : Action C ε α} {handler : Action C ε PUnit} {d next : Disk C} {a : α}
    (h : body d = (.ok a, next)) : onError body handler d = (.ok a, next) := by
  simp only [onError, h]

theorem onError_discard {body : Action C ε α} {ps : List String} {d next : Disk C} {e : ε}
    (h : body d = (.error e, next)) :
    onError body (discard ps) d = (.error e, ps.foldl Disk.remove next) := by
  simp only [onError, h]
  rfl

/-- A body whose first part returned fails as its rest does. -/
theorem onError_bind {x : Action C ε α} {f : α → Action C ε β} {handler : Action C ε PUnit}
    {d next : Disk C} {a : α} (h : x d = (.ok a, next)) :
    onError (x >>= f) handler d = onError (f a) handler next := by
  simp only [onError, Action.bind_ok h]

/-! ## What a cleanup leaves -/

theorem discarded_apply (ps : List String) (d : Disk C) (q : String) :
    ps.foldl Disk.remove d q = if q ∈ ps then none else d q := by
  induction ps generalizing d with
  | nil => simp
  | cons p ps ih =>
    rw [List.foldl_cons, ih]
    by_cases hq : q = p
    · subst hq
      simp [Disk.remove]
    · simp [Disk.remove, hq]

theorem discarded_absent {ps : List String} {d : Disk C} (h : ∀ p ∈ ps, d p = none) :
    ps.foldl Disk.remove d = d := by
  apply funext
  intro q
  rw [discarded_apply]
  split
  · exact (h q ‹_›).symm
  · rfl

/-- Discarding a new file restores the disk. -/
theorem discarded_new {ps : List String} {d : Disk C} (h : ∀ p ∈ ps, d p = none) {p : String}
    (hp : p ∈ ps) (c : C) : ps.foldl Disk.remove (d.put p c) = d := by
  apply funext
  intro q
  rw [discarded_apply]
  split
  · exact (h q ‹_›).symm
  · rename_i hq
    apply Disk.put_other
    rintro rfl
    exact hq hp

/-! ## Writing one file only -/

/-- On a disk that holds `p`, whatever becomes of `x`, it changes that file only. -/
def Writes (p : String) (x : Action C ε α) : Prop :=
  ∀ (d : Disk C) c, ∃ c', (x (d.put p c)).2 = d.put p c'

variable {p : String}

theorem Writes.bind {x : Action C ε α} {f : α → Action C ε β} (hx : Writes p x)
    (hf : ∀ a, Writes p (f a)) : Writes p (x >>= f) := by
  intro d c
  obtain ⟨c', hc'⟩ := hx d c
  rcases hrun : x (d.put p c) with ⟨r, next⟩
  rw [hrun] at hc'
  subst hc'
  cases r with
  | error e => exact ⟨c', by rw [Action.bind_error hrun]⟩
  | ok a =>
    rw [Action.bind_ok hrun]
    exact hf a d c'

theorem writes_lift (r : Except ε α) : Writes p (lift r : Action C ε α) :=
  fun _ c => ⟨c, rfl⟩

theorem writes_raiseIf (fault : Option ε) : Writes p (raiseIf fault : Action C ε PUnit) := by
  cases fault with
  | none => exact fun d c => ⟨c, rfl⟩
  | some e => exact writes_lift (.error e)

theorem writes_writeTo (c : C) (fault : Option (ε × C)) : Writes p (writeTo p c fault) := by
  intro d old
  cases fault with
  | none => exact ⟨c, Disk.put_put ..⟩
  | some f => exact ⟨f.2, Disk.put_put ..⟩

/-! ## Staged files -/

/-- What may go wrong around the filling of a staged file. -/
structure StageFaults (ε : Type u) where
  create : Option ε
  move : Option ε
  taken : ε
  missing : ε

/-- Create `temp`, fill it, and move it to `path`. -/
def staged (faults : StageFaults ε) (temp path : String) (blank : C) (write : Action C ε α) :
    Action C ε α := do
  raiseIf faults.create
  createNew temp blank faults.taken
  let a ← write
  raiseIf faults.move
  rename temp path faults.missing
  pure a

variable {faults : StageFaults ε} {temp path : String} {blank : C} {write : Action C ε α}
  {d : Disk C}

theorem staged_taken {c : C} (h : d temp = some c) :
    ∃ e, staged faults temp path blank write d = (.error e, d) := by
  cases hcreate : faults.create with
  | some e =>
    refine ⟨e, ?_⟩
    unfold staged
    rw [hcreate, Action.bind_error (raiseIf_some e d)]
  | none =>
    refine ⟨faults.taken, ?_⟩
    unfold staged
    rw [hcreate, Action.bind_ok (raiseIf_none d),
      Action.bind_error (createNew_taken h blank faults.taken)]

/-- When no step fails, the file is at its name and the temporary one is gone. -/
theorem staged_ok (hfree : d temp = none) (hcreate : faults.create = none)
    (hmove : faults.move = none) {a : α} {c : C}
    (hwrite : write (d.put temp blank) = (.ok a, d.put temp c)) :
    staged faults temp path blank write d = (.ok a, d.put path c) := by
  unfold staged
  rw [hcreate, Action.bind_ok (raiseIf_none d), Action.bind_ok (createNew_free hfree ..),
    Action.bind_ok hwrite, hmove, Action.bind_ok (raiseIf_none _),
    Action.bind_ok (rename_new hfree ..), Action.pure_run]

/-- When a step fails, at most the temporary file is left. -/
theorem staged_fails (hfree : d temp = none) (hw : Writes temp write)
    (h : faults.create.isSome ∨ faults.move.isSome ∨
      ∀ a next, write (d.put temp blank) ≠ (.ok a, next)) :
    ∃ e next, staged faults temp path blank write d = (.error e, next) ∧
      (next = d ∨ ∃ c, next = d.put temp c) := by
  unfold staged
  cases hcreate : faults.create with
  | some e => exact ⟨e, d, Action.bind_error (raiseIf_some e d) _, Or.inl rfl⟩
  | none =>
    rw [Action.bind_ok (raiseIf_none d), Action.bind_ok (createNew_free hfree ..)]
    obtain ⟨c, hc⟩ := hw d blank
    rcases hrun : write (d.put temp blank) with ⟨r, next⟩
    rw [hrun] at hc
    subst hc
    cases r with
    | error e => exact ⟨e, _, Action.bind_error hrun _, Or.inr ⟨c, rfl⟩⟩
    | ok a =>
      rw [Action.bind_ok hrun]
      obtain hsome | hsome | hnever := h
      · rw [hcreate] at hsome
        cases hsome
      · obtain ⟨e, he⟩ := Option.isSome_iff_exists.mp hsome
        rw [he]
        exact ⟨e, _, Action.bind_error (raiseIf_some e _) _, Or.inr ⟨c, rfl⟩⟩
      · exact absurd hrun (hnever a _)

/-- A file that is staged at once is at its name, or at most the temporary file is left. -/
theorem staged_writeTo (faults : StageFaults ε) (temp path : String) (blank c : C)
    (fault : Option (ε × C)) (d : Disk C) :
    staged faults temp path blank (writeTo temp c fault) d = (.ok ⟨⟩, d.put path c) ∨
      ∃ e next, staged faults temp path blank (writeTo temp c fault) d = (.error e, next) ∧
        ∀ p ≠ temp, next p = d p := by
  have hleft : ∀ next, (next = d ∨ ∃ c, next = d.put temp c) → ∀ p ≠ temp, next p = d p := by
    rintro next (rfl | ⟨c, rfl⟩) p hp
    · rfl
    · exact Disk.put_other d c hp
  cases htemp : d temp with
  | some held =>
    obtain ⟨e, he⟩ := staged_taken htemp
    exact Or.inr ⟨e, d, he, fun _ _ => rfl⟩
  | none =>
    by_cases hfaults : faults.create.isSome ∨ faults.move.isSome ∨ fault.isSome
    · right
      have hfails : faults.create.isSome ∨ faults.move.isSome ∨
          ∀ a next, writeTo temp c fault (d.put temp blank) ≠ (.ok a, next) := by
        refine hfaults.imp_right (Or.imp_right fun hfault a next hrun => ?_)
        obtain ⟨f, rfl⟩ := Option.isSome_iff_exists.mp hfault
        cases congrArg Prod.fst hrun
      obtain ⟨e, next, he, hnext⟩ := staged_fails htemp (writes_writeTo c fault) hfails
      exact ⟨e, next, he, hleft next hnext⟩
    · simp only [not_or, Bool.not_eq_true, Option.isSome_eq_false_iff,
        Option.isNone_iff_eq_none] at hfaults
      obtain ⟨hcreate, hmove, rfl⟩ := hfaults
      exact Or.inl (staged_ok htemp hcreate hmove (writeTo_held d temp blank c))

/-! ## Staged files that a failure removes -/

/-- Create `temp`, fill it, and move it to `path`; what fails after the creation removes it. -/
def stagedOrGone (faults : StageFaults ε) (temp path : String) (blank : C) (write : Action C ε α) :
    Action C ε α := do
  raiseIf faults.create
  createNew temp blank faults.taken
  onError
    (do
      let a ← write
      raiseIf faults.move
      rename temp path faults.missing
      pure a)
    (discard [temp])

/-- Either the file is at its name, or the disk is as it was. -/
theorem stagedOrGone_cases (faults : StageFaults ε) (path : String) (blank : C)
    (hw : Writes temp write) (d : Disk C) :
    (∃ a c, stagedOrGone faults temp path blank write d = (.ok a, d.put path c) ∧
      write (d.put temp blank) = (.ok a, d.put temp c)) ∨
    ∃ e, stagedOrGone faults temp path blank write d = (.error e, d) := by
  unfold stagedOrGone
  cases hcreate : faults.create with
  | some e => exact Or.inr ⟨e, Action.bind_error (raiseIf_some e d) _⟩
  | none =>
    rw [Action.bind_ok (raiseIf_none d)]
    cases htemp : d temp with
    | some c => exact Or.inr ⟨_, Action.bind_error (createNew_taken htemp ..) _⟩
    | none =>
      have hnew : ∀ p ∈ [temp], d p = none := by
        intro p hp
        rw [List.mem_singleton.mp hp]
        exact htemp
      have hgone : ∀ c, [temp].foldl Disk.remove (d.put temp c) = d :=
        discarded_new hnew (List.mem_singleton.mpr rfl)
      rw [Action.bind_ok (createNew_free htemp ..)]
      obtain ⟨c, hc⟩ := hw d blank
      rcases hrun : write (d.put temp blank) with ⟨r, next⟩
      rw [hrun] at hc
      subst hc
      cases r with
      | error e =>
        refine Or.inr ⟨e, ?_⟩
        rw [onError_discard (Action.bind_error hrun _), hgone]
      | ok a =>
        rw [onError_bind hrun]
        cases hmove : faults.move with
        | some e =>
          refine Or.inr ⟨e, ?_⟩
          rw [onError_discard (Action.bind_error (raiseIf_some e _) _), hgone]
        | none =>
          refine Or.inl ⟨a, c, ?_, rfl⟩
          rw [onError_bind (raiseIf_none _), onError_bind (rename_new htemp ..)]
          exact onError_ok (Action.pure_run a _)

/-- A file that is written at once has what was to be written. -/
theorem stagedOrGone_writeTo (faults : StageFaults ε) (temp path : String) (blank c : C)
    (fault : Option (ε × C)) (d : Disk C) :
    stagedOrGone faults temp path blank (writeTo temp c fault) d = (.ok ⟨⟩, d.put path c) ∨
      ∃ e, stagedOrGone faults temp path blank (writeTo temp c fault) d = (.error e, d) := by
  obtain ⟨a, held, hstaged, hwrite⟩ | hfails :=
    stagedOrGone_cases faults path blank (writes_writeTo c fault) d
  · cases fault with
    | some fault => cases congrArg Prod.fst hwrite
    | none =>
      rw [writeTo_held, Prod.mk.injEq] at hwrite
      have hheld := congrFun hwrite.2 temp
      rw [Disk.put_self, Disk.put_self, Option.some.injEq] at hheld
      rw [← hheld] at hstaged
      exact Or.inl hstaged
  · exact Or.inr hfails

end FileStore
