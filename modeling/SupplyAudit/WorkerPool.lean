import Mathlib.Algebra.BigOperators.Group.Multiset.Basic
import Mathlib.Logic.Relation
import Mathlib.Tactic.Abel

/-!
# A pool of workers over bounded channels

A sender puts jobs into a bounded channel, workers take them and put results
into another one, and a collector drains the results until the last worker is
gone. A worker whose job fails leaves its error in a slot for one error and
cancels; a cancelled sender or worker may stop instead of sending. In every
order of these actions a returned list of results is that of all jobs, an error
that occurred is returned, and the pool neither blocks nor runs on.
-/

namespace WorkerPool

universe u
variable {Job Result Err : Type u}

inductive Worker (Job Result Err : Type u) where
  | idle
  | busy (job : Job)
  | sending (job : Job) (result : Result)
  | failed (job : Job) (err : Err)
  | cancelling
  | leaving
  | done

/-- The channels and flags that the parties share; `sender` holds the jobs that
are not sent yet. -/
structure Shared (Job Result Err : Type u) where
  sender : List Job
  closed : Bool := false
  jobs : List Job := []
  results : List Result := []
  resultsClosed : Bool := false
  error : Option Err := none
  cancelled : Bool := false
  collected : List Result := []
  outcome : Option (Except Err (List Result)) := none

structure Pool (Job Result Err : Type u) where
  shared : Shared Job Result Err
  workers : List (Worker Job Result Err)

/-- What a job can give, and how many entries a channel holds. -/
structure Protocol (Job Result Err : Type u) where
  processes : Job → Result → Prop
  fails : Job → Err → Prop
  capacity : Nat

def start (plan : List Job) (workers : Nat) : Pool Job Result Err :=
  ⟨{ sender := plan }, List.replicate workers .idle⟩

variable (protocol : Protocol Job Result Err)

/-! ## Steps -/

inductive Sends : Shared Job Result Err → Shared Job Result Err → Prop where
  | send {s : Shared Job Result Err} {job : Job} {rest : List Job}
      (pending : s.sender = job :: rest) (room : s.jobs.length < protocol.capacity) :
      Sends s { s with sender := rest, jobs := s.jobs ++ [job] }
  | abandon {s : Shared Job Result Err} (pending : s.sender ≠ []) (cancelled : s.cancelled = true) :
      Sends s { s with sender := [] }
  | close {s : Shared Job Result Err} (sent : s.sender = []) (opened : s.closed = false) :
      Sends s { s with closed := true }

inductive Acts : Shared Job Result Err → Worker Job Result Err →
    Shared Job Result Err → Worker Job Result Err → Prop where
  | take {s : Shared Job Result Err} {job : Job} {rest : List Job}
      (ready : s.jobs = job :: rest) : Acts s .idle { s with jobs := rest } (.busy job)
  | leave {s : Shared Job Result Err} (drained : s.jobs = []) (closed : s.closed = true) :
      Acts s .idle s .leaving
  | process {s : Shared Job Result Err} {job : Job} {result : Result}
      (processed : protocol.processes job result) : Acts s (.busy job) s (.sending job result)
  | fail {s : Shared Job Result Err} {job : Job} {err : Err} (failed : protocol.fails job err) :
      Acts s (.busy job) s (.failed job err)
  /-- The slot keeps the first error. -/
  | report {s : Shared Job Result Err} {job : Job} {err : Err} :
      Acts s (.failed job err) { s with error := some (s.error.getD err) } .cancelling
  | cancel {s : Shared Job Result Err} : Acts s .cancelling { s with cancelled := true } .leaving
  | deliver {s : Shared Job Result Err} {job : Job} {result : Result}
      (room : s.results.length < protocol.capacity) :
      Acts s (.sending job result) { s with results := s.results ++ [result] } .idle
  | abandon {s : Shared Job Result Err} {job : Job} {result : Result}
      (cancelled : s.cancelled = true) : Acts s (.sending job result) s .leaving
  | finish {s : Shared Job Result Err} : Acts s .leaving s .done

/-- What the collector returns: the error in the slot, if there is one. -/
def returned (s : Shared Job Result Err) : Except Err (List Result) :=
  match s.error with
  | some err => .error err
  | none => .ok s.collected

inductive Collects : Shared Job Result Err → Shared Job Result Err → Prop where
  | receive {s : Shared Job Result Err} {result : Result} {rest : List Result}
      (ready : s.results = result :: rest) :
      Collects s { s with results := rest, collected := s.collected ++ [result] }
  | finish {s : Shared Job Result Err} (drained : s.results = [])
      (closed : s.resultsClosed = true) (running : s.outcome = none) :
      Collects s { s with outcome := some (returned s) }

inductive Step : Pool Job Result Err → Pool Job Result Err → Prop where
  | sender {s s' : Shared Job Result Err} {workers : List (Worker Job Result Err)}
      (sends : Sends protocol s s') : Step ⟨s, workers⟩ ⟨s', workers⟩
  | worker {s s' : Shared Job Result Err} {w w' : Worker Job Result Err}
      (before after : List (Worker Job Result Err)) (acts : Acts protocol s w s' w') :
      Step ⟨s, before ++ w :: after⟩ ⟨s', before ++ w' :: after⟩
  | closeResults {s : Shared Job Result Err} {workers : List (Worker Job Result Err)}
      (gone : ∀ w ∈ workers, w = .done) (opened : s.resultsClosed = false) :
      Step ⟨s, workers⟩ ⟨{ s with resultsClosed := true }, workers⟩
  | collector {s s' : Shared Job Result Err} {workers : List (Worker Job Result Err)}
      (collects : Collects s s') : Step ⟨s, workers⟩ ⟨s', workers⟩

/-- Reached by finitely many steps. -/
def Reaches : Pool Job Result Err → Pool Job Result Err → Prop :=
  Relation.ReflTransGen (Step protocol)

/-! ## Jobs in the pool -/

def held : Worker Job Result Err → Multiset Job
  | .busy job => {job}
  | .sending job _ => {job}
  | .failed job _ => {job}
  | _ => 0

/-- Every planned job is in one place, or was given up after an error. -/
structure Placed (plan : List Job) (p : Pool Job Result Err) (collectedJobs resultJobs : List Job)
    (lost : Multiset Job) : Prop where
  plan_eq : (collectedJobs : Multiset Job) + resultJobs + (p.workers.map held).sum +
    p.shared.jobs + p.shared.sender + lost = plan
  collected : List.Forall₂ protocol.processes collectedJobs p.shared.collected
  results : List.Forall₂ protocol.processes resultJobs p.shared.results
  lost_after : lost ≠ 0 → p.shared.error.isSome = true

/-- What a worker's state says. -/
inductive Sound (plan : List Job) (s : Shared Job Result Err) : Worker Job Result Err → Prop where
  | idle : Sound plan s .idle
  | busy (job : Job) : Sound plan s (.busy job)
  | sending (job : Job) (result : Result) (processed : protocol.processes job result) :
      Sound plan s (.sending job result)
  | failed (job : Job) (err : Err) (planned : job ∈ plan) (failed : protocol.fails job err) :
      Sound plan s (.failed job err)
  | cancelling (reported : s.error.isSome = true) : Sound plan s .cancelling
  | leaving (why : s.error.isSome = true ∨ s.jobs = [] ∧ s.closed = true) : Sound plan s .leaving
  | done (why : s.error.isSome = true ∨ s.jobs = [] ∧ s.closed = true) : Sound plan s .done

structure Invariant (plan : List Job) (p : Pool Job Result Err) : Prop where
  placed : ∃ collectedJobs resultJobs lost, Placed protocol plan p collectedJobs resultJobs lost
  workers : ∀ w ∈ p.workers, Sound protocol plan p.shared w
  cancelled : p.shared.cancelled = true → p.shared.error.isSome = true
  closed : p.shared.closed = true → p.shared.sender = []
  gone : p.shared.resultsClosed = true → ∀ w ∈ p.workers, w = .done
  outcome : ∀ o, p.shared.outcome = some o →
    p.shared.resultsClosed = true ∧ p.shared.results = [] ∧ o = returned p.shared
  origin : ∀ err, p.shared.error = some err → ∃ job ∈ plan, protocol.fails job err

theorem invariant_start (plan : List Job) (workers : Nat) :
    Invariant protocol plan (start plan workers) := by
  constructor
  case placed =>
    refine ⟨[], [], 0, ⟨?_, .nil, .nil, fun h => absurd rfl h⟩⟩
    simp [start, held]
  case workers =>
    intro w hw
    rw [List.eq_of_mem_replicate hw]
    exact .idle
  case cancelled => nofun
  case closed => nofun
  case gone => nofun
  case outcome => nofun
  case origin => nofun

variable {protocol} {plan : List Job}

theorem Sound.mono {s s' : Shared Job Result Err} {w : Worker Job Result Err}
    (h : Sound protocol plan s w) (herror : s.error.isSome = true → s'.error.isSome = true)
    (hdrained : s.jobs = [] ∧ s.closed = true → s'.jobs = [] ∧ s'.closed = true) :
    Sound protocol plan s' w := by
  cases h with
  | idle => exact .idle
  | busy job => exact .busy job
  | sending job result processed => exact .sending job result processed
  | failed job err planned failed => exact .failed job err planned failed
  | cancelling reported => exact .cancelling (herror reported)
  | leaving why => exact .leaving (why.imp herror hdrained)
  | done why => exact .done (why.imp herror hdrained)

theorem coe_cons_eq (job : Job) (rest : List Job) :
    ((job :: rest : List Job) : Multiset Job) = {job} + (rest : Multiset Job) := rfl

theorem coe_concat_eq (jobs : List Job) (job : Job) :
    ((jobs ++ [job] : List Job) : Multiset Job) = (jobs : Multiset Job) + {job} := rfl

theorem Invariant.sends {s s' : Shared Job Result Err} {workers : List (Worker Job Result Err)}
    (h : Invariant protocol plan ⟨s, workers⟩) (hsends : Sends protocol s s') :
    Invariant protocol plan ⟨s', workers⟩ := by
  obtain ⟨collectedJobs, resultJobs, lost, hplaced⟩ := h.placed
  have hplan := hplaced.plan_eq
  cases hsends with
  | send pending room =>
    rename_i job rest
    have hopen : s.closed = true → False := by
      intro hclosed
      have hnone := h.closed hclosed
      rw [pending] at hnone
      cases hnone
    constructor
    case placed =>
      refine ⟨collectedJobs, resultJobs, lost, ⟨?_, hplaced.collected, hplaced.results,
        hplaced.lost_after⟩⟩
      rw [← hplan]
      simp only [pending, coe_cons_eq, coe_concat_eq]
      abel
    case workers =>
      exact fun w hw => (h.workers w hw).mono id fun hdrained => (hopen hdrained.2).elim
    case cancelled => exact h.cancelled
    case closed => exact fun hclosed => (hopen hclosed).elim
    case gone => exact h.gone
    case outcome => exact h.outcome
    case origin => exact h.origin
  | abandon pending cancelled =>
    constructor
    case placed =>
      refine ⟨collectedJobs, resultJobs, lost + (s.sender : Multiset Job), ⟨?_, hplaced.collected,
        hplaced.results, fun _ => h.cancelled cancelled⟩⟩
      rw [← hplan]
      simp only [Multiset.coe_nil]
      abel
    case workers => exact fun w hw => (h.workers w hw).mono id id
    case cancelled => exact h.cancelled
    case closed => exact fun _ => rfl
    case gone => exact h.gone
    case outcome => exact h.outcome
    case origin => exact h.origin
  | close sent opened =>
    constructor
    case placed =>
      exact ⟨collectedJobs, resultJobs, lost, ⟨hplan, hplaced.collected, hplaced.results,
        hplaced.lost_after⟩⟩
    case workers =>
      exact fun w hw => (h.workers w hw).mono id fun hdrained => ⟨hdrained.1, rfl⟩
    case cancelled => exact h.cancelled
    case closed => exact fun _ => sent
    case gone => exact h.gone
    case outcome => exact h.outcome
    case origin => exact h.origin

theorem Invariant.collects {s s' : Shared Job Result Err}
    {workers : List (Worker Job Result Err)} (h : Invariant protocol plan ⟨s, workers⟩)
    (hcollects : Collects s s') : Invariant protocol plan ⟨s', workers⟩ := by
  obtain ⟨collectedJobs, resultJobs, lost, hplaced⟩ := h.placed
  have hplan := hplaced.plan_eq
  cases hcollects with
  | receive ready =>
    rename_i result rest
    have hresults := hplaced.results
    simp only [ready] at hresults
    obtain ⟨job, restJobs, hjob, hrest, rfl⟩ := List.forall₂_cons_right_iff.mp hresults
    constructor
    case placed =>
      refine ⟨collectedJobs ++ [job], restJobs, lost, ⟨?_, List.rel_append hplaced.collected
        (.cons hjob .nil), hrest, hplaced.lost_after⟩⟩
      rw [← hplan]
      simp only [coe_cons_eq, coe_concat_eq]
      abel
    case workers => exact fun w hw => (h.workers w hw).mono id id
    case cancelled => exact h.cancelled
    case closed => exact h.closed
    case gone => exact h.gone
    case outcome =>
      intro o ho
      obtain ⟨-, hempty, -⟩ := h.outcome o ho
      simp only [ready] at hempty
      cases hempty
    case origin => exact h.origin
  | finish drained closed running =>
    constructor
    case placed =>
      exact ⟨collectedJobs, resultJobs, lost, ⟨hplan, hplaced.collected, hplaced.results,
        hplaced.lost_after⟩⟩
    case workers => exact fun w hw => (h.workers w hw).mono id id
    case cancelled => exact h.cancelled
    case closed => exact h.closed
    case gone => exact h.gone
    case outcome =>
      intro o ho
      cases ho
      exact ⟨closed, drained, rfl⟩
    case origin => exact h.origin

/-- What no action of a worker touches. -/
structure Frame (s s' : Shared Job Result Err) : Prop where
  sender : s'.sender = s.sender
  closed : s'.closed = s.closed
  resultsClosed : s'.resultsClosed = s.resultsClosed
  collected : s'.collected = s.collected
  outcome : s'.outcome = s.outcome
  error : s.error.isSome = true → s'.error.isSome = true
  jobs : s.jobs = [] → s'.jobs = []

theorem Acts.frame {s s' : Shared Job Result Err} {w w' : Worker Job Result Err}
    (h : Acts protocol s w s' w') : Frame s s' := by
  cases h with
  | take ready => exact ⟨rfl, rfl, rfl, rfl, rfl, id, fun hnone => by rw [hnone] at ready; cases ready⟩
  | leave | process | fail | cancel | deliver | abandon | finish =>
    exact ⟨rfl, rfl, rfl, rfl, rfl, id, id⟩
  | report => exact ⟨rfl, rfl, rfl, rfl, rfl, fun _ => rfl, id⟩

theorem Acts.ne_done {s s' : Shared Job Result Err} {w w' : Worker Job Result Err}
    (h : Acts protocol s w s' w') : w ≠ .done := by
  cases h <;> nofun

theorem sum_held (before after : List (Worker Job Result Err)) (w : Worker Job Result Err) :
    ((before ++ w :: after).map held).sum =
      (before.map held).sum + held w + (after.map held).sum := by
  rw [List.map_append, List.sum_append, List.map_cons, List.sum_cons, add_assoc]

theorem forall_replace {P : Worker Job Result Err → Prop}
    {before after : List (Worker Job Result Err)} {w w' : Worker Job Result Err}
    (h : ∀ v ∈ before ++ w :: after, P v) (hnew : P w') : ∀ v ∈ before ++ w' :: after, P v := by
  intro v hv
  rcases List.mem_append.mp hv with hv | hv
  · exact h v (List.mem_append_left _ hv)
  · rcases List.mem_cons.mp hv with rfl | hv
    · exact hnew
    · exact h v (List.mem_append_right _ (List.mem_cons_of_mem w hv))

/-- The state that an action leaves a worker in. -/
theorem Acts.sound {s s' : Shared Job Result Err} {w w' : Worker Job Result Err}
    (h : Acts protocol s w s' w') (hw : Sound protocol plan s w) (hplan : ∀ job ∈ held w, job ∈ plan)
    (hcancelled : s.cancelled = true → s.error.isSome = true) : Sound protocol plan s' w' := by
  cases h with
  | take ready => exact .busy _
  | leave drained closed => exact .leaving (.inr ⟨drained, closed⟩)
  | process processed => exact .sending _ _ processed
  | fail failed => exact .failed _ _ (hplan _ (Multiset.mem_singleton_self _)) failed
  | report => exact .cancelling rfl
  | cancel =>
    cases hw with
    | cancelling reported => exact .leaving (.inl reported)
  | deliver room => exact .idle
  | abandon cancelled => exact .leaving (.inl (hcancelled cancelled))
  | finish =>
    cases hw with
    | leaving why => exact .done why

theorem Placed.acts {s s' : Shared Job Result Err} {w w' : Worker Job Result Err}
    {before after : List (Worker Job Result Err)} {collectedJobs resultJobs : List Job}
    {lost : Multiset Job}
    (h : Placed protocol plan ⟨s, before ++ w :: after⟩ collectedJobs resultJobs lost)
    (hw : Sound protocol plan s w) (hcancelled : s.cancelled = true → s.error.isSome = true)
    (hacts : Acts protocol s w s' w') :
    ∃ resultJobs' lost',
      Placed protocol plan ⟨s', before ++ w' :: after⟩ collectedJobs resultJobs' lost' := by
  have hplan := h.plan_eq
  simp only [sum_held] at hplan
  cases hacts with
  | take ready =>
    refine ⟨resultJobs, lost, ⟨?_, h.collected, h.results, h.lost_after⟩⟩
    rw [← hplan]
    simp only [sum_held, held, ready, coe_cons_eq]
    abel
  | leave drained closed =>
    refine ⟨resultJobs, lost, ⟨?_, h.collected, h.results, h.lost_after⟩⟩
    rw [← hplan]
    simp only [sum_held, held]
  | process processed =>
    refine ⟨resultJobs, lost, ⟨?_, h.collected, h.results, h.lost_after⟩⟩
    rw [← hplan]
    simp only [sum_held, held]
  | fail failed =>
    refine ⟨resultJobs, lost, ⟨?_, h.collected, h.results, h.lost_after⟩⟩
    rw [← hplan]
    simp only [sum_held, held]
  | report =>
    rename_i job err
    refine ⟨resultJobs, lost + {job}, ⟨?_, h.collected, h.results, fun _ => rfl⟩⟩
    rw [← hplan]
    simp only [sum_held, held]
    abel
  | cancel =>
    refine ⟨resultJobs, lost, ⟨?_, h.collected, h.results, h.lost_after⟩⟩
    rw [← hplan]
    simp only [sum_held, held]
  | deliver room =>
    rename_i job result
    cases hw with
    | sending _ _ processed =>
      refine ⟨resultJobs ++ [job], lost, ⟨?_, h.collected, List.rel_append h.results
        (.cons processed .nil), h.lost_after⟩⟩
      rw [← hplan]
      simp only [sum_held, held, coe_concat_eq]
      abel
  | abandon cancelled =>
    rename_i job result
    refine ⟨resultJobs, lost + {job}, ⟨?_, h.collected, h.results, fun _ => hcancelled cancelled⟩⟩
    rw [← hplan]
    simp only [sum_held, held]
    abel
  | finish =>
    refine ⟨resultJobs, lost, ⟨?_, h.collected, h.results, h.lost_after⟩⟩
    rw [← hplan]
    simp only [sum_held, held]

theorem Invariant.acts {s s' : Shared Job Result Err} {w w' : Worker Job Result Err}
    {before after : List (Worker Job Result Err)}
    (h : Invariant protocol plan ⟨s, before ++ w :: after⟩) (hacts : Acts protocol s w s' w') :
    Invariant protocol plan ⟨s', before ++ w' :: after⟩ := by
  obtain ⟨collectedJobs, resultJobs, lost, hplaced⟩ := h.placed
  have hmem : w ∈ before ++ w :: after := List.mem_append_right before List.mem_cons_self
  have hw := h.workers w hmem
  have hframe := hacts.frame
  have hrunning : s.resultsClosed = true → False :=
    fun hclosed => hacts.ne_done (h.gone hclosed w hmem)
  have hheld : ∀ job ∈ held w, job ∈ plan := by
    intro job hjob
    have hall : job ∈ (plan : Multiset Job) := by
      rw [← hplaced.plan_eq]
      simp only [sum_held, Multiset.mem_add]
      simp [hjob]
    exact Multiset.mem_coe.mp hall
  constructor
  case placed =>
    obtain ⟨resultJobs', lost', hnext⟩ := hplaced.acts hw h.cancelled hacts
    exact ⟨collectedJobs, resultJobs', lost', hnext⟩
  case workers =>
    have hold : ∀ v ∈ before ++ w :: after, Sound protocol plan s' v := fun v hv =>
      (h.workers v hv).mono hframe.error fun hdrained =>
        ⟨hframe.jobs hdrained.1, hframe.closed.trans hdrained.2⟩
    exact forall_replace hold (hacts.sound hw hheld h.cancelled)
  case cancelled =>
    intro hcancelled
    cases hacts with
    | cancel =>
      cases hw with
      | cancelling reported => exact reported
    | report => rfl
    | take | leave | process | fail | deliver | abandon | finish => exact h.cancelled hcancelled
  case closed =>
    intro hclosed
    rw [hframe.sender]
    exact h.closed (hframe.closed.symm.trans hclosed)
  case gone =>
    intro hclosed
    exact (hrunning (hframe.resultsClosed.symm.trans hclosed)).elim
  case outcome =>
    intro o ho
    exact (hrunning (h.outcome o (hframe.outcome.symm.trans ho)).1).elim
  case origin =>
    intro err herr
    cases hacts with
    | report =>
      rename_i job err'
      cases hw with
      | failed _ _ planned failed =>
        cases hs : s.error with
        | none =>
          rw [hs] at herr
          cases herr
          exact ⟨job, planned, failed⟩
        | some first =>
          rw [hs] at herr
          cases herr
          exact h.origin first hs
    | take | leave | process | fail | cancel | deliver | abandon | finish => exact h.origin err herr

theorem Invariant.step {p p' : Pool Job Result Err} (h : Invariant protocol plan p)
    (hstep : Step protocol p p') : Invariant protocol plan p' := by
  cases hstep with
  | sender sends => exact h.sends sends
  | worker before after acts => exact h.acts acts
  | closeResults gone opened =>
    obtain ⟨collectedJobs, resultJobs, lost, hplaced⟩ := h.placed
    exact ⟨⟨collectedJobs, resultJobs, lost, hplaced.plan_eq, hplaced.collected, hplaced.results,
      hplaced.lost_after⟩, fun w hw => (h.workers w hw).mono id id, h.cancelled, h.closed,
      fun _ => gone, fun o ho => ⟨rfl, (h.outcome o ho).2⟩, h.origin⟩
  | collector collects => exact h.collects collects

theorem Invariant.reaches {p p' : Pool Job Result Err} (h : Invariant protocol plan p)
    (hrun : Reaches protocol p p') : Invariant protocol plan p' := by
  induction hrun with
  | refl => exact h
  | tail _ hstep ih => exact ih.step hstep

/-! ## Outcomes -/

/-- Returned results are those of all planned jobs, each job once. -/
theorem Invariant.outcome_ok {p : Pool Job Result Err} (h : Invariant protocol plan p)
    (hworkers : p.workers ≠ []) {results : List Result}
    (houtcome : p.shared.outcome = some (.ok results)) :
    ∃ jobs : List Job, jobs.Perm plan ∧ List.Forall₂ protocol.processes jobs results := by
  obtain ⟨hclosed, hdrained, hreturned⟩ := h.outcome _ houtcome
  have hgone := h.gone hclosed
  obtain ⟨collectedJobs, resultJobs, lost, hplaced⟩ := h.placed
  have hnone : p.shared.error = none := by
    cases herror : p.shared.error with
    | none => rfl
    | some err =>
      rw [returned, herror] at hreturned
      cases hreturned
  have hcollected : results = p.shared.collected := by
    rw [returned, hnone] at hreturned
    exact Except.ok.inj hreturned
  have hquiet : p.shared.jobs = [] ∧ p.shared.closed = true := by
    obtain ⟨w, hw⟩ := List.exists_mem_of_ne_nil _ hworkers
    have hsound := h.workers w hw
    rw [hgone w hw] at hsound
    cases hsound with
    | done why =>
      refine why.resolve_left ?_
      rw [hnone]
      nofun
  have hlost : lost = 0 := by
    by_contra hsome
    have herror := hplaced.lost_after hsome
    rw [hnone] at herror
    cases herror
  have hheld : (p.workers.map held).sum = 0 := by
    have hall : p.workers.map held = p.workers.map fun _ => 0 :=
      List.map_congr_left fun w hw => by rw [hgone w hw]; rfl
    rw [hall]
    simp
  have hresults : resultJobs = [] := by
    have hlist := hplaced.results
    rw [hdrained] at hlist
    exact List.forall₂_nil_right_iff.mp hlist
  refine ⟨collectedJobs, ?_, hcollected ▸ hplaced.collected⟩
  have hplan := hplaced.plan_eq
  rw [hresults, hheld, hquiet.1, h.closed hquiet.2, hlost] at hplan
  simpa using hplan

/-- A returned error is that of a planned job. -/
theorem Invariant.outcome_error {p : Pool Job Result Err} (h : Invariant protocol plan p)
    {err : Err} (houtcome : p.shared.outcome = some (.error err)) :
    ∃ job ∈ plan, protocol.fails job err := by
  obtain ⟨-, -, hreturned⟩ := h.outcome _ houtcome
  cases herror : p.shared.error with
  | none =>
    rw [returned, herror] at hreturned
    cases hreturned
  | some first =>
    rw [returned, herror] at hreturned
    cases hreturned
    exact h.origin err herror

/-- An error is in the slot, or a worker is about to put one there. -/
def Doomed (p : Pool Job Result Err) : Prop :=
  p.shared.error.isSome = true ∨ ∃ job err, .failed job err ∈ p.workers

theorem Doomed.step {p p' : Pool Job Result Err} (h : Doomed p) (hstep : Step protocol p p') :
    Doomed p' := by
  cases hstep with
  | sender sends =>
    cases sends <;> exact h
  | closeResults => exact h
  | collector collects =>
    cases collects <;> exact h
  | worker before after acts =>
    rename_i s s' w w'
    rcases h with herror | ⟨job, err, hmem⟩
    · exact .inl (acts.frame.error herror)
    · by_cases hw : w = .failed job err
      · subst hw
        cases acts with
        | report => exact .inl rfl
      · refine .inr ⟨job, err, ?_⟩
        rcases List.mem_append.mp hmem with hmem | hmem
        · exact List.mem_append_left _ hmem
        · rcases List.mem_cons.mp hmem with heq | hmem
          · exact absurd heq.symm hw
          · exact List.mem_append_right _ (List.mem_cons_of_mem w' hmem)

/-- A worker's error is never dropped. -/
theorem Invariant.doomed_outcome {p p' : Pool Job Result Err} (h : Invariant protocol plan p)
    (hdoomed : Doomed p) (hrun : Reaches protocol p p') {o : Except Err (List Result)}
    (houtcome : p'.shared.outcome = some o) : ∃ err, o = .error err := by
  have hlast : Doomed p' := by
    clear houtcome
    induction hrun with
    | refl => exact hdoomed
    | tail _ hstep ih => exact ih.step hstep
  obtain ⟨hclosed, -, hreturned⟩ := (h.reaches hrun).outcome o houtcome
  rcases hlast with herror | ⟨job, err, hmem⟩
  · obtain ⟨err, herr⟩ := Option.isSome_iff_exists.mp herror
    exact ⟨err, by rw [hreturned, returned, herr]⟩
  · have hdone := (h.reaches hrun).gone hclosed _ hmem
    cases hdone

/-! ## Termination -/

def weight : Worker Job Result Err → Nat
  | .idle => 2
  | .busy _ => 8
  | .sending _ _ => 7
  | .failed _ _ => 4
  | .cancelling => 3
  | .leaving => 1
  | .done => 0

/-- What is left to do. -/
def remaining (p : Pool Job Result Err) : Nat :=
  8 * p.shared.sender.length + 7 * p.shared.jobs.length + (p.workers.map weight).sum +
    2 * p.shared.results.length + (!p.shared.closed).toNat + (!p.shared.resultsClosed).toNat +
    p.shared.outcome.isNone.toNat

theorem remaining_step {p p' : Pool Job Result Err} (h : Step protocol p p') :
    remaining p' < remaining p := by
  cases h with
  | sender sends =>
    cases sends with
    | send pending room =>
      simp only [remaining, pending, List.length_cons, List.length_append, List.length_nil]
      omega
    | abandon pending cancelled =>
      have hpos := List.length_pos_iff.mpr pending
      simp only [remaining, List.length_nil]
      omega
    | close sent opened =>
      simp only [remaining, opened, Bool.not_true, Bool.not_false, Bool.toNat_true,
        Bool.toNat_false]
      omega
  | worker before after acts =>
    simp only [remaining, List.map_append, List.sum_append, List.map_cons, List.sum_cons]
    cases acts with
    | take ready =>
      simp only [weight, ready, List.length_cons]
      omega
    | deliver room =>
      simp only [weight, List.length_append, List.length_cons, List.length_nil]
      omega
    | leave | process | fail | report | cancel | abandon | finish =>
      simp only [weight]
      omega
  | closeResults gone opened =>
    simp only [remaining, opened, Bool.not_true, Bool.not_false, Bool.toNat_true,
      Bool.toNat_false]
    omega
  | collector collects =>
    cases collects with
    | receive ready =>
      simp only [remaining, ready, List.length_cons]
      omega
    | finish drained closed running =>
      simp only [remaining, running, Option.isNone_none, Option.isNone_some, Bool.toNat_true,
        Bool.toNat_false]
      omega

/-- A run has no more steps than there is left to do. -/
theorem run_bounded {run : Nat → Pool Job Result Err} {n : Nat}
    (h : ∀ i < n, Step protocol (run i) (run (i + 1))) : n + remaining (run n) ≤ remaining (run 0) := by
  induction n with
  | zero => omega
  | succ n ih =>
    have hbefore := ih fun i hi => h i (by omega)
    have hlast := remaining_step (h n (by omega))
    omega

/-- Until the collector has returned, some party can act. -/
theorem Invariant.progress {p : Pool Job Result Err} (h : Invariant protocol plan p)
    (htotal : ∀ job, (∃ result, protocol.processes job result) ∨ ∃ err, protocol.fails job err)
    (hroom : 0 < protocol.capacity) (hrunning : p.shared.outcome = none) :
    ∃ p', Step protocol p p' := by
  obtain ⟨s, workers⟩ := p
  by_cases hdone : ∀ w ∈ workers, w = .done
  · cases hclosed : s.resultsClosed with
    | false => exact ⟨_, .closeResults hdone hclosed⟩
    | true =>
      cases hresults : s.results with
      | nil => exact ⟨_, .collector (.finish hresults hclosed hrunning)⟩
      | cons result rest => exact ⟨_, .collector (.receive hresults)⟩
  · push Not at hdone
    obtain ⟨w, hw, hne⟩ := hdone
    obtain ⟨before, after, rfl⟩ := List.append_of_mem hw
    cases w with
    | idle =>
      cases hjobs : s.jobs with
      | cons job rest => exact ⟨_, .worker before after (.take hjobs)⟩
      | nil =>
        cases hclosed : s.closed with
        | true => exact ⟨_, .worker before after (.leave hjobs hclosed)⟩
        | false =>
          cases hsender : s.sender with
          | nil => exact ⟨_, .sender (.close hsender hclosed)⟩
          | cons job rest => exact ⟨_, .sender (.send hsender (by rw [hjobs]; exact hroom))⟩
    | busy job =>
      rcases htotal job with ⟨result, hprocess⟩ | ⟨err, hfail⟩
      · exact ⟨_, .worker before after (.process hprocess)⟩
      · exact ⟨_, .worker before after (.fail hfail)⟩
    | sending job result =>
      -- a full channel has a result that the collector takes
      by_cases hfull : s.results.length < protocol.capacity
      · exact ⟨_, .worker before after (.deliver hfull)⟩
      · cases hresults : s.results with
        | nil =>
          rw [hresults] at hfull
          exact absurd hroom hfull
        | cons first rest => exact ⟨_, .collector (.receive hresults)⟩
    | failed job err => exact ⟨_, .worker before after .report⟩
    | cancelling => exact ⟨_, .worker before after .cancel⟩
    | leaving => exact ⟨_, .worker before after .finish⟩
    | done => exact absurd rfl hne

end WorkerPool
