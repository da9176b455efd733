import Mathlib.Data.List.Nodup
import SupplyAudit.FallibleScan
import SupplyAudit.KeyedTable

/-!
# Batches of requests

A client numbers the requests of a batch, and the replies carry the numbers in
any order. An attempt that fails is made again a bounded number of times. A batch
that is read in the end gives every request its own reply, whichever attempts
failed before and in whichever order the replies came.
-/

namespace BatchReplies

open FallibleScan

variable {ε α ρ : Type}

/-! ## Trying again -/

/-- The first attempt that succeeds, from a number on; after so many more attempts the last one
counts as it is. -/
def retryFrom (attempts : Nat → Except ε α) (first : Nat) : Nat → Except ε α
  | 0 => attempts first
  | more + 1 =>
    match attempts first with
    | .ok a => .ok a
    | .error _ => retryFrom attempts (first + 1) more

/-- What the first success gives is returned. -/
theorem retryFrom_ok_iff {attempts : Nat → Except ε α} {first more : Nat} {a : α} :
    retryFrom attempts first more = .ok a ↔
      ∃ i ≤ more, attempts (first + i) = .ok a ∧ ∀ j < i, ∃ e, attempts (first + j) = .error e := by
  induction more generalizing first with
  | zero =>
    constructor
    · intro h
      exact ⟨0, Nat.le_refl 0, h, fun j hj => absurd hj (Nat.not_lt_zero j)⟩
    · rintro ⟨i, hi, hok, -⟩
      rw [Nat.le_zero.mp hi] at hok
      exact hok
  | succ more ih =>
    rw [retryFrom]
    cases hfirst : attempts first with
    | ok found =>
      constructor
      · intro h
        exact ⟨0, Nat.zero_le _, hfirst.trans h, fun j hj => absurd hj (Nat.not_lt_zero j)⟩
      · rintro ⟨i, -, hok, hbefore⟩
        cases i with
        | zero => exact hfirst.symm.trans hok
        | succ i =>
          obtain ⟨e, he⟩ := hbefore 0 (Nat.succ_pos i)
          cases hfirst.symm.trans he
    | error err =>
      dsimp only
      rw [ih]
      constructor
      · rintro ⟨i, hi, hok, hbefore⟩
        refine ⟨i + 1, Nat.succ_le_succ hi, ?_, ?_⟩
        · rw [← hok, Nat.add_assoc, Nat.add_comm 1]
        · intro j hj
          cases j with
          | zero => exact ⟨err, hfirst⟩
          | succ j =>
            obtain ⟨e, he⟩ := hbefore j (Nat.lt_of_succ_lt_succ hj)
            exact ⟨e, by rw [← he, Nat.add_assoc, Nat.add_comm 1]⟩
      · rintro ⟨i, hi, hok, hbefore⟩
        cases i with
        | zero => cases hfirst.symm.trans hok
        | succ i =>
          refine ⟨i, Nat.le_of_succ_le_succ hi, ?_, ?_⟩
          · rw [← hok, Nat.add_assoc, Nat.add_comm 1]
          · intro j hj
            obtain ⟨e, he⟩ := hbefore (j + 1) (Nat.succ_lt_succ hj)
            exact ⟨e, by rw [← he, Nat.add_assoc, Nat.add_comm 1]⟩

/-- What every success satisfies is true of what is returned. -/
theorem retryFrom_sound {attempts : Nat → Except ε α} {P : α → Prop} {first more : Nat}
    (hsound : ∀ i a, attempts i = .ok a → P a) {a : α} (h : retryFrom attempts first more = .ok a) :
    P a := by
  obtain ⟨i, -, hok, -⟩ := retryFrom_ok_iff.mp h
  exact hsound _ a hok

/-- If all successes agree, one of them in time is enough. -/
theorem retryFrom_of_ok {attempts : Nat → Except ε α} {first more i : Nat} {a : α} (hi : i ≤ more)
    (hok : attempts (first + i) = .ok a) (hagree : ∀ j b, attempts j = .ok b → b = a) :
    retryFrom attempts first more = .ok a := by
  induction more generalizing first i with
  | zero =>
    rw [Nat.le_zero.mp hi] at hok
    exact hok
  | succ more ih =>
    rw [retryFrom]
    cases hfirst : attempts first with
    | ok b => exact congrArg Except.ok (hagree first b hfirst)
    | error err =>
      cases i with
      | zero => cases hfirst.symm.trans hok
      | succ i =>
        have hlater : attempts (first + 1 + i) = .ok a := by
          rw [← hok, Nat.add_assoc, Nat.add_comm 1]
        exact ih (Nat.le_of_succ_le_succ hi) hlater

/-- What stops an attempt: the connection, an error that the server reports, or something else. -/
inductive CallError where
  | connection (text : String)
  | reported (text : String)
  | other (text : String)
  deriving DecidableEq

def CallError.text : CallError → String
  | .connection text => text
  | .reported text => text
  | .other text => text

/-- The same where only some errors are caught; another one ends the attempts. -/
def retryIf (caught : ε → Bool) (attempts : Nat → Except ε α) (first : Nat) : Nat → Except ε α
  | 0 => attempts first
  | more + 1 =>
    match attempts first with
    | .ok a => .ok a
    | .error err => if caught err then retryIf caught attempts (first + 1) more else .error err

/-- What every success satisfies is true of what is returned. -/
theorem retryIf_sound {caught : ε → Bool} {attempts : Nat → Except ε α} {P : α → Prop}
    {first more : Nat} (hsound : ∀ i a, attempts i = .ok a → P a) {a : α}
    (h : retryIf caught attempts first more = .ok a) : P a := by
  induction more generalizing first with
  | zero => exact hsound first a h
  | succ more ih =>
    rw [retryIf] at h
    split at h
    · rename_i b hb
      cases h
      exact hsound first _ hb
    · split at h
      · exact ih h
      · cases h

/-- An attempt succeeds in time, and the errors before it are caught. -/
def AnsweredBy (caught : ε → Bool) (attempts : Nat → Except ε α) (more : Nat) (a : α) : Prop :=
  ∃ i ≤ more, attempts i = .ok a ∧ ∀ j < i, ∃ err, attempts j = .error err ∧ caught err = true

theorem retryIf_eq_ok {caught : ε → Bool} {attempts : Nat → Except ε α} {more : Nat} {a : α}
    (h : AnsweredBy caught attempts more a) : retryIf caught attempts 0 more = .ok a := by
  have hrun : ∀ (i first more : Nat), i ≤ more → attempts (first + i) = .ok a →
      (∀ j < i, ∃ err, attempts (first + j) = .error err ∧ caught err = true) →
      retryIf caught attempts first more = .ok a := by
    intro i
    induction i with
    | zero =>
      intro first more _ hok _
      cases more with
      | zero => exact hok
      | succ more =>
        rw [retryIf, show attempts first = .ok a from hok]
    | succ i ih =>
      intro first more hi hok hbefore
      cases more with
      | zero => exact absurd hi (Nat.not_succ_le_zero i)
      | succ more =>
        obtain ⟨err, herr, hcaught⟩ := hbefore 0 (Nat.succ_pos i)
        have hshift : ∀ j : Nat, first + 1 + j = first + (j + 1) := fun j => by omega
        rw [retryIf, show attempts first = .error err from herr]
        dsimp only
        rw [hcaught, if_pos rfl]
        refine ih (first + 1) more (Nat.le_of_succ_le_succ hi) ?_ ?_
        · rw [hshift, hok]
        · intro j hj
          rw [hshift]
          exact hbefore (j + 1) (Nat.succ_lt_succ hj)
  obtain ⟨i, hi, hok, hbefore⟩ := h
  refine hrun i 0 more hi ?_ ?_
  · rwa [Nat.zero_add]
  · intro j hj
    rw [Nat.zero_add]
    exact hbefore j hj

/-! ## Reading the replies -/

/-- A numbered reply: an answer, or the error that the server reports. -/
structure Reply (ε ρ : Type) where
  id : Int
  outcome : Except ε ρ

/-- The replies by their numbers; a later reply replaces an earlier one. -/
def byId (replies : List (Reply ε ρ)) : List (Int × Except ε ρ) :=
  replies.foldl (fun table reply => KeyedTable.set table reply.id reply.outcome) []

def replyAt (table : List (Int × Except ε ρ)) (missing : Int → ε) (id : Int) : Except ε ρ :=
  match table.lookup id with
  | none => .error (missing id)
  | some outcome => outcome

/-- The answers to the requests with these numbers, in their order. -/
def answersAt (missing : Int → ε) (ids : List Int) (replies : List (Reply ε ρ)) :
    Except ε (List ρ) :=
  ids.mapM (replyAt (byId replies) missing)

theorem nodup_byId (replies : List (Reply ε ρ)) : ((byId replies).map Prod.fst).Nodup :=
  KeyedTable.nodup_foldl_set Reply.id Reply.outcome replies List.nodup_nil

theorem mem_ids_byId (replies : List (Reply ε ρ)) (id : Int) :
    id ∈ (byId replies).map Prod.fst ↔ id ∈ replies.map Reply.id := by
  rw [byId, KeyedTable.mem_keys_foldl_set Reply.id Reply.outcome replies [] id]
  exact or_iff_left List.not_mem_nil

/-- Every entry is one of the replies. -/
theorem mem_of_mem_byId {replies : List (Reply ε ρ)} :
    ∀ entry ∈ byId replies, ∃ reply ∈ replies, reply.id = entry.1 ∧ reply.outcome = entry.2 := by
  have hrun : ∀ (rest : List (Reply ε ρ)) (table : List (Int × Except ε ρ)),
      (∀ reply ∈ rest, reply ∈ replies) →
      (∀ entry ∈ table, ∃ reply ∈ replies, reply.id = entry.1 ∧ reply.outcome = entry.2) →
      ∀ entry ∈ rest.foldl (fun table reply => KeyedTable.set table reply.id reply.outcome) table,
        ∃ reply ∈ replies, reply.id = entry.1 ∧ reply.outcome = entry.2 := by
    intro rest
    induction rest with
    | nil => exact fun _ _ htable => htable
    | cons first rest ih =>
      intro table hrest htable
      obtain ⟨hfirst, hrest⟩ := List.forall_mem_cons.mp hrest
      exact ih _ hrest (KeyedTable.forall_set htable ⟨first, hfirst, rfl, rfl⟩)
  exact hrun replies [] (fun _ h => h) fun _ h => absurd h List.not_mem_nil

/-- With distinct numbers a reply is found under its own. -/
theorem lookup_byId {replies : List (Reply ε ρ)} (h : (replies.map Reply.id).Nodup)
    {reply : Reply ε ρ} (hmem : reply ∈ replies) :
    (byId replies).lookup reply.id = some reply.outcome := by
  have hkey : reply.id ∈ (byId replies).map Prod.fst :=
    (mem_ids_byId replies reply.id).mpr (List.mem_map_of_mem hmem)
  obtain ⟨entry, hentry, heq⟩ := List.mem_map.mp hkey
  obtain ⟨other, hother, hid, houtcome⟩ := mem_of_mem_byId entry hentry
  have hsame : other = reply := List.inj_on_of_nodup_map h hother hmem (hid.trans heq)
  rw [← heq, KeyedTable.lookup_of_mem (nodup_byId replies) hentry, ← houtcome, hsame]

theorem length_byId {replies : List (Reply ε ρ)} (h : (replies.map Reply.id).Nodup) :
    (byId replies).length = replies.length := by
  have hperm : ((byId replies).map Prod.fst).Perm (replies.map Reply.id) :=
    (List.perm_ext_iff_of_nodup (nodup_byId replies) h).mpr (mem_ids_byId replies)
  simpa using hperm.length_eq

/-- Replies with distinct numbers may come in any order. -/
theorem lookup_byId_perm {replies replies' : List (Reply ε ρ)} (h : (replies.map Reply.id).Nodup)
    (hperm : replies.Perm replies') (id : Int) :
    (byId replies).lookup id = (byId replies').lookup id := by
  have h' : (replies'.map Reply.id).Nodup := (hperm.map Reply.id).nodup h
  by_cases hid : id ∈ replies.map Reply.id
  · obtain ⟨reply, hmem, rfl⟩ := List.mem_map.mp hid
    rw [lookup_byId h hmem, lookup_byId h' (hperm.mem_iff.mp hmem)]
  · have hnone : id ∉ (byId replies).map Prod.fst := fun hin => hid ((mem_ids_byId _ _).mp hin)
    have hnone' : id ∉ (byId replies').map Prod.fst := fun hin =>
      hid ((hperm.map Reply.id).mem_iff.mpr ((mem_ids_byId _ _).mp hin))
    rw [(KeyedTable.lookup_eq_none_iff _ id).mpr hnone,
      (KeyedTable.lookup_eq_none_iff _ id).mpr hnone']

theorem answersAt_perm {missing : Int → ε} {ids : List Int} {replies replies' : List (Reply ε ρ)}
    (h : (replies.map Reply.id).Nodup) (hperm : replies.Perm replies') :
    answersAt missing ids replies = answersAt missing ids replies' := by
  rw [answersAt, answersAt]
  apply mapM_congr
  intro id _
  rw [replyAt, replyAt, lookup_byId_perm h hperm]

/-- An answer is the outcome of a reply under the number of its request. -/
theorem answersAt_replies {missing : Int → ε} {ids : List Int} {replies : List (Reply ε ρ)}
    {values : List ρ} (h : answersAt missing ids replies = .ok values) :
    List.Forall₂ (fun id value => ∃ reply ∈ replies, reply.id = id ∧ reply.outcome = .ok value)
      ids values := by
  refine (mapM_ok_iff.mp h).imp ?_
  intro id value hvalue
  rw [replyAt] at hvalue
  cases hfound : (byId replies).lookup id with
  | none =>
    rw [hfound] at hvalue
    cases hvalue
  | some outcome =>
    rw [hfound] at hvalue
    obtain ⟨reply, hreply, hid, houtcome⟩ :=
      mem_of_mem_byId (id, outcome) (KeyedTable.mem_of_lookup hfound)
    exact ⟨reply, hreply, hid, houtcome.trans hvalue⟩

/-- The same of requests that are numbered by their places. -/
theorem forall₂_places {α β : Type} {P : Nat → β → Prop} {l : List α} {values : List β}
    (h : List.Forall₂ P (List.range l.length) values) :
    List.Forall₂ (fun a value => ∃ i, l[i]? = some a ∧ P i value) l values := by
  rw [List.forall₂_iff_get] at h ⊢
  obtain ⟨hlength, hat⟩ := h
  rw [List.length_range] at hlength
  refine ⟨hlength, fun i hi hi' => ⟨i, ?_, ?_⟩⟩
  · rw [List.getElem?_eq_getElem hi]
    rfl
  · have hplace := hat i (by rwa [List.length_range]) hi'
    rwa [List.get_eq_getElem, List.getElem_range] at hplace

/-- Every answer to one of the requests is the right one. -/
def Honest (answer : Int → ρ) (ids : List Int) (replies : List (Reply ε ρ)) : Prop :=
  ∀ reply ∈ replies, reply.id ∈ ids → ∀ value, reply.outcome = .ok value → value = answer reply.id

/-- Every request has its answer, and the replies have distinct numbers. -/
structure Complete (answer : Int → ρ) (ids : List Int) (replies : List (Reply ε ρ)) : Prop where
  distinct : (replies.map Reply.id).Nodup
  answered : ∀ id ∈ ids, ⟨id, .ok (answer id)⟩ ∈ replies

/-- Requests sent in batches of one size; their answers one after the other. -/
def answerBatches {κ : Type} (size : Nat) (answer : List κ → Except ε (List ρ)) :
    Nat → List κ → Except ε (List ρ)
  | 0, _ => .ok []
  | fuel + 1, requests =>
    if requests.isEmpty then .ok []
    else do
      let first ← answer (requests.take size)
      let rest ← answerBatches size answer fuel (requests.drop size)
      .ok (first ++ rest)

/-- If the answers of each batch belong to its requests, all of them do. -/
theorem answerBatches_sound {κ : Type} {size : Nat} (hsize : 0 < size)
    {answer : List κ → Except ε (List ρ)} {R : κ → ρ → Prop}
    (hsound : ∀ batch values, answer batch = .ok values → List.Forall₂ R batch values) {fuel : Nat}
    {requests : List κ} (hfuel : requests.length ≤ fuel) {values : List ρ}
    (h : answerBatches size answer fuel requests = .ok values) : List.Forall₂ R requests values := by
  induction fuel generalizing requests values with
  | zero =>
    cases h
    rw [List.length_eq_zero_iff.mp (Nat.le_zero.mp hfuel)]
    exact .nil
  | succ fuel ih =>
    rw [answerBatches] at h
    split at h
    · rename_i hempty
      cases h
      rw [List.isEmpty_iff.mp hempty]
      exact .nil
    · simp only [bind_eq_ok] at h
      obtain ⟨first, hfirst, rest, hrest, h⟩ := h
      cases h
      have hleft : (requests.drop size).length ≤ fuel := by
        rw [List.length_drop]
        omega
      have hboth : List.Forall₂ R (requests.take size ++ requests.drop size) (first ++ rest) :=
        List.rel_append (hsound _ _ hfirst) (ih hleft hrest)
      rwa [List.take_append_drop] at hboth

/-- Honest replies are read as the answers to the requests. -/
theorem answersAt_honest {answer : Int → ρ} {missing : Int → ε} {ids : List Int}
    {replies : List (Reply ε ρ)} (hhonest : Honest answer ids replies) {values : List ρ}
    (h : answersAt missing ids replies = .ok values) : values = ids.map answer := by
  have hown : List.Forall₂ (fun id value => answer id = value) ids values := by
    refine ((List.forall₂_and_left _ _).mpr ⟨fun id hid => hid, answersAt_replies h⟩).imp ?_
    rintro id value ⟨hid, reply, hreply, rfl, houtcome⟩
    exact (hhonest reply hreply hid value houtcome).symm
  rw [← List.forall₂_map_left_iff, List.forall₂_eq_eq_eq] at hown
  exact hown.symm

/-- A reply to every request, none of them an error, is read. -/
theorem answersAt_complete {answer : Int → ρ} {missing : Int → ε} {ids : List Int}
    {replies : List (Reply ε ρ)} (h : Complete answer ids replies) :
    answersAt missing ids replies = .ok (ids.map answer) := by
  rw [answersAt]
  apply mapM_ok_of
  intro id hid
  have hfound := lookup_byId h.distinct (h.answered id hid)
  simp only at hfound
  rw [replyAt, hfound]

end BatchReplies
