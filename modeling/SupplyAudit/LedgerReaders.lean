import SupplyAudit.ActualSupplyLedger
import SupplyAudit.KeyedMerge

/-!
# What the ledger's readers yield

A run that comes to its end has read each file completely. What a cursor gives
out over such a run is a list of keyed rows: the file's own rows in order, with
their lower-cased keys, and those keys strictly increase.
-/

namespace LedgerReaders

open ScriptValues FallibleScan ActualSupplyLedger KeyedMerge

variable {py : PyText}

/-- `row["secure_key"].lower()` -/
def rowKey (py : PyText) (row : Row) : Except PyError String := do
  let value ← row.get "secure_key"
  py.lowered value

/-- Everything that resuming a reader can do, errors apart. -/
theorem next_ok {s s' : RowStream} {head : Option KeyedRow} (h : s.next py = .ok (head, s')) :
    (s.rest = [] ∧ head = none ∧ s' = s) ∨
      ∃ row rest key, s.rest = row :: rest ∧ rowKey py row = .ok key ∧
        (∀ p ∈ s.previous, p < key) ∧ head = some ⟨key, row⟩ ∧
        s' = { s with rest := rest, previous := some key, line := s.line + 1 } := by
  rw [RowStream.next] at h
  cases hr : s.rest with
  | nil =>
    rw [hr] at h
    cases h
    exact Or.inl ⟨rfl, rfl, rfl⟩
  | cons row rest =>
    simp only [hr, bind_eq_ok] at h
    obtain ⟨value, hvalue, key, hkey, h⟩ := h
    split at h
    · cases h
    · rename_i hlt
      cases h
      refine Or.inr ⟨row, rest, key, rfl, ?_, ?_, rfl, rfl⟩
      · rw [rowKey, bind_eq_ok]
        exact ⟨value, hvalue, hkey⟩
      · intro p hp
        exact not_le.mp (fun hle => hlt ⟨p, hp, hle⟩)

/-- The rows that a cursor gives out when it is read to the end. -/
inductive Reads (py : PyText) : Cursor → List KeyedRow → Prop where
  | done (s : RowStream) (exhausted : s.rest = []) : Reads py ⟨none, s⟩ []
  | more (row : KeyedRow) (s s' : RowStream) (head : Option KeyedRow) (l : List KeyedRow)
      (next : s.next py = .ok (head, s')) (reads : Reads py ⟨head, s'⟩ l) :
      Reads py ⟨some row, s⟩ (row :: l)

theorem Reads.head {c : Cursor} {l : List KeyedRow} (h : Reads py c l) : c.head = l.head? := by
  cases h with
  | done => rfl
  | more => rfl

/-- The rows of a file under their lower-cased keys, in increasing order. -/
structure KeyedAs (py : PyText) (rows : List Row) (l : List KeyedRow) : Prop where
  fields : l.map KeyedRow.fields = rows
  keys : ∀ r ∈ l, rowKey py r.fields = .ok r.secureKey
  increasing : Increasing KeyedRow.secureKey l

theorem KeyedAs.nil : KeyedAs py [] [] := ⟨rfl, nofun, List.Pairwise.nil⟩

theorem KeyedAs.find_of_mem {rows : List Row} {l : List KeyedRow} (h : KeyedAs py rows l)
    {row : Row} (hrow : row ∈ rows) {key : String} (hkey : rowKey py row = .ok key) :
    ∃ r ∈ l, r.secureKey = key ∧ r.fields = row ∧ find KeyedRow.secureKey key l = some r := by
  rw [← h.fields] at hrow
  obtain ⟨r, hr, rfl⟩ := List.mem_map.mp hrow
  have hown := h.keys r hr
  rw [hkey, Except.ok.injEq] at hown
  subst hown
  exact ⟨r, hr, rfl, rfl, KeyedMerge.find_of_mem h.increasing hr⟩

/-- Some row's key is not above the key of an earlier row. -/
def OutOfOrder (py : PyText) (rows : List Row) : Prop :=
  ∃ earlier later k k', [earlier, later].Sublist rows ∧ rowKey py earlier = .ok k ∧
    rowKey py later = .ok k' ∧ k' ≤ k

theorem KeyedAs.not_outOfOrder {rows : List Row} {l : List KeyedRow} (h : KeyedAs py rows l) :
    ¬ OutOfOrder py rows := by
  rintro ⟨earlier, later, k, k', hsub, hk, hk', hle⟩
  rw [← h.fields] at hsub
  obtain ⟨l', hl', hmap⟩ := List.sublist_map_iff.mp hsub
  match l', hmap with
  | [a, b], hmap =>
    simp only [List.map_cons, List.map_nil, List.cons.injEq, and_true] at hmap
    obtain ⟨rfl, rfl⟩ := hmap
    have hlt := List.rel_of_pairwise_cons (h.increasing.sublist hl') List.mem_cons_self
    have ha := h.keys a (hl'.subset List.mem_cons_self)
    have hb := h.keys b (hl'.subset (List.mem_cons_of_mem a List.mem_cons_self))
    rw [hk, Except.ok.injEq] at ha
    rw [hk', Except.ok.injEq] at hb
    rw [← ha, ← hb] at hlt
    exact absurd hlt (not_lt.mpr hle)

/-- From a resumed reader on, the rest of the file is given out after its last key. -/
theorem Reads.keyedAs {s s' : RowStream} {head : Option KeyedRow} {l : List KeyedRow}
    (h : Reads py ⟨head, s'⟩ l) (hnext : s.next py = .ok (head, s')) :
    KeyedAs py s.rest l ∧ ∀ p ∈ s.previous, ∀ r ∈ l, p < r.secureKey := by
  generalize hc : (⟨head, s'⟩ : Cursor) = c at h
  induction h generalizing s s' head with
  | done t exhausted =>
    cases hc
    rcases next_ok hnext with ⟨hrest, -, -⟩ | ⟨row, rest, key, -, -, -, hhead, -⟩
    · rw [hrest]
      exact ⟨KeyedAs.nil, fun _ _ _ hr => absurd hr List.not_mem_nil⟩
    · cases hhead
  | more row t t' head' l next reads ih =>
    cases hc
    rcases next_ok hnext with ⟨-, hhead, -⟩ | ⟨raw, rest, key, hrest, hkey, hlt, hhead, rfl⟩
    · cases hhead
    · cases hhead
      obtain ⟨htail, hafter⟩ := ih next rfl
      have hkeys : ∀ r ∈ l, key < r.secureKey := hafter key rfl
      rw [hrest]
      refine ⟨⟨?_, ?_, List.pairwise_cons.mpr ⟨hkeys, htail.increasing⟩⟩, ?_⟩
      · rw [List.map_cons, htail.fields]
      · intro r hr
        rcases List.mem_cons.mp hr with rfl | hr
        · exact hkey
        · exact htail.keys r hr
      · intro p hp r hr
        rcases List.mem_cons.mp hr with rfl | hr
        · exact hlt p hp
        · exact (hlt p hp).trans (hkeys r hr)

theorem Reads.keyedAs_start {path : String} {rows : List Row} {c : Cursor} {l : List KeyedRow}
    (h : Reads py c l) (hstart : Cursor.start py path rows = .ok c) : KeyedAs py rows l := by
  rw [Cursor.start, bind_eq_ok] at hstart
  obtain ⟨⟨head, s⟩, hnext, hc⟩ := hstart
  cases hc
  exact (h.keyedAs hnext).1

/-- What a cursor reads after a step extends to what it read before. -/
theorem Reads.exists_before {c c' : Cursor} {key : String} {taken : Option KeyedRow}
    {l' : List KeyedRow} (h : Reads py c' l') (htake : c.take py key = .ok (taken, c')) :
    ∃ l, Reads py c l := by
  obtain ⟨head, s⟩ := c
  rw [Cursor.take] at htake
  split at htake
  · cases htake
    exact ⟨l', h⟩
  · rename_i row hsome
    rw [bind_eq_ok] at htake
    obtain ⟨⟨head', s'⟩, hnext, heq⟩ := htake
    cases heq
    obtain ⟨hhead, -⟩ := Option.filter_eq_some_iff.mp hsome
    dsimp only at hhead
    subst hhead
    exact ⟨row :: l', .more row s s' head' l' hnext h⟩

theorem taken_eq {c c' : Cursor} {key : String} {taken : Option KeyedRow}
    (h : c.take py key = .ok (taken, c')) :
    taken = c.head.filter (fun r => r.secureKey = key) := by
  rw [Cursor.take] at h
  split at h
  · rename_i hnone
    cases h
    exact hnone.symm
  · rename_i row hsome
    rw [bind_eq_ok] at h
    obtain ⟨_, -, heq⟩ := h
    cases heq
    exact hsome.symm

/-- Taking a key moves a cursor along the list it reads. -/
theorem Reads.advance {c c' : Cursor} {key : String} {taken : Option KeyedRow}
    {l : List KeyedRow} (h : Reads py c l) (htake : c.take py key = .ok (taken, c')) :
    taken = current KeyedRow.secureKey key l ∧
      Reads py c' (KeyedMerge.advance KeyedRow.secureKey key l) := by
  refine ⟨?_, ?_⟩
  · rw [taken_eq htake, h.head, current]
  · rw [Cursor.take] at htake
    cases h with
    | done s exhausted =>
      cases htake
      exact .done s exhausted
    | more row s s' head l next reads =>
      by_cases hkey : row.secureKey = key
      · simp only [Option.filter, hkey, decide_true, if_true, bind_eq_ok] at htake
        obtain ⟨⟨head', t⟩, hnext, heq⟩ := htake
        cases heq
        rw [next] at hnext
        cases hnext
        simpa [KeyedMerge.advance, hkey] using reads
      · simp only [Option.filter, hkey, decide_false, Bool.false_eq_true, if_false] at htake
        cases htake
        simpa [KeyedMerge.advance, hkey] using Reads.more row s s' head l next reads

/-- A cursor that is neither ahead nor finished does not occur. -/
theorem exhausted_of_next {s s' : RowStream} (h : s.next py = .ok (none, s')) : s'.rest = [] := by
  rcases next_ok h with ⟨hrest, -, rfl⟩ | ⟨row, rest, key, -, -, -, hhead, -⟩
  · exact hrest
  · cases hhead

/-- A cursor has given out everything once it has no row ahead. -/
def Settled (c : Cursor) : Prop := c.head = none → c.stream.rest = []

theorem settled_start {path : String} {rows : List Row} {c : Cursor}
    (h : Cursor.start py path rows = .ok c) : Settled c := by
  rw [Cursor.start, bind_eq_ok] at h
  obtain ⟨⟨head, s⟩, hnext, hc⟩ := h
  cases hc
  rintro rfl
  exact exhausted_of_next hnext

theorem Settled.take {c c' : Cursor} {key : String} {taken : Option KeyedRow}
    (hc : Settled c) (h : c.take py key = .ok (taken, c')) : Settled c' := by
  rw [Cursor.take] at h
  split at h
  · cases h
    exact hc
  · rw [bind_eq_ok] at h
    obtain ⟨⟨head, s⟩, hnext, heq⟩ := h
    cases heq
    rintro rfl
    exact exhausted_of_next hnext

/-- A key that a cursor is on uses up one row. -/
theorem left_take {c c' : Cursor} {key : String} {taken : Option KeyedRow}
    (h : c.take py key = .ok (taken, c')) : c'.left + taken.toList.length = c.left := by
  obtain ⟨head, s⟩ := c
  rw [Cursor.take] at h
  cases head with
  | none => cases h; rfl
  | some row =>
    by_cases hkey : row.secureKey = key
    · simp only [Option.filter, hkey, decide_true, if_true, bind_eq_ok] at h
      obtain ⟨⟨head', s'⟩, hnext, heq⟩ := h
      cases heq
      rcases next_ok hnext with ⟨hrest, rfl, rfl⟩ | ⟨raw, rest, k, hrest, -, -, rfl, rfl⟩
      · simp [Cursor.left, hrest]
      · simp only [Cursor.left, hrest, Option.toList_some, List.length_cons, List.length_nil]
        omega
    · simp only [Option.filter, hkey, decide_false, Bool.false_eq_true, if_false] at h
      cases h
      rfl

end LedgerReaders
