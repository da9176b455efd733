import Mathlib.Data.List.Dedup
import Mathlib.Data.List.Perm.Lattice
import SupplyAudit.FallibleScan

/-!
# Items kept once per key

A scan that skips an item whose key it has seen keeps one item for every key. It
counts the objects that the items list exactly when its keys tell these objects
apart and do not tell two listings of one object apart.
-/

namespace DistinctListings

universe u v w
variable {α : Type u} {κ : Type v} {ι : Type w} [DecidableEq κ] [DecidableEq ι]

/-- The items whose key is new. -/
def firsts (key : α → κ) (seen : List κ) : List α → List α
  | [] => []
  | a :: l => if key a ∈ seen then firsts key seen l else a :: firsts key (key a :: seen) l

theorem firsts_cons_seen {key : α → κ} {seen : List κ} {a : α} (h : key a ∈ seen) (l : List α) :
    firsts key seen (a :: l) = firsts key seen l := if_pos h

theorem firsts_cons_new {key : α → κ} {seen : List κ} {a : α} (h : key a ∉ seen) (l : List α) :
    firsts key seen (a :: l) = a :: firsts key (key a :: seen) l := if_neg h

theorem mem_of_mem_firsts {key : α → κ} {seen : List κ} {l : List α} {a : α}
    (h : a ∈ firsts key seen l) : a ∈ l ∧ key a ∉ seen := by
  induction l generalizing seen with
  | nil => exact absurd h List.not_mem_nil
  | cons b l ih =>
    by_cases hb : key b ∈ seen
    · rw [firsts_cons_seen hb] at h
      obtain ⟨hl, hseen⟩ := ih h
      exact ⟨List.mem_cons_of_mem b hl, hseen⟩
    · rw [firsts_cons_new hb] at h
      rcases List.mem_cons.mp h with rfl | h
      · exact ⟨List.mem_cons_self, hb⟩
      · obtain ⟨hl, hseen⟩ := ih h
        exact ⟨List.mem_cons_of_mem b hl, fun hk => hseen (List.mem_cons_of_mem _ hk)⟩

/-- A new key stays the key of some kept item. -/
theorem exists_firsts (key : α → κ) {seen : List κ} {l : List α} {a : α} (h : a ∈ l)
    (hseen : key a ∉ seen) : ∃ b ∈ firsts key seen l, key b = key a := by
  induction l generalizing seen with
  | nil => exact absurd h List.not_mem_nil
  | cons b l ih =>
    by_cases hb : key b ∈ seen
    · rw [firsts_cons_seen hb]
      rcases List.mem_cons.mp h with rfl | h
      · exact absurd hb hseen
      · exact ih h hseen
    · rw [firsts_cons_new hb]
      by_cases hab : key b = key a
      · exact ⟨b, List.mem_cons_self, hab⟩
      · have hl : a ∈ l := by
          rcases List.mem_cons.mp h with rfl | h
          · exact absurd rfl hab
          · exact h
        have hnew : key a ∉ key b :: seen := by
          rw [List.mem_cons, not_or]
          exact ⟨fun heq => hab heq.symm, hseen⟩
        obtain ⟨c, hc, hkey⟩ := ih hl hnew
        exact ⟨c, List.mem_cons_of_mem b hc, hkey⟩

theorem nodup_firsts (key : α → κ) (seen : List κ) (l : List α) :
    ((firsts key seen l).map key).Nodup := by
  induction l generalizing seen with
  | nil => exact List.nodup_nil
  | cons b l ih =>
    by_cases hb : key b ∈ seen
    · rw [firsts_cons_seen hb]
      exact ih seen
    · rw [firsts_cons_new hb, List.map_cons, List.nodup_cons]
      refine ⟨?_, ih (key b :: seen)⟩
      intro hmem
      obtain ⟨c, hc, hkey⟩ := List.mem_map.mp hmem
      exact (mem_of_mem_firsts hc).2 (hkey ▸ List.mem_cons_self)

/-- The kept items stand in the order in which their keys first occur. -/
theorem firsts_ordered (key : α → κ) (seen : List κ) (l : List α) :
    (firsts key seen l).Pairwise
      (fun a b => (l.map key).idxOf (key a) < (l.map key).idxOf (key b)) := by
  induction l generalizing seen with
  | nil => exact List.Pairwise.nil
  | cons c l ih =>
    have hlater : ∀ a, key a ≠ key c →
        ((c :: l).map key).idxOf (key a) = (l.map key).idxOf (key a) + 1 := by
      intro a ha
      rw [List.map_cons, List.idxOf_cons_ne _ (Ne.symm ha)]
    have hnext : ∀ seen', key c ∈ seen' → (firsts key seen' l).Pairwise
        (fun a b => ((c :: l).map key).idxOf (key a) < ((c :: l).map key).idxOf (key b)) := by
      intro seen' hc
      refine (ih seen').imp_of_mem ?_
      intro a b ha hb hlt
      have hane : key a ≠ key c := fun heq => (mem_of_mem_firsts ha).2 (heq ▸ hc)
      have hbne : key b ≠ key c := fun heq => (mem_of_mem_firsts hb).2 (heq ▸ hc)
      rw [hlater a hane, hlater b hbne]
      omega
    by_cases hc : key c ∈ seen
    · rw [firsts_cons_seen hc]
      exact hnext seen hc
    · rw [firsts_cons_new hc, List.pairwise_cons]
      refine ⟨?_, hnext (key c :: seen) List.mem_cons_self⟩
      intro b hb
      have hbne : key b ≠ key c :=
        fun heq => (mem_of_mem_firsts hb).2 (heq ▸ List.mem_cons_self)
      rw [hlater b hbne, List.map_cons, List.idxOf_cons_self]
      omega

theorem mem_firsts_iff (l : List κ) (k : κ) : k ∈ firsts id [] l ↔ k ∈ l := by
  constructor
  · exact fun h => (mem_of_mem_firsts h).1
  · intro h
    obtain ⟨k', hk', heq⟩ := exists_firsts id h List.not_mem_nil
    have hsame : k' = k := heq
    rwa [← hsame]

/-- The kept items list what all items list, each once. -/
theorem firsts_perm_dedup (key : α → κ) (ident : α → ι) {l : List α}
    (h : ∀ a ∈ l, ∀ b ∈ l, key a = key b ↔ ident a = ident b) :
    ((firsts key [] l).map ident).Perm (l.map ident).dedup := by
  have hnodup : ((firsts key [] l).map ident).Nodup := by
    refine List.Nodup.map_on ?_ (List.Nodup.of_map key (nodup_firsts key [] l))
    intro a ha b hb hident
    have hkey := (h a (mem_of_mem_firsts ha).1 b (mem_of_mem_firsts hb).1).mpr hident
    exact List.inj_on_of_nodup_map (nodup_firsts key [] l) ha hb hkey
  rw [List.perm_ext_iff_of_nodup hnodup (List.nodup_dedup _)]
  intro i
  rw [List.mem_dedup, List.mem_map, List.mem_map]
  constructor
  · rintro ⟨a, ha, rfl⟩
    exact ⟨a, (mem_of_mem_firsts ha).1, rfl⟩
  · rintro ⟨a, ha, rfl⟩
    obtain ⟨b, hb, hkey⟩ := exists_firsts key ha List.not_mem_nil
    exact ⟨b, hb, (h b (mem_of_mem_firsts hb).1 a ha).mp hkey⟩

theorem length_firsts (key : α → κ) (l : List α) :
    (firsts key [] l).length = (l.map key).dedup.length := by
  have hperm := firsts_perm_dedup key key (l := l) fun _ _ _ _ => Iff.rfl
  rw [← hperm.length_eq, List.length_map]

/-- A list that is no shorter once its repetitions are dropped has none. -/
theorem nodup_of_length_dedup {l : List κ} (h : l.dedup.length = l.length) : l.Nodup := by
  have hdedup := (List.dedup_sublist l).eq_of_length h
  rw [← hdedup]
  exact List.nodup_dedup l

/-- `l'` is another choice of the items of `l`, in any order and with any
repetitions, that lists every object of `l`. -/
structure Relists (ident : α → ι) (l l' : List α) : Prop where
  drawn : ∀ a ∈ l', a ∈ l
  complete : ∀ a ∈ l, ∃ b ∈ l', ident b = ident a

/-- Another choice of the items lists the same objects. -/
theorem Relists.dedup_perm {ident : α → ι} {l l' : List α} (h : Relists ident l l') :
    ((l'.map ident).dedup).Perm (l.map ident).dedup := by
  rw [List.perm_ext_iff_of_nodup (List.nodup_dedup _) (List.nodup_dedup _)]
  intro i
  rw [List.mem_dedup, List.mem_dedup, List.mem_map, List.mem_map]
  constructor
  · rintro ⟨a, ha, rfl⟩
    exact ⟨a, h.drawn a ha, rfl⟩
  · rintro ⟨a, ha, rfl⟩
    exact h.complete a ha

/-- Two identities that agree on a list find equally many objects. -/
theorem length_dedup_congr (key : α → κ) (ident : α → ι) {l : List α}
    (h : ∀ a ∈ l, ∀ b ∈ l, key a = key b ↔ ident a = ident b) :
    (l.map key).dedup.length = (l.map ident).dedup.length := by
  rw [← length_firsts, ← (firsts_perm_dedup key ident h).length_eq, List.length_map]

/-- Two items in front, then one for every object that they do not list. -/
theorem relists_pair {ident : α → ι} {l : List α} {a b : α} (ha : a ∈ l) (hb : b ∈ l) :
    Relists ident l (a :: b :: firsts ident [ident a, ident b] l) := by
  constructor
  case drawn =>
    intro c hc
    rcases List.mem_cons.mp hc with rfl | hc
    · exact ha
    · rcases List.mem_cons.mp hc with rfl | hc
      · exact hb
      · exact (mem_of_mem_firsts hc).1
  case complete =>
    intro c hc
    by_cases hold : ident c ∈ [ident a, ident b]
    · simp only [List.mem_cons, List.not_mem_nil, or_false] at hold
      rcases hold with heq | heq
      · exact ⟨a, List.mem_cons_self, heq.symm⟩
      · exact ⟨b, List.mem_cons_of_mem a List.mem_cons_self, heq.symm⟩
    · obtain ⟨d, hd, heq⟩ := exists_firsts ident hc hold
      exact ⟨d, List.mem_cons_of_mem a (List.mem_cons_of_mem b hd), heq⟩

/-- The keys count objects in every relisting exactly when two items have one
key if and only if they list one object. -/
theorem counts_iff_separates (key : α → κ) (ident : α → ι) (l : List α) :
    (∀ l', Relists ident l l' → (firsts key [] l').length = (l'.map ident).dedup.length) ↔
      ∀ a ∈ l, ∀ b ∈ l, key a = key b ↔ ident a = ident b := by
  constructor
  · intro hcounts
    have hrest : ∀ (a b : α), ∀ c ∈ firsts ident [ident a, ident b] l,
        c ∈ l ∧ ident c ≠ ident a ∧ ident c ≠ ident b := by
      intro a b c hc
      obtain ⟨hl, hnew⟩ := mem_of_mem_firsts hc
      simp only [List.mem_cons, List.not_mem_nil, or_false, not_or] at hnew
      exact ⟨hl, hnew.1, hnew.2⟩
    have hident : ∀ a ∈ l, ∀ b ∈ l, key a = key b → ident a = ident b := by
      intro a ha b hb hkey
      by_contra hne
      -- all objects differ, so the keys would have to differ as well
      have hobjects : ((a :: b :: firsts ident [ident a, ident b] l).map ident).Nodup := by
        simp only [List.map_cons, List.nodup_cons, List.mem_cons, List.mem_map, not_or, not_exists,
          not_and]
        exact ⟨⟨hne, fun c hc => (hrest a b c hc).2.1⟩, fun c hc => (hrest a b c hc).2.2,
          nodup_firsts ident _ l⟩
      have hcount := hcounts _ (relists_pair ha hb)
      rw [length_firsts, hobjects.dedup, List.length_map, ← List.length_map (f := key)] at hcount
      have hkeys := nodup_of_length_dedup hcount
      rw [List.map_cons, List.map_cons, hkey, List.nodup_cons] at hkeys
      exact hkeys.1 List.mem_cons_self
    intro a ha b hb
    refine ⟨hident a ha b hb, ?_⟩
    intro hsame
    by_contra hne
    -- one object is listed twice, with two keys
    have hkeys : ((a :: b :: firsts ident [ident a, ident b] l).map key).Nodup := by
      simp only [List.map_cons, List.nodup_cons, List.mem_cons, List.mem_map, not_or, not_exists,
        not_and]
      refine ⟨⟨hne, fun c hc heq => ?_⟩, fun c hc heq => ?_, ?_⟩
      · obtain ⟨hl, hnew, -⟩ := hrest a b c hc
        exact hnew (hident c hl a ha heq)
      · obtain ⟨hl, -, hnew⟩ := hrest a b c hc
        exact hnew (hident c hl b hb heq)
      · refine List.Nodup.map_on ?_ (List.Nodup.of_map ident (nodup_firsts ident _ l))
        intro c hc d hd heq
        have hobject := hident c (hrest a b c hc).1 d (hrest a b d hd).1 heq
        exact List.inj_on_of_nodup_map (nodup_firsts ident _ l) hc hd hobject
    have hcount := hcounts _ (relists_pair ha hb)
    rw [length_firsts, hkeys.dedup, List.length_map, ← List.length_map (f := ident)] at hcount
    have hobjects := nodup_of_length_dedup hcount.symm
    rw [List.map_cons, List.map_cons, hsame, List.nodup_cons] at hobjects
    exact hobjects.1 List.mem_cons_self
  · intro hseparates l' hl'
    have hperm := firsts_perm_dedup key ident (l := l') fun a ha b hb =>
      hseparates a (hl'.drawn a ha) b (hl'.drawn b hb)
    rw [← hperm.length_eq, List.length_map]

/-! ## A scan that refuses a second item of a key -/

omit [DecidableEq κ] in
/-- Such a scan keeps what its steps give, in order, exactly when no step fails and no key comes
twice. -/
theorem foldlM_distinct_iff {β ε : Type u} {key : β → κ} {verdict : α → Except ε (Option β)}
    {step : List β → α → Except ε (List β)} {l : List α}
    (hstep : ∀ a ∈ l, ∀ st st', step st a = .ok st' ↔ ∃ o, verdict a = .ok o ∧
      (∀ b, o = some b → key b ∉ st.map key) ∧ st' = st ++ o.toList)
    {st st' : List β} (hst : (st.map key).Nodup) :
    l.foldlM step st = .ok st' ↔ ∃ os, List.Forall₂ (fun a o => verdict a = .ok o) l os ∧
      st' = st ++ os.reduceOption ∧ (st'.map key).Nodup := by
  induction l generalizing st with
  | nil =>
    constructor
    · intro h
      cases h
      exact ⟨[], .nil, (List.append_nil _).symm, hst⟩
    · rintro ⟨os, hos, rfl, -⟩
      cases hos
      exact congrArg Except.ok (List.append_nil _).symm
  | cons a l ih =>
    have hrest := fun (st : List β) (hst : (st.map key).Nodup) =>
      ih (fun b hb => hstep b (List.mem_cons_of_mem a hb)) hst
    have happend : ∀ (o : Option β) (os : List (Option β)),
        (o :: os).reduceOption = o.toList ++ os.reduceOption := by
      intro o os
      cases o <;> rfl
    rw [List.foldlM_cons, FallibleScan.bind_eq_ok]
    constructor
    · rintro ⟨next, hnext, hscan⟩
      obtain ⟨o, ho, hnew, rfl⟩ := (hstep a List.mem_cons_self st next).mp hnext
      have hnodup : ((st ++ o.toList).map key).Nodup := by
        cases o with
        | none => rwa [Option.toList_none, List.append_nil]
        | some b =>
          rw [Option.toList_some, List.map_append, List.map_singleton, ← List.concat_eq_append]
          exact hst.concat (hnew b rfl)
      obtain ⟨os, hos, rfl, hkeys⟩ := (hrest _ hnodup).mp hscan
      exact ⟨o :: os, .cons ho hos, by rw [happend, List.append_assoc], hkeys⟩
    · rintro ⟨os, hos, rfl, hkeys⟩
      cases hos with
      | @cons _ o _ os ho hos =>
        have heq : st ++ (o :: os).reduceOption = st ++ o.toList ++ os.reduceOption := by
          rw [happend, List.append_assoc]
        have hnodup : ((st ++ o.toList).map key).Nodup := by
          rw [heq, List.map_append] at hkeys
          exact hkeys.of_append_left
        refine ⟨st ++ o.toList, (hstep a List.mem_cons_self st _).mpr ⟨o, ho, ?_, rfl⟩,
          (hrest _ hnodup).mpr ⟨os, hos, heq, hkeys⟩⟩
        rintro b rfl
        rw [Option.toList_some, List.map_append, List.nodup_append] at hnodup
        intro hmem
        exact hnodup.2.2 _ hmem _ (List.mem_singleton.mpr rfl) rfl

end DistinctListings
