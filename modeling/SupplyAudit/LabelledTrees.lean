import Mathlib.Data.List.Basic

/-!
# Visits of labelled trees

A visit goes over a tree in preorder and hands each node a context that it
makes from the context and the label of the node above. If the context can be
told from the labels on the path, the visit is a fold over the nodes with their
paths, and a subtree that has none of the nodes that are looked for can be
grafted in anywhere.
-/

namespace LabelledTrees

universe u

inductive Tree (α : Type u) where
  | node (label : α) (children : List (Tree α))

variable {α σ ρ : Type u}

def Tree.label : Tree α → α
  | .node a _ => a

def Tree.children : Tree α → List (Tree α)
  | .node _ ts => ts

/-! ## Nodes with their paths -/

mutual

/-- The nodes of a tree, each with the labels above it, nearest first. -/
def occurrences (above : List α) : Tree α → List (List α × α)
  | .node a children => (above, a) :: occurrencesIn (a :: above) children

def occurrencesIn (above : List α) : List (Tree α) → List (List α × α)
  | [] => []
  | t :: rest => occurrences above t ++ occurrencesIn above rest

end

theorem occurrencesIn_append (above : List α) (ts us : List (Tree α)) :
    occurrencesIn above (ts ++ us) = occurrencesIn above ts ++ occurrencesIn above us := by
  induction ts with
  | nil => rfl
  | cons t ts ih =>
    rw [List.cons_append, occurrencesIn, occurrencesIn, ih, List.append_assoc]

mutual

/-- The labels of a tree do not depend on what is above it. -/
theorem map_occurrences (above above' : List α) (t : Tree α) :
    (occurrences above t).map Prod.snd = (occurrences above' t).map Prod.snd := by
  cases t with
  | node a children =>
    rw [occurrences, occurrences, List.map_cons, List.map_cons,
      map_occurrencesIn (a :: above) (a :: above') children]

theorem map_occurrencesIn (above above' : List α) (ts : List (Tree α)) :
    (occurrencesIn above ts).map Prod.snd = (occurrencesIn above' ts).map Prod.snd := by
  cases ts with
  | nil => rfl
  | cons t rest =>
    rw [occurrencesIn, occurrencesIn, List.map_append, List.map_append,
      map_occurrences above above' t, map_occurrencesIn above above' rest]

end

/-- The labels of a tree in preorder. -/
def labels (t : Tree α) : List α := (occurrences [] t).map Prod.snd

theorem mem_labels_of_occurrence {above : List α} {t : Tree α} {o : List α × α}
    (h : o ∈ occurrences above t) : o.2 ∈ labels t := by
  rw [labels, map_occurrences [] above]
  exact List.mem_map_of_mem h

/-! ## Visits -/

section Visit
variable (enter : σ → α → ρ → ρ) (descend : σ → α → α → σ)

mutual

/-- Enter the node in its context, then visit its children from left to right. -/
def visit (context : σ) : Tree α → ρ → ρ
  | .node a children, result => visitIn context a children (enter context a result)

def visitIn (context : σ) (a : α) : List (Tree α) → ρ → ρ
  | [], result => result
  | t :: rest, result =>
    visitIn context a rest (visit (descend context a t.label) t result)

end


variable {enter descend}

mutual

/-- A visit whose contexts are told from the paths folds over the nodes. -/
theorem visit_eq_foldl (context : List α → α → σ)
    (hcontext : ∀ above a b, descend (context above a) a b = context (a :: above) b)
    (above : List α) (t : Tree α) (result : ρ) :
    visit enter descend (context above t.label) t result =
      (occurrences above t).foldl (fun r o => enter (context o.1 o.2) o.2 r) result := by
  cases t with
  | node a children =>
    rw [visit, occurrences, List.foldl_cons]
    exact visitIn_eq_foldl context hcontext above a children _

theorem visitIn_eq_foldl (context : List α → α → σ)
    (hcontext : ∀ above a b, descend (context above a) a b = context (a :: above) b)
    (above : List α) (a : α) (ts : List (Tree α)) (result : ρ) :
    visitIn enter descend (context above a) a ts result =
      (occurrencesIn (a :: above) ts).foldl (fun r o => enter (context o.1 o.2) o.2 r) result := by
  cases ts with
  | nil => rw [visitIn, occurrencesIn, List.foldl_nil]
  | cons t rest =>
    rw [visitIn, occurrencesIn, List.foldl_append, hcontext,
      visit_eq_foldl context hcontext (a :: above) t result]
    exact visitIn_eq_foldl context hcontext above a rest _

end

end Visit

/-! ## Grafts -/

/-- The second tree is the first with `s` grafted in below some node. -/
inductive Grafted (s : Tree α) : Tree α → Tree α → Prop where
  | here (a : α) (left right : List (Tree α)) :
      Grafted s (.node a (left ++ right)) (.node a (left ++ s :: right))
  | inside (a : α) (left right : List (Tree α)) (t t' : Tree α) (inner : Grafted s t t') :
      Grafted s (.node a (left ++ t :: right)) (.node a (left ++ t' :: right))

theorem Grafted.label {s t t' : Tree α} (h : Grafted s t t') : t'.label = t.label := by
  cases h with
  | here => rfl
  | inside => rfl

/-- A graft without the nodes that are looked for does not change what is found. -/
theorem Grafted.filter_occurrences {s t t' : Tree α} (h : Grafted s t t') {p : α → Bool}
    (hs : ∀ a ∈ labels s, p a = false) (above : List α) :
    (occurrences above t').filter (fun o => p o.2) =
      (occurrences above t).filter (fun o => p o.2) := by
  induction h generalizing above with
  | here a left right =>
    have hnone : (occurrences (a :: above) s).filter (fun o => p o.2) = [] := by
      rw [List.filter_eq_nil_iff]
      intro o ho
      rw [hs o.2 (mem_labels_of_occurrence ho)]
      exact Bool.false_ne_true
    rw [occurrences, occurrences, occurrencesIn_append, occurrencesIn_append, occurrencesIn,
      List.filter_cons, List.filter_cons, List.filter_append, List.filter_append,
      List.filter_append, hnone, List.nil_append]
  | inside a left right t t' _ ih =>
    rw [occurrences, occurrences, occurrencesIn_append, occurrencesIn_append, occurrencesIn,
      occurrencesIn, List.filter_cons, List.filter_cons, List.filter_append, List.filter_append,
      List.filter_append, List.filter_append, ih]

end LabelledTrees
