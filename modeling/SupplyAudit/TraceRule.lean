import Mathlib.Data.List.Count
import SupplyAudit.FallibleScan
import SupplyAudit.TraceInspection

/-!
# The classification rule for call traces

The counts of an inspection are counts over the frames of the tree with the
frames above them. From them the classification follows a rule about the one
completed precompile call: whether it authenticates the receipt, and whether a
frame between it and the root failed.
-/

namespace TraceRule

open FallibleScan LabelledTrees TraceInspection

variable (py : AuditText) (identity : ReceiptIdentity)

/-- A precompile call without an error of its own. -/
def completed (node : CallFrame) : Bool := isPrecompileCall py node && !node.failed

/-- The sender of the nearest frame, from this one upwards, that is not a
delegate call; the root counts with its own sender. -/
def effectiveSender : CallFrame → List CallFrame → String
  | node, [] => senderText py node
  | node, parent :: above =>
    if callType py node = "DELEGATECALL" then effectiveSender parent above
    else senderText py node

/-- A frame above, other than the root, failed. -/
def failedAbove (above : List CallFrame) : Bool := above.dropLast.any CallFrame.failed

/-- The input and the effective sender of the call are those of the receipt. -/
def Authenticates (above : List CallFrame) (node : CallFrame) : Prop :=
  ∃ payload, parsePrecompileInput node.input = some payload ∧
    payload.amountAtto = identity.amountAtto ∧ payload.recipient = identity.recipient ∧
    payload.destinationShard = identity.destinationShard ∧
    effectiveSender py node above = identity.sender

/-! ## Contexts -/

def contextAt (above : List CallFrame) (node : CallFrame) : Context where
  failedNonrootAncestor := failedAbove above
  contextSender := effectiveSender py node above
  isRoot := above.isEmpty

theorem failedAbove_cons (node : CallFrame) (above : List CallFrame) :
    failedAbove (node :: above) = (failedAbove above || (!above.isEmpty && node.failed)) := by
  cases above with
  | nil => rfl
  | cons parent rest =>
    rw [failedAbove, failedAbove, List.dropLast_cons_of_ne_nil (List.cons_ne_nil _ _),
      List.any_cons, Bool.or_comm]
    rfl

/-- The contexts of a visit are told from the frames above. -/
theorem childContext_contextAt (above : List CallFrame) (node child : CallFrame) :
    childContext py (contextAt py above node) node child = contextAt py (node :: above) child := by
  rw [childContext, contextAt, contextAt, failedAbove_cons]
  rfl

theorem inspectTrace_eq_foldl (root : Trace) :
    inspectTrace py identity root = (occurrences [] root).foldl
      (fun r o => countCall py identity (contextAt py o.1 o.2) o.2 r) {} := by
  have hroot : (⟨false, senderText py root.label, true⟩ : Context) = contextAt py [] root.label :=
    rfl
  rw [inspectTrace, hroot]
  exact visit_eq_foldl (contextAt py) (childContext_contextAt py) [] root _

/-! ## Counts -/

def authenticates (o : List CallFrame × CallFrame) : Bool :=
  payloadMatches identity o.2 (effectiveSender py o.2 o.1)

theorem authenticates_iff (above : List CallFrame) (node : CallFrame) :
    authenticates py identity (above, node) = true ↔ Authenticates py identity above node := by
  rw [authenticates, payloadMatches, Authenticates]
  cases parsePrecompileInput node.input with
  | none => simp
  | some payload =>
    simp only [decide_eq_true_eq, Option.some.injEq, exists_eq_left']
    tauto

section Counters
variable (context : Context) (node : CallFrame) (r : Inspection)

theorem completedCount_countCall :
    (countCall py identity context node r).completedPrecompileCallCount =
      r.completedPrecompileCallCount + if completed py node then 1 else 0 := by
  rw [countCall, completed]
  cases isPrecompileCall py node <;> cases node.failed <;>
    cases payloadMatches identity node context.contextSender <;>
    cases context.failedNonrootAncestor <;> rfl

theorem completedMatchCount_countCall :
    (countCall py identity context node r).completedPrecompilePayloadMatchCount =
      r.completedPrecompilePayloadMatchCount +
        if completed py node && payloadMatches identity node context.contextSender then 1
        else 0 := by
  rw [countCall, completed]
  cases isPrecompileCall py node <;> cases node.failed <;>
    cases payloadMatches identity node context.contextSender <;>
    cases context.failedNonrootAncestor <;> rfl

theorem failedMatchCount_countCall :
    (countCall py identity context node r).failedMatchingPrecompilePathCount =
      r.failedMatchingPrecompilePathCount +
        if completed py node && (payloadMatches identity node context.contextSender &&
          context.failedNonrootAncestor) then 1 else 0 := by
  rw [countCall, completed]
  cases isPrecompileCall py node <;> cases node.failed <;>
    cases payloadMatches identity node context.contextSender <;>
    cases context.failedNonrootAncestor <;> rfl

end Counters

/-- The completed calls of a tree, each with the frames above it. -/
def completedCalls (root : Trace) : List (List CallFrame × CallFrame) :=
  (occurrences [] root).filter fun o => completed py o.2

/-- A counter of an inspection counts among the completed calls. -/
theorem counter_eq_countP (counter : Inspection → Nat) (p : List CallFrame × CallFrame → Bool)
    (hzero : counter {} = 0)
    (hstep : ∀ o r, counter (countCall py identity (contextAt py o.1 o.2) o.2 r) =
      counter r + if completed py o.2 && p o then 1 else 0) (root : Trace) :
    counter (inspectTrace py identity root) = (completedCalls py root).countP p := by
  rw [inspectTrace_eq_foldl, foldl_total counter (fun r o => hstep o r), hzero, Nat.zero_add,
    sum_map_one_eq_countP, completedCalls, List.countP_filter]
  congr 1
  funext o
  exact Bool.and_comm _ _

theorem completedCount_eq (root : Trace) :
    (inspectTrace py identity root).completedPrecompileCallCount =
      (completedCalls py root).length := by
  rw [counter_eq_countP py identity Inspection.completedPrecompileCallCount (fun _ => true) rfl ?_
    root, List.countP_true]
  intro o r
  rw [completedCount_countCall, Bool.and_true]

theorem completedMatchCount_eq (root : Trace) :
    (inspectTrace py identity root).completedPrecompilePayloadMatchCount =
      (completedCalls py root).countP (authenticates py identity) :=
  counter_eq_countP py identity _ _ rfl
    (fun o r => completedMatchCount_countCall py identity (contextAt py o.1 o.2) o.2 r) root

theorem failedMatchCount_eq (root : Trace) :
    (inspectTrace py identity root).failedMatchingPrecompilePathCount =
      (completedCalls py root).countP fun o => authenticates py identity o && failedAbove o.1 :=
  counter_eq_countP py identity _ _ rfl
    (fun o r => failedMatchCount_countCall py identity (contextAt py o.1 o.2) o.2 r) root

/-! ## The rule -/

/-- The tree has one completed call, and it produced the receipt. -/
def Produces (root : Trace) (above : List CallFrame) (node : CallFrame) : Prop :=
  completedCalls py root = [(above, node)] ∧ Authenticates py identity above node

/-- What the classification says about the tree. -/
theorem classify_iff (status : Int) (root : Trace) :
    let classification :=
      (classifyReplay status root.label (inspectTrace py identity root)).classification
    (classification = .rollbackLeak ↔ status = 1 ∧ root.label.failed = false ∧
        ∃ above node, Produces py identity root above node ∧
          ∃ frame ∈ above.dropLast, frame.failed = true) ∧
      (classification = .validSourceDebit ↔ status = 1 ∧ root.label.failed = false ∧
        ∃ above node, Produces py identity root above node ∧
          ¬ ∃ frame ∈ above.dropLast, frame.failed = true) := by
  have hone : ∀ above node, completedCalls py root = [(above, node)] →
      ∀ p : List CallFrame × CallFrame → Bool,
        (completedCalls py root).countP p = if p (above, node) then 1 else 0 := by
    intro above node hcalls p
    rw [hcalls, List.countP_singleton]
  dsimp only
  rw [classifyReplay, completedCount_eq, completedMatchCount_eq, failedMatchCount_eq]
  by_cases hstatus : status = 1
  case neg => simp [hstatus]
  by_cases hroot : root.label.failed = true
  case pos => simp [hstatus, hroot]
  rw [Bool.not_eq_true] at hroot
  simp only [hstatus, hroot, Bool.false_eq_true, ne_eq, not_true, if_false, true_and]
  by_cases hlength : (completedCalls py root).length = 1
  case neg =>
    have hnone : ∀ above node, ¬ Produces py identity root above node := by
      rintro above node ⟨hcalls, -⟩
      rw [hcalls] at hlength
      exact hlength rfl
    simp [hlength, hnone]
  obtain ⟨⟨above, node⟩, hcalls⟩ := List.length_eq_one_iff.mp hlength
  have hproduces : ∀ above' node', Produces py identity root above' node' ↔
      (above' = above ∧ node' = node) ∧ Authenticates py identity above node := by
    intro above' node'
    rw [Produces, hcalls]
    constructor
    · rintro ⟨heq, hauth⟩
      cases heq
      exact ⟨⟨rfl, rfl⟩, hauth⟩
    · rintro ⟨⟨rfl, rfl⟩, hauth⟩
      exact ⟨rfl, hauth⟩
  rw [hone above node hcalls, hone above node hcalls]
  simp only [hlength, not_true, if_false, hproduces]
  by_cases hauth : Authenticates py identity above node
  · have hmatch := (authenticates_iff py identity above node).mpr hauth
    have hfailed : failedAbove above = true ↔ ∃ frame ∈ above.dropLast, frame.failed = true := by
      rw [failedAbove, List.any_eq_true]
    by_cases habove : failedAbove above = true
    · have hsome := hfailed.mp habove
      simp only [hmatch, habove, Bool.and_self, if_true, not_true, if_false, hauth, and_true]
      simp [hsome]
    · have hsome := habove ∘ hfailed.mpr
      rw [Bool.not_eq_true] at habove
      simp only [hmatch, habove, Bool.and_false, Bool.false_eq_true, if_true, not_true, if_false,
        hauth, and_true]
      simpa using hsome
  · have hmatch := (authenticates_iff py identity above node).not.mpr hauth
    simp [hmatch, hauth]

/-- A graft without completed calls leaves the whole answer as it was. -/
theorem classify_of_grafted {s root root' : Trace} (h : Grafted s root root')
    (hs : ∀ node ∈ labels s, completed py node = false) (status : Int) :
    classifyReplay status root'.label (inspectTrace py identity root') =
      classifyReplay status root.label (inspectTrace py identity root) := by
  have hcalls : completedCalls py root' = completedCalls py root :=
    h.filter_occurrences hs []
  rw [classifyReplay, classifyReplay, completedCount_eq, completedCount_eq, completedMatchCount_eq,
    completedMatchCount_eq, failedMatchCount_eq, failedMatchCount_eq, hcalls, h.label]

theorem labels_leaf (node : CallFrame) : labels (LabelledTrees.Tree.node node []) = [node] := rfl

/-- The documented rule for one receipt, stored status and call tree. -/
structure DocumentedRule (status : Int) (root : Trace) : Prop where
  rollback_leak :
    (classifyReplay status root.label (inspectTrace py identity root)).classification =
        .rollbackLeak ↔
      status = 1 ∧ root.label.failed = false ∧ ∃ above node,
        Produces py identity root above node ∧ ∃ frame ∈ above.dropLast, frame.failed = true
  valid_source_debit :
    (classifyReplay status root.label (inspectTrace py identity root)).classification =
        .validSourceDebit ↔
      status = 1 ∧ root.label.failed = false ∧ ∃ above node,
        Produces py identity root above node ∧ ¬ ∃ frame ∈ above.dropLast, frame.failed = true
  neither : status ≠ 1 ∨ root.label.failed = true →
    (classifyReplay status root.label (inspectTrace py identity root)).classification ∉
      [.rollbackLeak, .validSourceDebit]
  stable : ∀ s root', Grafted s root root' →
    (∀ node ∈ labels s, completed py node = false) →
    classifyReplay status root'.label (inspectTrace py identity root') =
      classifyReplay status root.label (inspectTrace py identity root)
  rejected_call : ∀ node root', isPrecompileCall py node = true → node.failed = true →
    Grafted (.node node []) root root' →
    classifyReplay status root'.label (inspectTrace py identity root') =
      classifyReplay status root.label (inspectTrace py identity root)
  selfdestruct : ∀ node root', callType py node = "SELFDESTRUCT" →
    Grafted (.node node []) root root' →
    classifyReplay status root'.label (inspectTrace py identity root') =
      classifyReplay status root.label (inspectTrace py identity root)

theorem trace_classification_rule (status : Int) (root : Trace) :
    DocumentedRule py identity status root := by
  obtain ⟨hrollback, hvalid⟩ := classify_iff py identity status root
  constructor
  case rollback_leak => exact hrollback
  case valid_source_debit => exact hvalid
  case neither =>
    intro hbad hmem
    simp only [List.mem_cons, List.not_mem_nil, or_false] at hmem
    have hgood : status = 1 ∧ root.label.failed = false := by
      rcases hmem with h | h
      · obtain ⟨hstatus, hroot, -⟩ := hrollback.mp h
        exact ⟨hstatus, hroot⟩
      · obtain ⟨hstatus, hroot, -⟩ := hvalid.mp h
        exact ⟨hstatus, hroot⟩
    rcases hbad with h | h
    · exact h hgood.1
    · rw [hgood.2] at h
      cases h
  case stable => exact fun s root' hgraft hs => classify_of_grafted py identity hgraft hs status
  case rejected_call =>
    intro node root' _ hfailed hgraft
    refine classify_of_grafted py identity hgraft ?_ status
    intro a ha
    rw [labels_leaf, List.mem_singleton] at ha
    rw [ha, completed, hfailed, Bool.not_true, Bool.and_false]
  case selfdestruct =>
    intro node root' htype hgraft
    refine classify_of_grafted py identity hgraft ?_ status
    intro a ha
    rw [labels_leaf, List.mem_singleton] at ha
    have hcall : isPrecompileCall py node = false := by
      rw [isPrecompileCall, htype, decide_eq_false_iff_not]
      rintro ⟨-, hmem⟩
      exact absurd hmem (by decide)
    rw [ha, completed, hcall, Bool.false_and]

end TraceRule
