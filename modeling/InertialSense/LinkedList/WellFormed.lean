import InertialSense.Foundation.Run
import InertialSense.LinkedList.Model

/-! Every sequence of calls leaves a list that reads the same from both ends, as long as
no node brings links of its own into an empty list. -/

namespace InertialSense.LinkedList

open Foundation Foundation.Chains

variable {ν : Type*} [DecidableEq ν]

/-- The links of the nodes in the list; those of other nodes are free. -/
structure Holds (s : State ν) (nodes : List ν) : Prop where
  distinct : nodes.Nodup
  head : s.head = nodes.head?
  tail : s.tail = nodes.getLast?
  linked : Linked s.prev s.nextCt none nodes none

/-- A node that enters an empty list has no links left. -/
def Operation.Unlinked (s : State ν) : Operation ν → Prop
  | .insertAtHead newNode =>
    s.head = none → s.prev newNode = none ∧ s.nextCt newNode = none
  | _ => True

omit [DecidableEq ν] in
theorem Holds.wellFormed {s : State ν} {nodes : List ν} (holds : Holds s nodes) :
    WellFormed s nodes where
  forward := by
    rw [holds.head]
    exact holds.linked.reads_next
  tail := holds.tail
  backward := by
    rw [holds.tail]
    exact holds.linked.reads_prev

omit [DecidableEq ν] in
theorem linkedListClear_holds (s : State ν) : Holds (linkedListClear s) [] where
  distinct := List.nodup_nil
  head := rfl
  tail := rfl
  linked := trivial

theorem Holds.insertAtHead_cons {s : State ν} {first newNode : ν} {rest : List ν}
    (holds : Holds s (first :: rest)) (fresh : newNode ∉ first :: rest) :
    Holds (linkedListInsertAtHead s newNode) (newNode :: first :: rest) := by
  obtain ⟨distinct, head, tail, linked⟩ := holds
  have shape : linkedListInsertAtHead s newNode =
      { head := some newNode, tail := s.tail
        prev := Function.update (Function.update s.prev first (some newNode)) newNode none
        nextCt := Function.update s.nextCt newNode (some first) } := by
    rw [List.head?_cons] at head
    simp only [linkedListInsertAtHead, head, State.setPrev, State.setNextCt]
  rw [shape]
  refine ⟨List.nodup_cons.mpr ⟨fresh, distinct⟩, rfl, ?_, linked.insert_first distinct fresh⟩
  rw [List.getLast?_cons_cons]
  exact tail

private theorem linkedListInsertAtHead_empty {s : State ν} (empty : s.head = none) (newNode : ν) :
    linkedListInsertAtHead s newNode = { s with head := some newNode, tail := some newNode } := by
  simp only [linkedListInsertAtHead, empty]

theorem Holds.insertAtHead_nil {s : State ν} {newNode : ν} (holds : Holds s [])
    (unlinked : s.prev newNode = none ∧ s.nextCt newNode = none) :
    Holds (linkedListInsertAtHead s newNode) [newNode] := by
  rw [linkedListInsertAtHead_empty holds.head]
  exact ⟨List.nodup_singleton _, rfl, rfl, unlinked.1, unlinked.2, trivial⟩

private theorem insertedBefore_split {front rear : List ν} {node : ν} (newNode : ν)
    (apart : node ∉ front) :
    insertedBefore node newNode (front ++ node :: rear) = front ++ newNode :: node :: rear := by
  induction front with
  | nil => simp [insertedBefore]
  | cons first front ih =>
    have different : first ≠ node := fun same => apart (by simp [same])
    rw [List.cons_append, insertedBefore, if_neg different, ih (fun member => apart (by simp [member]))]
    rfl

private theorem linkedListInsertBefore_eq {s : State ν} {node : ν} {before : Option ν}
    (back : s.prev node = before) (newNode : ν) :
    linkedListInsertBefore s node newNode =
      { head := if before = none then some newNode else s.head
        tail := s.tail
        prev := Function.update (Function.update s.prev newNode before) node (some newNode)
        nextCt := Function.update (redirect s.nextCt before (some newNode)) newNode (some node) } := by
  cases before with
  | none => simp [linkedListInsertBefore, back, State.setPrev, State.setNextCt, redirect]
  | some before => simp [linkedListInsertBefore, back, State.setPrev, State.setNextCt, redirect]

theorem Holds.insertBefore {s : State ν} {front rear : List ν} {node newNode : ν}
    (holds : Holds s (front ++ node :: rear)) (fresh : newNode ∉ front ++ node :: rear) :
    Holds (linkedListInsertBefore s node newNode) (front ++ newNode :: node :: rear) := by
  obtain ⟨distinct, head, tail, linked⟩ := holds
  obtain ⟨back, -⟩ := linked.split
  rw [linkedListInsertBefore_eq back]
  refine ⟨List.nodup_middle.mpr (List.nodup_cons.mpr ⟨fresh, distinct⟩), ?_, ?_,
    linked.insert distinct fresh⟩
  · cases front with
    | nil => rfl
    | cons first front => simpa using head
  · simpa using tail

private theorem linkedListRemove_eq {s : State ν} {node : ν} {before after : Option ν}
    (back : s.prev node = before) (forth : s.nextCt node = after) :
    linkedListRemove s node =
      { head := if s.head = some node then after else s.head
        tail := if s.tail = some node then before else s.tail
        prev := redirect s.prev after before
        nextCt := redirect s.nextCt before after } := by
  cases before <;> cases after <;>
    simp only [linkedListRemove, back, forth, State.setPrev, State.setNextCt, redirect] <;>
    split <;> split <;> rfl

theorem Holds.remove {s : State ν} {front rear : List ν} {node : ν}
    (holds : Holds s (front ++ node :: rear)) :
    Holds (linkedListRemove s node) (front ++ rear) := by
  obtain ⟨distinct, head, tail, linked⟩ := holds
  obtain ⟨back, forth, -⟩ := linked.split
  have around := List.nodup_cons.mp (List.nodup_middle.mp distinct)
  have apart : node ∉ front := fun member => around.1 (by simp [member])
  have beyond : node ∉ rear := fun member => around.1 (by simp [member])
  rw [linkedListRemove_eq back forth]
  refine ⟨around.2, ?_, ?_, linked.remove distinct⟩
  · cases front with
    | nil => simp [head]
    | cons first front =>
      have different : first ≠ node := fun same => apart (by simp [same])
      simp [head, different]
  · cases rear using List.reverseRecOn with
    | nil => simp [tail]
    | append_singleton rear last =>
      have different : last ≠ node := fun same => beyond (by simp [same])
      have ends : (front ++ node :: (rear ++ [last])).getLast? = some last := by
        rw [← List.cons_append, ← List.append_assoc, List.getLast?_concat]
      show (if s.tail = some node then front.getLast? else s.tail) = _
      rw [tail, ends, ← List.append_assoc, List.getLast?_concat, if_neg (by simpa using different)]

/-- One call. -/
theorem Holds.step {s : State ν} {nodes : List ν} {op : Operation ν} (holds : Holds s nodes)
    (permitted : op.Permitted nodes) (unlinked : op.Unlinked s) :
    Holds (step s op) (op.contents nodes) := by
  cases op with
  | clear => exact linkedListClear_holds s
  | insertAtHead newNode =>
    cases nodes with
    | nil => exact holds.insertAtHead_nil (unlinked holds.head)
    | cons first rest => exact holds.insertAtHead_cons permitted
  | insertBefore node newNode =>
    obtain ⟨member, fresh⟩ := permitted
    obtain ⟨front, rear, rfl, apart⟩ := List.eq_append_cons_of_mem member
    rw [Operation.contents, insertedBefore_split newNode apart]
    exact holds.insertBefore fresh
  | remove node =>
    obtain ⟨front, rear, rfl, apart⟩ := List.eq_append_cons_of_mem permitted
    rw [Operation.contents, List.erase_append_right _ apart, List.erase_cons_head]
    exact holds.remove

/-- A node that enters the empty list with links left breaks it at once. -/
theorem Holds.unlinked_of_wellFormed {s : State ν} {nodes : List ν} {op : Operation ν}
    (holds : Holds s nodes) (wellFormed : WellFormed (LinkedList.step s op) (op.contents nodes)) :
    op.Unlinked s := by
  cases op with
  | insertAtHead newNode =>
    intro empty
    have none : nodes = [] := by
      have head := holds.head
      rw [empty] at head
      exact List.head?_eq_none_iff.mp head.symm
    subst none
    obtain ⟨⟨-, forward⟩, -, ⟨-, backward⟩⟩ := wellFormed
    rw [LinkedList.step, linkedListInsertAtHead_empty empty] at forward backward
    exact ⟨backward, forward⟩
  | clear => trivial
  | insertBefore node newNode => trivial
  | remove node => trivial

/-- The calls of a run are permitted one after the other. -/
def PermittedRun : List ν → List (Operation ν) → Prop :=
  Along (fun nodes op => (op.contents nodes, ())) Operation.Permitted

/-- No node enters an empty list with links left, in the whole run. -/
def UnlinkedRun : State ν → List (Operation ν) → Prop :=
  Along (fun s op => (step s op, ())) Operation.Unlinked

private theorem Holds.run_iff {s : State ν} {nodes : List ν} {ops : List (Operation ν)}
    (holds : Holds s nodes) (permitted : PermittedRun nodes ops) :
    (∀ count ≤ ops.length,
        WellFormed ((ops.take count).foldl LinkedList.step s)
          ((ops.take count).foldl Operation.contents nodes)) ↔
      UnlinkedRun s ops := by
  induction ops generalizing s nodes with
  | nil =>
    refine ⟨fun _ => trivial, ?_⟩
    intro _ count _
    rw [List.take_nil]
    exact holds.wellFormed
  | cons op rest ih =>
    obtain ⟨here, later⟩ := permitted
    constructor
    · intro reached
      have unlinked := holds.unlinked_of_wellFormed (reached 1 (by simp))
      refine ⟨unlinked, (ih (holds.step here unlinked) later).mp ?_⟩
      intro count inside
      exact reached (count + 1) (by simpa using inside)
    · intro ⟨unlinked, others⟩ count inside
      cases count with
      | zero => exact holds.wellFormed
      | succ count =>
        have after := (ih (holds.step here unlinked) later).mpr others
        exact after count (by simpa using inside)

/-- From a cleared list on, whatever links the nodes hold: every state reached reads as its
sequence exactly if no node enters an empty list with links left. -/
theorem linkedList_wellFormed_iff (s : State ν) {ops : List (Operation ν)}
    (permitted : PermittedRun [] ops) :
    (∀ count ≤ ops.length,
        WellFormed ((ops.take count).foldl step (linkedListClear s))
          ((ops.take count).foldl Operation.contents [])) ↔
      UnlinkedRun (linkedListClear s) ops :=
  (linkedListClear_holds s).run_iff permitted

/-- Nodes that were never used, in no list. -/
def unused : State Nat := { head := none, tail := none, prev := fun _ => none, nextCt := fun _ => none }

theorem linkedList_wellFormed_unused :
    WellFormed
      ([.insertAtHead 1, .insertBefore 1 2, .insertAtHead 3, .remove 2].foldl step
        (linkedListClear unused)) [3, 1] :=
  (@linkedList_wellFormed_iff _ _ unused
    [.insertAtHead 1, .insertBefore 1 2, .insertAtHead 3, .remove 2]
    (by simp [PermittedRun, Along, Operation.Permitted, Operation.contents, insertedBefore])).mpr
    (by simp [UnlinkedRun, Along, Operation.Unlinked, step, linkedListClear, linkedListInsertAtHead,
      linkedListInsertBefore, State.setPrev, State.setNextCt, unused]) 4 (by simp)

/-- Two nodes are removed and the first of them is inserted again: the other one follows. -/
theorem linkedListInsertAtHead_stale :
    let ops := [.insertAtHead 1, .insertAtHead 2, .remove 2, .remove 1, .insertAtHead 2]
    let s := ops.foldl step (linkedListClear unused)
    PermittedRun [] ops ∧ ops.foldl Operation.contents [] = [2] ∧
      Reads s.nextCt s.head [2, 1] ∧ ¬WellFormed s [2] := by
  intro ops s
  refine ⟨?_, rfl, ⟨rfl, rfl, rfl⟩, ?_⟩
  · simp [ops, PermittedRun, Along, Operation.Permitted, Operation.contents]
  · intro wellFormed
    obtain ⟨-, ends⟩ := wellFormed.forward
    have stale : s.nextCt 2 = some 1 := rfl
    rw [stale] at ends
    cases ends

end InertialSense.LinkedList
