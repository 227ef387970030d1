import InertialSense.Foundation.Chains

/-! `linked_list.c`: an intrusive doubly linked list. -/

namespace InertialSense.LinkedList

open Foundation.Chains

variable {ν : Type*} [DecidableEq ν]

/-- The two ends of `linked_list_t` and the fields of every `linked_list_node_t`, in the
list or not. Nodes are known by their addresses. -/
structure State (ν : Type*) where
  head : Option ν
  tail : Option ν
  prev : ν → Option ν
  nextCt : ν → Option ν

def State.setPrev (s : State ν) (node : ν) (value : Option ν) : State ν :=
  { s with prev := Function.update s.prev node value }

def State.setNextCt (s : State ν) (node : ν) (value : Option ν) : State ν :=
  { s with nextCt := Function.update s.nextCt node value }

def linkedListClear (s : State ν) : State ν := { s with head := none, tail := none }

def linkedListInsertAtHead (s : State ν) (newNode : ν) : State ν :=
  match s.head with
  | some head =>
    let s := s.setPrev head (some newNode)
    let s := s.setNextCt newNode (some head)
    let s := s.setPrev newNode none
    { s with head := some newNode }
  | none => { s with head := some newNode, tail := some newNode }

def linkedListInsertBefore (s : State ν) (node newNode : ν) : State ν :=
  let s :=
    match s.prev node with
    | some prev => (s.setNextCt prev (some newNode)).setPrev newNode (some prev)
    | none => { s with head := some newNode }.setPrev newNode none
  (s.setPrev node (some newNode)).setNextCt newNode (some node)

def linkedListRemove (s : State ν) (node : ν) : State ν :=
  let prev := s.prev node
  let next := s.nextCt node
  let s := if s.head = some node then { s with head := next } else s
  let s := if s.tail = some node then { s with tail := prev } else s
  let s :=
    match prev with
    | some prev => s.setNextCt prev next
    | none => s
  match next with
  | some next => s.setPrev next prev
  | none => s

/-- A call. -/
inductive Operation (ν : Type*) where
  | clear
  | insertAtHead (newNode : ν)
  | insertBefore (node newNode : ν)
  | remove (node : ν)

def step (s : State ν) : Operation ν → State ν
  | .clear => linkedListClear s
  | .insertAtHead newNode => linkedListInsertAtHead s newNode
  | .insertBefore node newNode => linkedListInsertBefore s node newNode
  | .remove node => linkedListRemove s node

/-- A node put in front of another one. -/
def insertedBefore (node newNode : ν) : List ν → List ν
  | [] => []
  | first :: rest =>
    if first = node then newNode :: first :: rest else first :: insertedBefore node newNode rest

/-- What a call does to the sequence that the list stands for. -/
def Operation.contents (nodes : List ν) : Operation ν → List ν
  | .clear => []
  | .insertAtHead newNode => newNode :: nodes
  | .insertBefore node newNode => insertedBefore node newNode nodes
  | .remove node => nodes.erase node

/-- Inserted nodes are new, removed and reference nodes are in the list. -/
def Operation.Permitted (nodes : List ν) : Operation ν → Prop
  | .clear => True
  | .insertAtHead newNode => newNode ∉ nodes
  | .insertBefore node newNode => node ∈ nodes ∧ newNode ∉ nodes
  | .remove node => node ∈ nodes

/-- Read from either end, the list is the sequence. -/
structure WellFormed (s : State ν) (nodes : List ν) : Prop where
  forward : Reads s.nextCt s.head nodes
  tail : s.tail = nodes.getLast?
  backward : Reads s.prev s.tail nodes.reverse

end InertialSense.LinkedList
