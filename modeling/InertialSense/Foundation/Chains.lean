import Mathlib.Data.List.Induction
import Mathlib.Data.List.Nodup
import Mathlib.Logic.Function.Basic

/-! Doubly linked chains over two maps of links: what they read as from either end, and
how a link at either end is redirected. -/

namespace Foundation.Chains

variable {ν : Type*}

/-- Following `next` from `start` passes these nodes and ends. -/
def Reads (next : ν → Option ν) : Option ν → List ν → Prop
  | start, [] => start = none
  | start, node :: rest => start = some node ∧ Reads next (next node) rest

/-- Every node is linked to its neighbours. `before` and `after` are those of the whole
stretch. -/
def Linked (prev next : ν → Option ν) : Option ν → List ν → Option ν → Prop
  | _, [], _ => True
  | before, node :: rest, after =>
    prev node = before ∧ next node = rest.head?.or after ∧ Linked prev next (some node) rest after

section Linked

variable {prev next : ν → Option ν} {before after : Option ν}

theorem linked_append {front rear : List ν} :
    Linked prev next before (front ++ rear) after ↔
      Linked prev next before front (rear.head?.or after) ∧
        Linked prev next (front.getLast?.or before) rear after := by
  induction front generalizing before with
  | nil => simp [Linked]
  | cons node front ih =>
    have last : (node :: front).getLast?.or before = front.getLast?.or (some node) := by
      cases front with
      | nil => rfl
      | cons second rest => simp [List.getLast?_cons]
    have first : (front ++ rear).head?.or after = front.head?.or (rear.head?.or after) := by
      rw [List.head?_append, Option.or_assoc]
    rw [List.cons_append, Linked, Linked, ih, last, first, and_assoc, and_assoc]

theorem Linked.congr {prev' next' : ν → Option ν} {nodes : List ν}
    (linked : Linked prev next before nodes after) (samePrev : ∀ node ∈ nodes, prev' node = prev node)
    (sameNext : ∀ node ∈ nodes, next' node = next node) :
    Linked prev' next' before nodes after := by
  induction nodes generalizing before with
  | nil => trivial
  | cons node rest ih =>
    obtain ⟨back, forth, later⟩ := linked
    refine ⟨?_, ?_, ?_⟩
    · rw [samePrev node (by simp), back]
    · rw [sameNext node (by simp), forth]
    · exact ih later (fun other member => samePrev other (by simp [member]))
        (fun other member => sameNext other (by simp [member]))

theorem Linked.reads_next {nodes : List ν} (linked : Linked prev next before nodes none) :
    Reads next nodes.head? nodes := by
  induction nodes generalizing before with
  | nil => rfl
  | cons node rest ih =>
    obtain ⟨-, forth, later⟩ := linked
    rw [Option.or_none] at forth
    refine ⟨rfl, ?_⟩
    rw [forth]
    exact ih later

theorem Linked.reads_prev {nodes : List ν} (linked : Linked prev next none nodes after) :
    Reads prev nodes.getLast? nodes.reverse := by
  induction nodes using List.reverseRecOn generalizing after with
  | nil => rfl
  | append_singleton front node ih =>
    obtain ⟨earlier, back, -⟩ := linked_append.mp linked
    rw [Option.or_none] at back
    rw [List.reverse_concat, List.getLast?_concat]
    refine ⟨rfl, ?_⟩
    rw [back]
    exact ih earlier

end Linked

section Redirect

variable [DecidableEq ν] {prev next : ν → Option ν} {before after : Option ν} {nodes : List ν}

def redirect (links : ν → Option ν) (node target : Option ν) : ν → Option ν :=
  match node with
  | some node => Function.update links node target
  | none => links

/-- The last node of a stretch gets another neighbour. -/
theorem Linked.redirect_next (linked : Linked prev next before nodes after) (distinct : nodes.Nodup)
    (after' : Option ν) :
    Linked prev (redirect next nodes.getLast? after') before nodes after' := by
  induction nodes using List.reverseRecOn with
  | nil => trivial
  | append_singleton front node _ =>
    obtain ⟨earlier, back, -⟩ := linked_append.mp linked
    have apart : node ∉ front := fun member =>
      List.disjoint_of_nodup_append distinct member (by simp)
    have kept : ∀ other ∈ front, redirect next (some node) after' other = next other := by
      intro other member
      have different : other ≠ node := fun same => apart (same ▸ member)
      simp [redirect, different]
    rw [List.getLast?_concat]
    refine linked_append.mpr ⟨earlier.congr (fun _ _ => rfl) kept, back, ?_, trivial⟩
    simp [redirect]

/-- The first node of a stretch gets another neighbour. -/
theorem Linked.redirect_prev (linked : Linked prev next before nodes after) (distinct : nodes.Nodup)
    (before' : Option ν) :
    Linked (redirect prev nodes.head? before') next before' nodes after := by
  cases nodes with
  | nil => trivial
  | cons node rest =>
    obtain ⟨-, forth, later⟩ := linked
    have apart : node ∉ rest := (List.nodup_cons.mp distinct).1
    have kept : ∀ other ∈ rest, redirect prev (some node) before' other = prev other := by
      intro other member
      have different : other ≠ node := fun same => apart (same ▸ member)
      simp [redirect, different]
    exact ⟨by simp [redirect], forth, later.congr kept fun _ _ => rfl⟩

theorem redirect_getLast?_apart (links : ν → Option ν) {node : ν} (outside : node ∉ nodes)
    (target : Option ν) : redirect links nodes.getLast? target node = links node := by
  cases last : nodes.getLast? with
  | none => rfl
  | some found =>
    have different : node ≠ found := fun same => outside (same ▸ List.mem_of_getLast? last)
    simp [redirect, different]

theorem redirect_head?_apart (links : ν → Option ν) {node : ν} (outside : node ∉ nodes)
    (target : Option ν) : redirect links nodes.head? target node = links node := by
  cases first : nodes.head? with
  | none => rfl
  | some found =>
    have different : node ≠ found := fun same => outside (same ▸ List.mem_of_head? first)
    simp [redirect, different]

theorem update_apart {links : ν → Option ν} {node : ν} (outside : node ∉ nodes) (value : Option ν) :
    ∀ other ∈ nodes, Function.update links node value other = links other := by
  intro other member
  have different : other ≠ node := fun same => outside (same ▸ member)
  simp [different]

variable {front rear : List ν} {node newNode : ν}

omit [DecidableEq ν] in
/-- The parts of a chain on both sides of a node. -/
theorem Linked.split (linked : Linked prev next none (front ++ node :: rear) none) :
    prev node = front.getLast? ∧ next node = rear.head? ∧ Linked prev next none front (some node) ∧
      Linked prev next (some node) rear none := by
  obtain ⟨earlier, back, forth, later⟩ := linked_append.mp linked
  rw [Option.or_none] at back forth
  exact ⟨back, forth, earlier, later⟩

theorem Linked.insert (linked : Linked prev next none (front ++ node :: rear) none)
    (distinct : (front ++ node :: rear).Nodup) (fresh : newNode ∉ front ++ node :: rear) :
    Linked (Function.update (Function.update prev newNode front.getLast?) node (some newNode))
      (Function.update (redirect next front.getLast? (some newNode)) newNode (some node)) none
      (front ++ newNode :: node :: rear) none := by
  obtain ⟨-, forth, earlier, later⟩ := linked.split
  have disjoint := List.disjoint_of_nodup_append distinct
  have apart : node ∉ front := fun member => disjoint member (by simp)
  have beyond : node ∉ rear := (List.nodup_cons.mp distinct.of_append_right).1
  have newFront : newNode ∉ front := fun member => fresh (by simp [member])
  have newRear : newNode ∉ rear := fun member => fresh (by simp [member])
  have newOther : newNode ≠ node := fun same => fresh (by simp [same])
  refine linked_append.mpr ⟨?_, ?_, ?_, ?_, ?_, ?_⟩
  · refine (earlier.redirect_next distinct.of_append_left (some newNode)).congr ?_
      (update_apart newFront _)
    intro other member
    rw [update_apart apart _ other member, update_apart newFront _ other member]
  · simp [newOther]
  · simp
  · simp
  · rw [Function.update_of_ne newOther.symm, redirect_getLast?_apart _ apart, forth, Option.or_none]
  · refine later.congr ?_ ?_
    · intro other member
      rw [update_apart beyond _ other member, update_apart newRear _ other member]
    · intro other member
      rw [update_apart newRear _ other member,
        redirect_getLast?_apart _ fun inside => disjoint inside (List.mem_cons_of_mem _ member)]

/-- A new node in front of the whole chain. -/
theorem Linked.insert_first {first : ν} {rest : List ν}
    (linked : Linked prev next none (first :: rest) none) (distinct : (first :: rest).Nodup)
    (fresh : newNode ∉ first :: rest) :
    Linked (Function.update (Function.update prev first (some newNode)) newNode none)
      (Function.update next newNode (some first)) none (newNode :: first :: rest) none := by
  have moved := linked.redirect_prev distinct (some newNode)
  refine ⟨by simp, by simp, ?_⟩
  exact moved.congr (update_apart fresh _) (update_apart fresh _)

theorem Linked.remove (linked : Linked prev next none (front ++ node :: rear) none)
    (distinct : (front ++ node :: rear).Nodup) :
    Linked (redirect prev rear.head? front.getLast?) (redirect next front.getLast? rear.head?) none
      (front ++ rear) none := by
  obtain ⟨-, -, earlier, later⟩ := linked.split
  have disjoint := List.disjoint_of_nodup_append distinct
  refine linked_append.mpr ⟨?_, ?_⟩
  · rw [Option.or_none]
    refine (earlier.redirect_next distinct.of_append_left rear.head?).congr ?_ fun _ _ => rfl
    intro other member
    exact redirect_head?_apart _ (fun inside => disjoint member (List.mem_cons_of_mem _ inside)) _
  · rw [Option.or_none]
    have rest := distinct.of_append_right.of_cons
    refine (later.redirect_prev rest front.getLast?).congr (fun _ _ => rfl) ?_
    intro other member
    exact redirect_getLast?_apart _
      (fun inside => disjoint inside (List.mem_cons_of_mem _ member)) _

end Redirect

end Foundation.Chains
