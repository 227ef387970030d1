import Mathlib.Algebra.BigOperators.Group.List.Basic
import Mathlib.Algebra.GroupWithZero.Nat
import Mathlib.Data.Nat.Notation

/-! A list that is trimmed from its front until the weight of the rest is within a limit. -/

namespace Foundation

variable {α : Type*} {weight : α → ℕ} {limit : ℕ} {list dropped kept : List α}

def load (weight : α → ℕ) (list : List α) : ℕ := (list.map weight).sum

@[simp] theorem load_nil : load weight [] = 0 := rfl

@[simp] theorem load_cons (x : α) (rest : List α) :
    load weight (x :: rest) = weight x + load weight rest := List.sum_cons

@[simp] theorem load_append (first second : List α) :
    load weight (first ++ second) = load weight first + load weight second := by
  unfold load
  rw [List.map_append, List.sum_append]

theorem load_perm {other : List α} (perm : list.Perm other) : load weight list = load weight other :=
  (perm.map weight).sum_eq

theorem load_sublist {part : List α} (sub : part.Sublist list) :
    load weight part ≤ load weight list := by
  induction sub with
  | slnil => exact Nat.le_refl _
  | cons x _ ih => exact Nat.le_trans ih (Nat.le_add_left ..)
  | cons_cons x _ ih => exact Nat.add_le_add_left ih (weight x)

/-- The rest is within the limit, and nothing was dropped when it was so already. -/
structure Trimmed (weight : α → ℕ) (limit : ℕ) (list dropped kept : List α) : Prop where
  split : list = dropped ++ kept
  within : load weight kept ≤ limit
  needed : ∀ earlier x later, dropped = earlier ++ x :: later →
    limit < load weight (x :: later) + load weight kept

namespace Trimmed

theorem keeps (trimmed : Trimmed weight limit list dropped kept) {first last : List α} {x : α}
    (order : list = first ++ x :: last) (fits : load weight (x :: last) ≤ limit) : x ∈ kept := by
  have same := trimmed.split.symm.trans order
  rcases List.append_eq_append_iff.mp same with ⟨middle, rfl, later⟩ | ⟨middle, front, later⟩
  · rw [later]
    exact List.mem_append_right _ (.head _)
  · cases middle with
    | nil =>
      rw [List.nil_append] at later
      rw [← later]
      exact .head _
    | cons y rest =>
      obtain ⟨rfl, rfl⟩ := List.cons.inj later
      have needed := trimmed.needed first x rest front
      rw [← load_append] at needed
      exact absurd needed (Nat.not_lt_of_le fits)

theorem kept_behind (trimmed : Trimmed weight limit list dropped kept) {first last : List α} {x : α}
    (order : list = first ++ x :: last) (exceeds : limit < load weight (x :: last)) :
    ∀ y ∈ kept, y ∈ last := by
  intro y member
  have same := trimmed.split.symm.trans order
  rcases List.append_eq_append_iff.mp same with ⟨middle, rfl, later⟩ | ⟨middle, front, later⟩
  · have within := trimmed.within
    rw [later, load_append] at within
    exact absurd exceeds (Nat.not_lt_of_le (Nat.le_trans (Nat.le_add_left ..) within))
  · cases middle with
    | nil =>
      rw [List.nil_append] at later
      exact absurd exceeds (Nat.not_lt_of_le (later ▸ trimmed.within))
    | cons z rest =>
      obtain ⟨rfl, rfl⟩ := List.cons.inj later
      exact List.mem_append_right _ member

end Trimmed

/-- The last element of a kind. -/
theorem exists_last {p : α → Prop} (some : ∃ x ∈ list, p x) :
    ∃ first x last, list = first ++ x :: last ∧ p x ∧ ∀ y ∈ last, ¬p y := by
  induction list with
  | nil =>
    obtain ⟨x, member, -⟩ := some
    cases member
  | cons head rest ih =>
    by_cases later : ∃ x ∈ rest, p x
    · obtain ⟨first, x, last, rfl, holds, none⟩ := ih later
      exact ⟨head :: first, x, last, rfl, holds, none⟩
    · obtain ⟨x, member, holds⟩ := some
      rcases List.mem_cons.mp member with rfl | inside
      · exact ⟨[], x, rest, rfl, holds, fun y known also => later ⟨y, known, also⟩⟩
      · exact absurd ⟨x, inside, holds⟩ later

end Foundation
