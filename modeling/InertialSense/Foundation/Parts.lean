import Mathlib.Data.List.Perm.Basic

/-! Lists that are divided into parts: one part after another, or one part for each class. -/

namespace Foundation

variable {α κ : Type*}

/-- A list that is cut into parts, as far as they go. -/
theorem flatMap_parts (whole : List α) (size count : Nat) :
    ((List.range count).flatMap fun k => (whole.drop (size * k)).take size) = whole.take (size * count) := by
  induction count with
  | zero => rw [Nat.mul_zero, List.take_zero]; rfl
  | succ count ih =>
    rw [List.range_succ, List.flatMap_append, ih, Nat.mul_succ, List.take_add]
    simp

theorem part_append {first second : List α} {start size : Nat} (inside : start + size ≤ first.length) :
    ((first ++ second).drop start).take size = (first.drop start).take size := by
  rw [List.drop_append_of_le_length (by omega), List.take_append_of_le_length]
  rw [List.length_drop]
  omega

private theorem flatMap_ite (classes : List κ) (p : κ → Bool) (a : α) :
    (classes.flatMap fun k => if p k then [a] else []) = List.replicate (classes.countP p) a := by
  induction classes with
  | nil => rfl
  | cons k others ih =>
    rw [List.flatMap_cons, ih]
    by_cases inside : p k
    · rw [if_pos inside, List.countP_cons_of_pos inside]
      rfl
    · rw [if_neg inside, List.countP_cons_of_neg inside]
      rfl

theorem flatMap_filter_perm {classes : List κ} {member : κ → α → Bool} {whole : List α}
    (once : ∀ a ∈ whole, (classes.countP fun k => member k a) = 1) :
    (classes.flatMap fun k => whole.filter (member k)).Perm whole := by
  induction whole with
  | nil => simp
  | cons a rest ih =>
    have here : (classes.flatMap fun k => if member k a then [a] else []) = [a] := by
      rw [flatMap_ite, once a (.head _)]
      rfl
    have step (k : κ) : (a :: rest).filter (member k) =
        (if member k a then [a] else []) ++ rest.filter (member k) := by
      rw [List.filter_cons]
      split <;> rfl
    simp only [step]
    refine (List.flatMap_append_perm classes _ _).symm.trans ?_
    rw [here]
    exact (ih fun other later => once other (.tail _ later)).cons a

end Foundation
