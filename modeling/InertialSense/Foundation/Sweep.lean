import Mathlib.Data.Fin.Tuple.Basic
import Mathlib.Data.List.FinRange
import Mathlib.Data.List.TakeWhile

/-! A loop over the entries of a table that changes each entry on its own, reports, and ends
early at the first entry that stops it. -/

namespace Foundation

variable {ι α ρ : Type*} [DecidableEq ι]

/-- Visit the entries in order until one stops the loop. -/
def sweep (stops : ι → α → Bool) (visit : ι → α → α × List ρ) :
    List ι → (ι → α) → (ι → α) × List ρ
  | [], table => (table, [])
  | i :: rest, table =>
    if stops i (table i) then (table, [])
    else
      let later := sweep stops visit rest (Function.update table i (visit i (table i)).1)
      (later.1, (visit i (table i)).2 ++ later.2)

omit [DecidableEq ι] in
/-- The entries before the first one that stops the loop. -/
def visited (stops : ι → α → Bool) (order : List ι) (table : ι → α) : List ι :=
  order.takeWhile fun i => !stops i (table i)

variable {stops : ι → α → Bool} {visit : ι → α → α × List ρ} {order : List ι} {table table' : ι → α}

omit [DecidableEq ι] in
theorem visited_cons (i : ι) (rest : List ι) :
    visited stops (i :: rest) table =
      if stops i (table i) then [] else i :: visited stops rest table := by
  unfold visited
  rw [List.takeWhile_cons]
  cases stops i (table i) <;> rfl

omit [DecidableEq ι] in
theorem visited_congr (same : ∀ i ∈ order, table i = table' i) :
    visited stops order table = visited stops order table' := by
  induction order with
  | nil => rfl
  | cons i rest ih =>
    have here := same i (List.mem_cons_self ..)
    rw [visited_cons, visited_cons, here, ih fun j member => same j (List.mem_cons_of_mem _ member)]

omit [DecidableEq ι] in
theorem mem_of_mem_visited {i : ι} (member : i ∈ visited stops order table) : i ∈ order :=
  (List.takeWhile_sublist _).subset member

private theorem update_elsewhere {i : ι} {rest : List ι} (fresh : i ∉ rest) (entry : α) :
    ∀ j ∈ rest, Function.update table i entry j = table j := by
  intro j member
  apply Function.update_of_ne
  rintro rfl
  exact fresh member

/-- An entry that is visited is changed as if it were alone. -/
theorem sweep_table (nodup : order.Nodup) (i : ι) :
    (sweep stops visit order table).1 i =
      if i ∈ visited stops order table then (visit i (table i)).1 else table i := by
  induction order generalizing table with
  | nil => rfl
  | cons k rest ih =>
    obtain ⟨fresh, nodup⟩ := List.nodup_cons.mp nodup
    rw [visited_cons]
    unfold sweep
    split
    case isTrue => rfl
    case isFalse passes =>
      have same : visited stops rest (Function.update table k (visit k (table k)).1) =
          visited stops rest table := visited_congr (update_elsewhere fresh _)
      dsimp only
      rw [ih nodup, same]
      by_cases own : i = k
      · subst own
        have absent : i ∉ visited stops rest table := fun member => fresh (mem_of_mem_visited member)
        rw [if_neg absent, if_pos (List.mem_cons_self ..), Function.update_self]
      · rw [Function.update_of_ne own]
        by_cases member : i ∈ visited stops rest table
        · rw [if_pos member, if_pos (List.mem_cons_of_mem _ member)]
        · rw [if_neg member, if_neg (by simp [own, member])]

theorem sweep_reports (nodup : order.Nodup) :
    (sweep stops visit order table).2 =
      (visited stops order table).flatMap fun i => (visit i (table i)).2 := by
  induction order generalizing table with
  | nil => rfl
  | cons k rest ih =>
    obtain ⟨fresh, nodup⟩ := List.nodup_cons.mp nodup
    rw [visited_cons]
    unfold sweep
    split
    case isTrue => rfl
    case isFalse passes =>
      have elsewhere : ∀ j ∈ rest, Function.update table k (visit k (table k)).1 j = table j :=
        update_elsewhere fresh _
      have same : visited stops rest (Function.update table k (visit k (table k)).1) =
          visited stops rest table := visited_congr elsewhere
      dsimp only
      rw [ih nodup, same, List.flatMap_cons]
      congr 1
      apply List.flatMap_congr
      intro j member
      rw [elsewhere j (mem_of_mem_visited member)]

omit [DecidableEq ι] in
/-- Where the order is increasing, an entry is visited if none up to it stops the loop. -/
theorem mem_visited_iff [LinearOrder ι] (increasing : order.Pairwise (· < ·)) {i : ι} :
    i ∈ visited stops order table ↔
      i ∈ order ∧ ∀ j ∈ order, j ≤ i → stops j (table j) = false := by
  induction order with
  | nil => simp [visited]
  | cons k rest ih =>
    obtain ⟨first, increasing⟩ := List.pairwise_cons.mp increasing
    rw [visited_cons]
    split
    case isTrue halt =>
      refine ⟨fun member => absurd member List.not_mem_nil, ?_⟩
      rintro ⟨member, passes⟩
      have least : k ≤ i := by
        rcases List.mem_cons.mp member with rfl | later
        · exact le_refl _
        · exact le_of_lt (first i later)
      rw [passes k (List.mem_cons_self ..) least] at halt
      cases halt
    case isFalse passes =>
      rw [List.mem_cons, ih increasing, List.mem_cons]
      constructor
      · rintro (rfl | ⟨member, before⟩)
        · refine ⟨.inl rfl, ?_⟩
          intro j member least
          rcases List.mem_cons.mp member with rfl | later
          · simpa using passes
          · exact absurd least (not_le_of_gt (first j later))
        · refine ⟨.inr member, ?_⟩
          intro j member' least
          rcases List.mem_cons.mp member' with rfl | later
          · simpa using passes
          · exact before j later least
      · rintro ⟨rfl | member, before⟩
        · exact .inl rfl
        · exact .inr ⟨member, fun j later => before j (List.mem_cons_of_mem _ later)⟩

omit [DecidableEq ι] in
theorem visited_prefix : visited stops order table <+: order :=
  List.takeWhile_prefix _

omit [DecidableEq ι] in
private theorem reports_extend {longer shorter : List ι} (continues : shorter <+: longer)
    (nodup : longer.Nodup) {reports : ι → List ρ} :
    longer.flatMap reports = shorter.flatMap reports ↔
      ∀ i, reports i = [] ∨ (i ∈ longer ↔ i ∈ shorter) := by
  obtain ⟨rest, rfl⟩ := continues
  rw [List.flatMap_append, List.append_right_eq_self, List.flatMap_eq_nil_iff]
  constructor
  · intro silent i
    by_cases later : i ∈ rest
    · exact .inl (silent i later)
    · exact .inr (by simp [later])
  · intro same i later
    rcases same i with silent | both
    · exact silent
    · have early := both.mp (List.mem_append_right _ later)
      exact absurd later (List.disjoint_of_nodup_append nodup early)

omit [DecidableEq ι] in
/-- Two loops over one order that end at different places report the same if no entry
between these places reports anything. -/
theorem reports_eq_iff {first second : List ι} (nodup : order.Nodup) (before : first <+: order)
    (before' : second <+: order) {reports : ι → List ρ} :
    first.flatMap reports = second.flatMap reports ↔
      ∀ i, reports i = [] ∨ (i ∈ first ↔ i ∈ second) := by
  rcases List.prefix_or_prefix_of_prefix before before' with shorter | longer
  · rw [eq_comm, reports_extend shorter (nodup.sublist before'.sublist)]
    simp only [iff_comm]
  · exact reports_extend longer (nodup.sublist before.sublist)

end Foundation
