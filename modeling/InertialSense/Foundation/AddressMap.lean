import Mathlib.Data.List.MinMax
import Mathlib.Order.Basic

/-! What is in a memory after many writes: the last one to each address counts. -/

namespace Foundation

variable {α : Type*}

def lastAt : List (Nat × α) → Nat → Option α
  | [], _ => none
  | write :: rest, address =>
    (lastAt rest address).or (if write.1 = address then some write.2 else none)

theorem lastAt_append (first second : List (Nat × α)) (address : Nat) :
    lastAt (first ++ second) address = (lastAt second address).or (lastAt first address) := by
  induction first with
  | nil => simp [lastAt]
  | cons write rest ih =>
    rw [List.cons_append, lastAt, ih, lastAt, Option.or_assoc]

theorem lastAt_eq_none_iff {writes : List (Nat × α)} {address : Nat} :
    lastAt writes address = none ↔ ∀ write ∈ writes, write.1 ≠ address := by
  induction writes with
  | nil => simp [lastAt]
  | cons write rest ih =>
    rw [lastAt, Option.or_eq_none_iff, ih, List.forall_mem_cons, And.comm]
    refine and_congr_left fun _ => ?_
    split <;> simp_all

theorem lastAt_isSome_iff {writes : List (Nat × α)} {address : Nat} :
    (lastAt writes address).isSome ↔ ∃ write ∈ writes, write.1 = address := by
  rw [← Option.ne_none_iff_isSome, ne_eq, lastAt_eq_none_iff]
  push Not
  rfl

/-- Writes to addresses that all lie so much higher. -/
def shifted (base : Nat) (writes : List (Nat × α)) : List (Nat × α) :=
  writes.map fun write => (base + write.1, write.2)

theorem mem_shifted {base : Nat} {writes : List (Nat × α)} {address : Nat} {value : α} :
    (address, value) ∈ shifted base writes ↔
      ∃ offset, address = base + offset ∧ (offset, value) ∈ writes := by
  unfold shifted
  constructor
  · intro member
    obtain ⟨write, inside, same⟩ := List.mem_map.mp member
    obtain ⟨rfl, rfl⟩ := Prod.mk.inj same
    exact ⟨write.1, rfl, inside⟩
  · rintro ⟨offset, rfl, inside⟩
    exact List.mem_map.mpr ⟨_, inside, rfl⟩

/-- Bytes one behind the other. -/
def placed (start : Nat) : List α → List (Nat × α)
  | [] => []
  | value :: rest => (start, value) :: placed (start + 1) rest

theorem mem_placed {start : Nat} {values : List α} {write : Nat × α}
    (member : write ∈ placed start values) :
    start ≤ write.1 ∧ write.1 < start + values.length := by
  induction values generalizing start with
  | nil => cases member
  | cons value rest ih =>
    rw [List.length_cons]
    obtain rfl | later := List.mem_cons.mp member
    · exact ⟨Nat.le_refl _, by omega⟩
    · have bounds := ih later
      omega

theorem placed_append (start : Nat) (first second : List α) :
    placed start (first ++ second) = placed start first ++ placed (start + first.length) second := by
  induction first generalizing start with
  | nil => rfl
  | cons value rest ih =>
    rw [List.cons_append, placed, ih, placed, List.cons_append, List.length_cons, Nat.add_assoc,
      Nat.add_comm 1]

/-- What is placed lies one behind the other. -/
theorem lastAt_placed (start : Nat) (values : List α) (offset : Nat) :
    lastAt (placed start values) (start + offset) = values[offset]? := by
  induction values generalizing start offset with
  | nil => rfl
  | cons value rest ih =>
    rw [placed, lastAt]
    cases offset with
    | zero =>
      have none : lastAt (placed (start + 1) rest) (start + 0) = none := by
        refine lastAt_eq_none_iff.mpr fun write member => ?_
        have bounds := mem_placed member
        omega
      rw [none, Option.none_or]
      exact if_pos rfl
    | succ offset =>
      rw [if_neg (by omega), Option.or_none, List.getElem?_cons_succ, ← ih (start + 1) offset,
        Nat.add_assoc, Nat.add_comm 1]

/-- The same value all along. -/
theorem lastAt_placed_replicate (start count : Nat) (value : α) (address : Nat) :
    lastAt (placed start (List.replicate count value)) address =
      if start ≤ address ∧ address < start + count then some value else none := by
  induction count generalizing start with
  | zero => exact (if_neg (by omega)).symm
  | succ count ih =>
    rw [List.replicate_succ, placed, lastAt, ih]
    by_cases here : start = address
    · subst here
      rw [if_neg (by omega), if_pos rfl, if_pos (by omega)]
      rfl
    · rw [if_neg here, Option.or_none]
      exact if_congr (by omega) rfl rfl

/-- A memory that was blank has the contents after these writes, and is blank elsewhere. -/
structure Stores (blank : α) (written content : List (Nat × α)) : Prop where
  held : ∀ address value, lastAt content address = some value → lastAt written address = some value
  unused : ∀ address, lastAt content address = none → (lastAt written address).getD blank = blank

section Stores

variable {blank : α} {written content : List (Nat × α)}

theorem Stores.nil : Stores blank ([] : List (Nat × α)) [] :=
  ⟨fun _ _ found => found, fun _ _ => rfl⟩

theorem Stores.append (stores : Stores blank written content) (writes : List (Nat × α)) :
    Stores blank (written ++ writes) (content ++ writes) := by
  constructor
  · intro address value found
    rw [lastAt_append] at found ⊢
    cases here : lastAt writes address with
    | some last => rwa [here] at found
    | none =>
      rw [here, Option.none_or] at found
      exact stores.held address value found
  · intro address none
    rw [lastAt_append, Option.or_eq_none_iff] at none
    rw [lastAt_append, none.1]
    exact stores.unused address none.2

theorem Stores.fill (stores : Stores blank written content) {start : Nat}
    (below : ∀ write ∈ content, write.1 < start) (count : Nat) :
    Stores blank (written ++ placed start (List.replicate count blank)) content := by
  constructor
  · intro address value found
    obtain ⟨write, member, rfl⟩ := lastAt_isSome_iff.mp (Option.isSome_of_mem found)
    have less := below write member
    rw [lastAt_append, lastAt_placed_replicate, if_neg (by omega)]
    exact stores.held _ value found
  · intro address none
    rw [lastAt_append, lastAt_placed_replicate]
    split
    case isTrue => rfl
    case isFalse => exact stores.unused address none

end Stores

def lowest (bound : Nat) (writes : List (Nat × α)) : Nat :=
  writes.foldl (fun low write => min low write.1) bound

/-- The highest address. -/
def highest (writes : List (Nat × α)) : Nat :=
  writes.foldl (fun high write => max high write.1) 0

section Bounds

variable {bound : Nat} {writes : List (Nat × α)}

theorem lowest_le_bound (bound : Nat) (writes : List (Nat × α)) : lowest bound writes ≤ bound := by
  induction writes generalizing bound with
  | nil => exact Nat.le_refl bound
  | cons write rest ih => exact (ih _).trans (Nat.min_le_left ..)

theorem lowest_le {write : Nat × α} (member : write ∈ writes) : lowest bound writes ≤ write.1 := by
  induction writes generalizing bound with
  | nil => cases member
  | cons first rest ih =>
    obtain rfl | later := List.mem_cons.mp member
    · exact (lowest_le_bound _ rest).trans (Nat.min_le_right ..)
    · exact ih later

theorem lowest_append (bound : Nat) (first second : List (Nat × α)) :
    lowest bound (first ++ second) = min (lowest bound first) (lowest bound second) := by
  have pull (low bound : Nat) (writes : List (Nat × α)) :
      lowest (min low bound) writes = min low (lowest bound writes) := by
    induction writes generalizing bound with
    | nil => rfl
    | cons write rest ih =>
      show lowest (min (min low bound) write.1) rest = min low (lowest (min bound write.1) rest)
      rw [Nat.min_assoc, ih]
  rw [← pull, Nat.min_eq_left (lowest_le_bound ..)]
  exact List.foldl_append

private theorem le_foldl_max (bound : Nat) (writes : List (Nat × α)) :
    bound ≤ writes.foldl (fun high write => max high write.1) bound ∧
      (∀ write ∈ writes, write.1 ≤ writes.foldl (fun high write => max high write.1) bound) ∧
      (writes.foldl (fun high write => max high write.1) bound = bound ∨
        ∃ write ∈ writes, write.1 = writes.foldl (fun high write => max high write.1) bound) := by
  induction writes generalizing bound with
  | nil => exact ⟨Nat.le_refl bound, fun _ member => absurd member List.not_mem_nil, .inl rfl⟩
  | cons first rest ih =>
    obtain ⟨above, all, reached⟩ := ih (max bound first.1)
    refine ⟨(Nat.le_max_left ..).trans above, fun write member => ?_, ?_⟩
    · obtain rfl | later := List.mem_cons.mp member
      · exact (Nat.le_max_right ..).trans above
      · exact all write later
    · obtain same | ⟨write, inside, same⟩ := reached
      · obtain high | high := Nat.le_total first.1 bound
        · exact .inl (same.trans (Nat.max_eq_left high))
        · exact .inr ⟨first, .head _, (same.trans (Nat.max_eq_right high)).symm⟩
      · exact .inr ⟨write, .tail _ inside, same⟩

theorem le_highest {write : Nat × α} (member : write ∈ writes) : write.1 ≤ highest writes :=
  (le_foldl_max 0 writes).2.1 write member

theorem highest_mem (some : writes ≠ []) : ∃ write ∈ writes, write.1 = highest writes := by
  obtain zero | reached := (le_foldl_max 0 writes).2.2
  · obtain ⟨write, member⟩ := List.exists_mem_of_ne_nil writes some
    have below := le_highest member
    change highest writes = 0 at zero
    exact ⟨write, member, by omega⟩
  · exact reached

theorem highest_append (first second : List (Nat × α)) :
    highest (first ++ second) = max (highest first) (highest second) := by
  have pull (high bound : Nat) (writes : List (Nat × α)) :
      writes.foldl (fun high write => max high write.1) (max high bound) =
        max high (writes.foldl (fun high write => max high write.1) bound) := by
    induction writes generalizing bound with
    | nil => rfl
    | cons write rest ih =>
      rw [List.foldl_cons, Nat.max_assoc, ih]
      rfl
  have all := pull (highest first) 0 second
  rw [Nat.max_zero] at all
  rw [highest, List.foldl_append]
  exact all

end Bounds

end Foundation
