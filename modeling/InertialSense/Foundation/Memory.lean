import Mathlib.Algebra.Group.Int.Defs
import Mathlib.Algebra.Group.Nat.Defs
import Mathlib.Data.List.Basic

/-! Byte-addressed memory as a total function of the address: a copy into it, a
window read out of it, how the two interact, and strings up to a cell that ends them. -/

namespace Foundation

variable {α : Type*}

/-- `count` cells from `start` on. -/
def window (mem : Nat → α) (start count : Nat) : List α :=
  (List.range count).map fun k => mem (start + k)

/-- Copy `data` to the cells from `start` on. -/
def store (mem : Nat → α) (start : Nat) (data : List α) : Nat → α := fun address =>
  if start ≤ address then data[address - start]?.getD (mem address) else mem address

@[simp] theorem window_length (mem : Nat → α) (start count : Nat) :
    (window mem start count).length = count := by
  simp [window]

@[simp] theorem window_zero (mem : Nat → α) (start : Nat) : window mem start 0 = [] := rfl

theorem getElem?_window (mem : Nat → α) {start count k : Nat} (inside : k < count) :
    (window mem start count)[k]? = some (mem (start + k)) := by
  simp [window, inside]

theorem window_add (mem : Nat → α) (start first second : Nat) :
    window mem start (first + second) =
      window mem start first ++ window mem (start + first) second := by
  simp [window, List.range_add, Nat.add_assoc]

theorem window_succ (mem : Nat → α) (start count : Nat) :
    window mem start (count + 1) = window mem start count ++ [mem (start + count)] := by
  simp [window, List.range_succ]

theorem window_cons (mem : Nat → α) (start count : Nat) :
    window mem start (count + 1) = mem start :: window mem (start + 1) count := by
  rw [Nat.add_comm, window_add]
  rfl

theorem window_congr {mem mem' : Nat → α} {start start' count : Nat}
    (same : ∀ k < count, mem (start + k) = mem' (start' + k)) :
    window mem start count = window mem' start' count := by
  apply List.map_congr_left
  intro k member
  exact same k (List.mem_range.mp member)

theorem cell_of_window_eq {mem mem' : Nat → α} {start start' count k : Nat}
    (same : window mem start count = window mem' start' count) (inside : k < count) :
    mem (start + k) = mem' (start' + k) := by
  have here : (window mem start count)[k]? = some (mem (start + k)) := getElem?_window mem inside
  rw [same, getElem?_window mem' inside] at here
  exact (Option.some.inj here).symm

theorem window_eq_iff {mem mem' : Nat → α} {start count : Nat} :
    window mem start count = window mem' start count ↔
      ∀ place, start ≤ place ∧ place < start + count → mem place = mem' place := by
  refine ⟨fun same place inside => ?_, fun same => window_congr fun k small => ?_⟩
  · obtain ⟨k, rfl⟩ := Nat.exists_eq_add_of_le inside.1
    have small : k < count := by omega
    exact cell_of_window_eq same small
  · exact same _ ⟨Nat.le_add_right .., Nat.add_lt_add_left small start⟩

/-- A window that holds one value everywhere. -/
theorem window_eq_replicate_iff {mem : Nat → α} {start count : Nat} {value : α} :
    window mem start count = List.replicate count value ↔ ∀ k < count, mem (start + k) = value := by
  rw [List.eq_replicate_iff]
  simp [window]

theorem take_window (mem : Nat → α) {start count taken : Nat} (inside : taken ≤ count) :
    (window mem start count).take taken = window mem start taken := by
  obtain ⟨rest, rfl⟩ := Nat.exists_eq_add_of_le inside
  rw [window_add, List.take_left' (window_length ..)]

theorem drop_window (mem : Nat → α) {start count dropped : Nat} (inside : dropped ≤ count) :
    (window mem start count).drop dropped = window mem (start + dropped) (count - dropped) := by
  obtain ⟨rest, rfl⟩ := Nat.exists_eq_add_of_le inside
  rw [window_add, List.drop_left' (window_length ..), Nat.add_sub_cancel_left]

/-- A window of a list that is seen as memory. -/
theorem window_getD (data : List α) (default : α) {start count : Nat}
    (inside : start + count ≤ data.length) :
    window (fun k => data.getD k default) start count = (data.drop start).take count := by
  apply List.ext_getElem
  · simp
    omega
  · intro k bound _
    have small : start + k < data.length := by
      rw [window_length] at bound
      omega
    simp [window, small]

theorem store_inside (mem : Nat → α) {start k : Nat} {data : List α} (inside : k < data.length) :
    store mem start data (start + k) = data[k] := by
  simp [store, inside]

theorem store_outside (mem : Nat → α) {start address : Nat} {data : List α}
    (outside : address < start ∨ start + data.length ≤ address) :
    store mem start data address = mem address := by
  unfold store
  split
  · have missing : data[address - start]? = none := List.getElem?_eq_none (by omega)
    simp [missing]
  · rfl

@[simp] theorem store_nil (mem : Nat → α) (start : Nat) : store mem start [] = mem := by
  funext address
  simp [store]

theorem window_store (mem : Nat → α) (start : Nat) (data : List α) :
    window (store mem start data) start data.length = data := by
  apply List.ext_getElem (by simp)
  intro k bound _
  simp only [window, List.getElem_map, List.getElem_range]
  exact store_inside mem (by simpa using bound)

theorem window_store_disjoint (mem : Nat → α) {start count place : Nat} {data : List α}
    (disjoint : start + count ≤ place ∨ place + data.length ≤ start) :
    window (store mem place data) start count = window mem start count := by
  apply window_congr
  intro k inside
  exact store_outside mem (by omega)

/-- A copy into two memories that hold the same in a window leaves them the same there. -/
theorem window_store_congr {mem mem' : Nat → α} {start count : Nat}
    (same : window mem start count = window mem' start count) (place : Nat) (data : List α) :
    window (store mem place data) start count = window (store mem' place data) start count := by
  refine window_congr fun k inside => ?_
  have here : mem (start + k) = mem' (start + k) := by
    have found : (window mem start count)[k]? = some (mem (start + k)) := getElem?_window mem inside
    rw [same, getElem?_window mem' inside] at found
    exact (Option.some.inj found).symm
  unfold store
  rw [here]

/-- A copy leaves data in a window of every memory, and nothing else is written, if and only if it
is a copy of the data. -/
theorem store_restores_iff [Nontrivial α] {copied data : List α} :
    (∀ (mem : Nat → α) (start : Nat), window (store mem start copied) start data.length = data ∧
        ∀ address, address < start ∨ start + data.length ≤ address →
          store mem start copied address = mem address) ↔
      copied = data := by
  constructor
  · intro restores
    have cell (mem : Nat → α) {k : Nat} (inside : k < data.length) :
        store mem 0 copied k = data[k] := by
      have held := @getElem?_window _ (store mem 0 copied) 0 _ _ inside
      rw [(restores mem 0).1, List.getElem?_eq_getElem inside, Nat.zero_add] at held
      exact (Option.some.inj held).symm
    have written (mem : Nat → α) {k : Nat} (inside : k < copied.length) :
        store mem 0 copied k = copied[k] := by
      have stored := @store_inside _ mem 0 _ _ inside
      rwa [Nat.zero_add] at stored
    -- a cell that only one of the two lists has holds every value
    have both (k : Nat) : k < copied.length ↔ k < data.length := by
      obtain ⟨one, other, differs⟩ := exists_pair_ne α
      by_contra apart
      by_cases inside : k < copied.length
      · have outside : data.length ≤ k := by
          by_contra within
          exact apart (iff_of_true inside (by omega))
        have kept (value : α) : copied[k] = value :=
          (written (fun _ => value) inside).symm.trans
            ((restores (fun _ => value) 0).2 k (.inr (by omega)))
        exact differs ((kept one).symm.trans (kept other))
      · have within : k < data.length := by
          by_contra beyond
          exact apart (iff_of_false inside beyond)
        have kept (value : α) : data[k] = value :=
          (cell (fun _ => value) within).symm.trans (store_outside _ (.inr (by omega)))
        exact differs ((kept one).symm.trans (kept other))
    have length : copied.length = data.length := by
      rcases Nat.lt_trichotomy copied.length data.length with less | same | more
      · exact absurd ((both _).mpr less) (Nat.lt_irrefl _)
      · exact same
      · exact absurd ((both _).mp more) (Nat.lt_irrefl _)
    refine List.ext_getElem length fun k first second => ?_
    obtain ⟨value, -⟩ := exists_pair_ne α
    exact (written (fun _ => value) first).symm.trans (cell _ second)
  · rintro rfl mem start
    exact ⟨window_store mem start copied, fun address outside => store_outside mem outside⟩

/-- Cells that are copied to the same place of another memory. -/
theorem store_window (mem source : Nat → α) (start count address : Nat) :
    store mem start (window source start count) address =
      if start ≤ address ∧ address < start + count then source address else mem address := by
  split
  case isTrue inside =>
    obtain ⟨k, rfl⟩ := Nat.exists_eq_add_of_le inside.1
    have small : k < (window source start count).length := by simp; omega
    rw [store_inside mem small]
    simp [window]
  case isFalse outside => exact store_outside mem (by simp; omega)

theorem store_append (mem : Nat → α) (start : Nat) (first second : List α) :
    store (store mem start first) (start + first.length) second =
      store mem start (first ++ second) := by
  funext address
  by_cases low : address < start
  · rw [store_outside _ (by omega), store_outside _ (by omega), store_outside _ (by omega)]
  · obtain ⟨k, rfl⟩ := Nat.exists_eq_add_of_le (Nat.le_of_not_lt low)
    by_cases early : k < first.length
    · rw [store_outside _ (by omega), store_inside _ early,
        store_inside _ (by simp; omega), List.getElem_append_left early]
    · by_cases late : k < first.length + second.length
      · obtain ⟨j, rfl⟩ := Nat.exists_eq_add_of_le (Nat.le_of_not_lt early)
        rw [← Nat.add_assoc, store_inside _ (by omega), Nat.add_assoc,
          store_inside _ (by simp; omega), List.getElem_append_right (by omega)]
        simp
      · rw [store_outside _ (by omega), store_outside _ (by omega),
          store_outside _ (by simp; omega)]

section Strings

variable [DecidableEq α] {stop : α} {mem mem' : Nat → α} {start bound k : Nat}

/-- The string at an address, with `stop` from its end on. -/
def stringAt (stop : α) (mem : Nat → α) (start k : Nat) : α :=
  if ∀ j ≤ k, mem (start + j) ≠ stop then mem (start + k) else stop

theorem stringAt_congr (same : ∀ place < bound, mem place = mem' place) (begins : start ≤ k)
    (inside : k < bound) (ends : mem k = stop) : stringAt stop mem start = stringAt stop mem' start := by
  funext i
  unfold stringAt
  by_cases short : start + i < bound
  · have cells : (∀ j ≤ i, mem (start + j) ≠ stop) ↔ ∀ j ≤ i, mem' (start + j) ≠ stop := by
      refine forall₂_congr fun j before => ?_
      rw [same (start + j) (by omega)]
    rw [same (start + i) short]
    exact if_congr cells rfl rfl
  · have before : k - start ≤ i := by omega
    have place : start + (k - start) = k := Nat.add_sub_cancel' begins
    rw [if_neg fun longer => longer _ before (place.symm ▸ ends),
      if_neg fun longer => longer _ before (place.symm ▸ same k inside ▸ ends)]

theorem stringAt_eq (longer : ∀ j < k, mem (start + j) ≠ stop) :
    stringAt stop mem start k = mem (start + k) := by
  unfold stringAt
  split
  · rfl
  case isFalse ended =>
    by_contra last
    refine ended fun j before => ?_
    rcases Nat.lt_or_eq_of_le before with earlier | rfl
    · exact longer j earlier
    · exact fun here => last here.symm

end Strings

end Foundation
