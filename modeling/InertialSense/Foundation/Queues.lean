import Mathlib.Data.List.Basic
import Mathlib.Tactic.Translate.GuessName

/-! Queues. A bounded one makes room by forgetting its oldest items: the abstract view of a ring buffer
that overwrites on overflow. One for each key is kept in an ordered map: what is behind each key when an
item is added, when the queues of another map are moved in, and when all items are taken out. -/

namespace Foundation

namespace BoundedFifo

variable {α : Type*}

/-- Append everything and keep the newest `capacity` items. -/
def push (capacity : Nat) (queue items : List α) : List α :=
  (queue ++ items).drop (queue.length + items.length - capacity)

def overflows (capacity : Nat) (queue items : List α) : Bool :=
  decide (capacity < queue.length + items.length)

theorem push_of_fits {capacity : Nat} {queue items : List α}
    (fits : queue.length + items.length ≤ capacity) :
    push capacity queue items = queue ++ items := by
  simp [push, Nat.sub_eq_zero_of_le fits]

end BoundedFifo

variable {κ α : Type*}

def itemsOf [DecidableEq κ] (key : κ) (items : List (κ × α)) : List α :=
  items.filterMap fun item => if item.1 = key then some item.2 else none

section Items

variable [DecidableEq κ] {key : κ}

theorem itemsOf_append (first second : List (κ × α)) :
    itemsOf key (first ++ second) = itemsOf key first ++ itemsOf key second :=
  List.filterMap_append

theorem itemsOf_queue (key' : κ) (queue : List α) :
    itemsOf key (queue.map fun item => (key', item)) = if key' = key then queue else [] := by
  unfold itemsOf
  induction queue with
  | nil => simp
  | cons item rest ih =>
    rw [List.map_cons, List.filterMap_cons, ih]
    split <;> simp_all

/-- The items of these queues, one queue after another. -/
def flatten (entries : List (κ × List α)) : List (κ × α) :=
  entries.flatMap fun entry => entry.2.map fun item => (entry.1, item)

theorem itemsOf_flatten_cons (entry : κ × List α) (rest : List (κ × List α)) :
    itemsOf key (flatten (entry :: rest)) =
      (if entry.1 = key then entry.2 else []) ++ itemsOf key (flatten rest) := by
  unfold flatten
  rw [List.flatMap_cons, itemsOf_append, itemsOf_queue]

theorem itemsOf_flatten_absent {entries : List (κ × List α)}
    (absent : ∀ entry ∈ entries, entry.1 ≠ key) : itemsOf key (flatten entries) = [] := by
  induction entries with
  | nil => rfl
  | cons entry rest ih =>
    rw [itemsOf_flatten_cons, if_neg (absent entry (.head _)), List.nil_append]
    exact ih fun entry member => absent entry (.tail _ member)

theorem itemsOf_flatten {entries : List (κ × List α)}
    (distinct : entries.Pairwise fun a b => a.1 ≠ b.1) {queue : List α}
    (member : (key, queue) ∈ entries) : itemsOf key (flatten entries) = queue := by
  induction entries with
  | nil => cases member
  | cons entry rest ih =>
    obtain ⟨different, distinct⟩ := List.pairwise_cons.mp distinct
    rw [itemsOf_flatten_cons]
    obtain rfl | later := List.mem_cons.mp member
    · rw [if_pos rfl, itemsOf_flatten_absent fun other inside => (different other inside).symm,
        List.append_nil]
    · rw [if_neg (different _ later), List.nil_append, ih distinct later]

end Items

abbrev Queues (κ α : Type*) [Ord κ] : Type _ := Std.TreeMap κ (List α)

namespace Queues

variable [Ord κ]

/-- The queue behind this key, which is empty if there is none. -/
def queue (queues : Queues κ α) (key : κ) : List α := queues.getD key []

def pushBack (queues : Queues κ α) (key : κ) (item : α) : Queues κ α :=
  queues.insert key (queues.queue key ++ [item])

/-- Every queue of the second map takes the place of the one with its key. -/
def assign (queues fresh : Queues κ α) : Queues κ α := queues.insertMany fresh.toList

/-- The keys stay. -/
def clear (queues : Queues κ α) : Queues κ α := queues.map fun _ _ => []

/-- All items, key after key. -/
def items (queues : Queues κ α) : List (κ × α) := flatten queues.toList

variable [Std.TransOrd κ] {queues fresh : Queues κ α} {key : κ}

@[simp] theorem queue_empty : (∅ : Queues κ α).queue key = [] := Std.TreeMap.getD_emptyc

variable [Std.LawfulEqOrd κ] [DecidableEq κ]

theorem queue_pushBack (key' : κ) (item : α) :
    (queues.pushBack key' item).queue key =
      queues.queue key ++ if key' = key then [item] else [] := by
  unfold pushBack queue
  rw [Std.TreeMap.getD_insert]
  by_cases same : key' = key
  · subst same
    rw [if_pos rfl, if_pos Std.ReflCmp.compare_self]
  · rw [if_neg same, if_neg fun equal => same (Std.LawfulEqCmp.eq_of_compare equal),
      List.append_nil]

omit [DecidableEq κ] in
@[simp] theorem queue_clear : queues.clear.queue key = [] := by
  unfold clear queue
  rw [Std.TreeMap.getD_map]
  cases queues[key]? <;> rfl

omit [DecidableEq κ] in
theorem mem_or_absent (queues : Queues κ α) (key : κ) :
    (key, queues.queue key) ∈ queues.toList ∨
      (∀ entry ∈ queues.toList, entry.1 ≠ key) ∧ queues.queue key = [] := by
  unfold queue
  rw [Std.TreeMap.getD_eq_getD_getElem?]
  cases found : queues[key]? with
  | some items => exact .inl (Std.TreeMap.mem_toList_iff_getElem?_eq_some.mpr found)
  | none =>
    refine .inr ⟨fun entry member same => ?_, rfl⟩
    subst same
    rw [Std.TreeMap.mem_toList_iff_getElem?_eq_some.mp member] at found
    cases found

theorem queue_assign (empty : ∀ key, queues.queue key = []) :
    (queues.assign fresh).queue key = fresh.queue key := by
  obtain member | ⟨absent, none⟩ := fresh.mem_or_absent key
  · exact Std.TreeMap.getD_insertMany_list_of_mem Std.ReflCmp.compare_self
      fresh.distinct_keys_toList member
  · rw [none, ← empty key]
    refine Std.TreeMap.getD_insertMany_list_of_contains_eq_false ?_
    rw [List.contains_eq_mem, decide_eq_false_iff_not]
    intro inside
    obtain ⟨entry, member, same⟩ := List.mem_map.mp inside
    exact absent entry member same

/-- What comes out of the map with a key is what is behind it. -/
theorem itemsOf_items : itemsOf key queues.items = queues.queue key := by
  obtain member | ⟨absent, none⟩ := queues.mem_or_absent key
  · refine itemsOf_flatten (queues.distinct_keys_toList.imp fun different same => ?_) member
    rw [same] at different
    exact different Std.ReflCmp.compare_self
  · rw [none]
    exact itemsOf_flatten_absent absent

end Queues

end Foundation
