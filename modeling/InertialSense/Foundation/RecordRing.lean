import Mathlib.Data.List.Basic

/-! A file with a position, and such a file as a ring: records of one width are written one after the
other, and the position goes back to the start behind the last one that has room. -/

namespace Foundation

variable {α : Type*}

/-- A file that is open for reading and writing. -/
structure PosFile (α : Type*) where
  content : List α
  pos : Nat
deriving DecidableEq

namespace PosFile

/-- `fopen` with `wb+`. -/
def empty : PosFile α := ⟨[], 0⟩

/-- `fwrite` of these bytes. -/
def write (f : PosFile α) (data : List α) : PosFile α :=
  ⟨f.content.take f.pos ++ data ++ f.content.drop (f.pos + data.length), f.pos + data.length⟩

/-- `fread` of at most so many bytes. -/
def read (f : PosFile α) (count : Nat) : PosFile α × List α :=
  let data := (f.content.drop f.pos).take count
  (⟨f.content, f.pos + data.length⟩, data)

/-- `fseek` from the start. -/
def seek (f : PosFile α) (pos : Nat) : PosFile α := ⟨f.content, pos⟩

/-- The content from the position on, and then that before it. -/
def rotated (f : PosFile α) : List α := f.content.drop f.pos ++ f.content.take f.pos

variable {f : PosFile α} {data : List α}

theorem write_inside (inside : f.pos + data.length ≤ f.content.length) :
    (f.write data).content.length = f.content.length ∧
      (f.write data).rotated = f.rotated.drop data.length ++ data := by
  have before : (f.content.take f.pos).length = f.pos := List.length_take_of_le (by omega)
  have front : (f.content.take f.pos ++ data).length = f.pos + data.length := by
    rw [List.length_append, before]
  have room : data.length ≤ (f.content.drop f.pos).length := by
    rw [List.length_drop]
    omega
  constructor
  · unfold write
    rw [List.length_append, front, List.length_drop]
    omega
  · unfold write rotated
    dsimp only
    rw [List.drop_left' front, List.take_left' front, List.drop_append_of_le_length room, List.drop_drop,
      List.append_assoc]

theorem write_end (last : f.pos = f.content.length) :
    (f.write data).content = f.content ++ data ∧ (f.write data).rotated = f.rotated ++ data := by
  have content : (f.write data).content = f.content ++ data := by
    unfold write
    dsimp only
    rw [last, List.take_length, List.drop_eq_nil_of_le (Nat.le_add_right _ _), List.append_nil]
  have pos : (f.write data).pos = (f.content ++ data).length := by
    rw [List.length_append, ← last]
    rfl
  refine ⟨content, ?_⟩
  unfold rotated
  rw [content, pos, last, List.drop_length, List.take_length, List.drop_length, List.take_length]
  rfl

/-- From the end back to the start. -/
theorem rotated_seek_zero (last : f.pos = f.content.length) : (f.seek 0).rotated = f.rotated := by
  unfold rotated seek
  rw [last, List.drop_zero, List.take_zero, List.drop_length, List.take_length, List.append_nil,
    List.nil_append]

end PosFile

/-- The file holds the newest of the records, and its position is where the next one goes. -/
structure RingHolds (capacity width : Nat) (records : List (List α)) (f : PosFile α) : Prop where
  widths : ∀ record ∈ records, record.length = width
  pos : f.pos = records.length % capacity * width
  length : f.content.length = min records.length capacity * width
  rotated : f.rotated = (records.drop (records.length - capacity)).flatten

/-- The position behind this one, with which a ring begins again at its end. -/
def ringNext (capacity width pos : Nat) : Nat := if (pos + width) / width ≥ capacity then 0 else pos + width

namespace RingHolds

variable {capacity width : Nat} {records : List (List α)} {record : List α} {f : PosFile α}

theorem empty (capacity width : Nat) : RingHolds capacity width [] (PosFile.empty : PosFile α) :=
  ⟨nofun, by simp [PosFile.empty], by simp [PosFile.empty], by simp [PosFile.empty, PosFile.rotated]⟩

theorem drop_newest (widths : ∀ record ∈ records, record.length = width) {oldest : Nat}
    (inside : oldest < records.length) :
    (records.drop oldest).flatten.drop width = (records.drop (oldest + 1)).flatten := by
  have first := widths _ (List.getElem_mem inside)
  rw [List.drop_eq_getElem_cons inside, List.flatten_cons, List.drop_left' first]

theorem written (holds : RingHolds capacity width records f) (room : 0 < capacity)
    (size : record.length = width) :
    (f.write record).content.length = min (records.length + 1) capacity * width ∧
      (f.write record).rotated =
        ((records ++ [record]).drop (records.length + 1 - capacity)).flatten := by
  have newest : ((records ++ [record]).drop (records.length + 1 - capacity)).flatten =
      (records.drop (records.length + 1 - capacity)).flatten ++ record := by
    rw [List.drop_append_of_le_length (by omega), List.flatten_append, List.flatten_singleton]
  have pos := holds.pos
  have length := holds.length
  rw [newest]
  obtain few | full := Nat.lt_or_ge records.length capacity
  · rw [Nat.mod_eq_of_lt few] at pos
    rw [Nat.min_eq_left (by omega)] at length
    obtain ⟨content, rotated⟩ := @PosFile.write_end _ f record (by rw [pos, length])
    rw [content, rotated, holds.rotated, List.length_append, length, size, Nat.min_eq_left (by omega),
      Nat.succ_mul, show records.length - capacity = records.length + 1 - capacity by omega]
    exact ⟨rfl, rfl⟩
  · rw [Nat.min_eq_right full] at length
    have slot := Nat.mod_lt records.length room
    have inside : f.pos + record.length ≤ f.content.length := by
      rw [pos, length, size, ← Nat.succ_mul]
      exact Nat.mul_le_mul_right width slot
    obtain ⟨content, rotated⟩ := PosFile.write_inside inside
    rw [content, rotated, holds.rotated, size, drop_newest holds.widths (by omega), length,
      Nat.min_eq_right (by omega), show records.length - capacity + 1 = records.length + 1 - capacity by omega]
    exact ⟨rfl, rfl⟩

theorem append (holds : RingHolds capacity width records f) (room : 0 < capacity) (wide : 0 < width)
    (size : record.length = width) :
    RingHolds capacity width (records ++ [record])
      ((f.write record).seek (ringNext capacity width f.pos)) := by
  obtain ⟨length, rotated⟩ := holds.written room size
  have count : (records ++ [record]).length = records.length + 1 := List.length_append
  have widths : ∀ other ∈ records ++ [record], other.length = width := by
    intro other member
    obtain earlier | last := List.mem_append.mp member
    · exact holds.widths other earlier
    · rw [List.mem_singleton.mp last, size]
  have behind : (f.write record).pos = (records.length % capacity + 1) * width := by
    rw [Nat.succ_mul, ← holds.pos, ← size]
    rfl
  have next : ringNext capacity width f.pos =
      if records.length % capacity + 1 = capacity then 0 else (records.length % capacity + 1) * width := by
    have slot := Nat.mod_lt records.length room
    unfold ringNext
    rw [holds.pos, ← Nat.succ_mul, Nat.mul_div_cancel _ wide]
    exact if_congr (by omega) rfl rfl
  have place : (records.length + 1) % capacity =
      if records.length % capacity + 1 = capacity then 0 else records.length % capacity + 1 := by
    have slot := Nat.mod_lt records.length room
    have whole : records.length + 1 =
        capacity * (records.length / capacity) + (records.length % capacity + 1) := by
      rw [← Nat.add_assoc, Nat.div_add_mod]
    rw [whole, Nat.mul_add_mod]
    split
    case isTrue last => rw [last, Nat.mod_self]
    case isFalse more => exact Nat.mod_eq_of_lt (by omega)
  refine ⟨widths, ?_, ?_, ?_⟩
  · rw [next, count, place]
    split
    · exact (Nat.zero_mul width).symm
    · rfl
  · rw [count]
    exact length
  · rw [count, ← rotated, next]
    split
    case isTrue last =>
      have few := Nat.mod_le records.length capacity
      refine PosFile.rotated_seek_zero ?_
      rw [behind, length, last, Nat.min_eq_right (by omega)]
    case isFalse => rw [← behind]; rfl

end RingHolds

end Foundation
