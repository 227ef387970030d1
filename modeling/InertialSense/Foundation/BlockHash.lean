import Mathlib.Algebra.Group.Nat.Defs
import Mathlib.Data.List.Basic

/-! Iterated compression of a byte string in blocks of a fixed size: the value
reached by all complete blocks, and the bytes that still wait for a block. A
streaming implementation keeps exactly this pair. -/

namespace Foundation.BlockHash

variable {η α : Type*} (compress : η → List α → η) (size : Nat)

/-- Compress the first `count` blocks of `data`. -/
def foldBlocks : Nat → η → List α → η
  | 0, value, _ => value
  | count + 1, value, data => foldBlocks count (compress value (data.take size)) (data.drop size)

/-- Compress every complete block of `data`. -/
def absorb (value : η) (data : List α) : η :=
  foldBlocks compress size (data.length / size) value data

/-- The bytes after the last complete block. -/
def waiting (data : List α) : List α := data.drop (size * (data.length / size))

variable {compress size}

theorem foldBlocks_add (first second : Nat) (value : η) (data : List α) :
    foldBlocks compress size (first + second) value data =
      foldBlocks compress size second (foldBlocks compress size first value data)
        (data.drop (size * first)) := by
  induction first generalizing value data with
  | zero => simp [foldBlocks]
  | succ first ih =>
    rw [Nat.succ_add, foldBlocks, ih, foldBlocks, List.drop_drop, Nat.mul_succ, Nat.add_comm]

theorem foldBlocks_append {count : Nat} (value : η) {data : List α} (more : List α)
    (complete : size * count ≤ data.length) :
    foldBlocks compress size count value (data ++ more) =
      foldBlocks compress size count value data := by
  induction count generalizing value data with
  | zero => rfl
  | succ count ih =>
    have block : size ≤ data.length := by
      rw [Nat.mul_succ] at complete
      omega
    rw [foldBlocks, foldBlocks, List.take_append_of_le_length block,
      List.drop_append_of_le_length block]
    apply ih
    rw [Nat.mul_succ] at complete
    simp
    omega

@[simp] theorem waiting_length (data : List α) :
    (waiting size data).length = data.length % size := by
  have := Nat.div_add_mod data.length size
  simp [waiting]
  omega

theorem waiting_of_short {data : List α} (short : data.length < size) :
    waiting size data = data := by
  simp [waiting, Nat.div_eq_of_lt short]

private theorem blocks_append (data more : List α) (positive : 0 < size) :
    (data ++ more).length / size =
      data.length / size + ((waiting size data).length + more.length) / size := by
  have whole := Nat.div_add_mod data.length size
  rw [List.length_append, waiting_length]
  conv_lhs => rw [← whole]
  rw [Nat.add_assoc, Nat.mul_add_div positive]

/-- Only the value reached and the waiting bytes matter for what comes next. -/
theorem absorb_append (value : η) (data more : List α) (positive : 0 < size) :
    absorb compress size value (data ++ more) =
      foldBlocks compress size (((waiting size data).length + more.length) / size)
        (absorb compress size value data) (waiting size data ++ more) := by
  have complete : size * (data.length / size) ≤ data.length := Nat.mul_div_le _ _
  rw [absorb, blocks_append data more positive, foldBlocks_add, foldBlocks_append value more complete,
    List.drop_append_of_le_length complete]
  rfl

theorem waiting_append (data more : List α) (positive : 0 < size) :
    waiting size (data ++ more) = waiting size (waiting size data ++ more) := by
  have complete : size * (data.length / size) ≤ data.length := Nat.mul_div_le _ _
  rw [waiting, blocks_append data more positive, Nat.mul_add, ← List.drop_drop,
    List.drop_append_of_le_length complete]
  simp only [waiting, List.length_append]

end Foundation.BlockHash
