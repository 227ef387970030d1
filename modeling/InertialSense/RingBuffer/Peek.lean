import InertialSense.RingBuffer.Refinement

/-! Peeking against reading: `ringBufPeek` with an offset, and `ringBufRead` after that many bytes
were removed. -/

namespace InertialSense.RingBuffer

open Foundation

/-- Peeking delivers what is behind the offset, as many bytes of it as are asked for and there. -/
def PeekAgrees (rbuf : RingBuf) (len offset : Nat) : Prop :=
  (ringBufPeek rbuf len offset).1 = rbuf ∧
    ((ringBufPeek rbuf len offset).2.length : Int) =
      min (len : Int) (max (ringBufUsed rbuf - offset) 0) ∧
    (ringBufPeek rbuf len offset).2 = (ringBufRead (ringBufRemove rbuf offset).1 len).2

variable {rbuf : RingBuf} {len offset : Nat}

/-- Both pointers are in the buffer. -/
structure Inside (rbuf : RingBuf) : Prop where
  rd : rbuf.rdPtr < rbuf.bufSize
  wr : rbuf.wrPtr < rbuf.bufSize

theorem Inside.used_eq (inside : Inside rbuf) : ringBufUsed rbuf = rbuf.used := by
  obtain ⟨rd, wr⟩ := inside
  unfold ringBufUsed RingBuf.used
  dsimp only
  split <;> split <;> omega

/-- Every place is on a boundary of words of one byte. -/
theorem Inside.wf (inside : Inside rbuf) (some : rbuf.used ≠ 0) :
    ({ rbuf with wordByteSize := 1 } : RingBuf).Wf where
  word := Nat.le_refl 1
  sizeAligned := Nat.one_dvd _
  wordSmall := by
    obtain ⟨rd, wr⟩ := inside
    unfold RingBuf.used at some
    show 1 < rbuf.bufSize
    split at some <;> omega
  rdInside := inside.rd
  wrInside := inside.wr
  rdAligned := Nat.one_dvd _
  wrAligned := Nat.one_dvd _

private theorem remove_word :
    (ringBufRemove { rbuf with wordByteSize := 1 } offset).1 =
      { (ringBufRemove rbuf offset).1 with wordByteSize := 1 } := by
  have used : ringBufUsed { rbuf with wordByteSize := 1 } = ringBufUsed rbuf := rfl
  unfold ringBufRemove
  rw [used]
  dsimp only
  split
  · rfl
  · split <;> rfl

private theorem read_word :
    (ringBufRead { rbuf with wordByteSize := 1 } len).2 = (ringBufRead rbuf len).2 := by
  have used : ringBufUsed { rbuf with wordByteSize := 1 } = ringBufUsed rbuf := rfl
  unfold ringBufRead
  rw [used]
  dsimp only
  split
  · rfl
  · split <;> rfl

private theorem read_removed (inside : Inside rbuf) :
    (ringBufRead (ringBufRemove rbuf offset).1 len).2 =
      (rbuf.circular rbuf.rdPtr rbuf.used |>.drop offset).take len := by
  by_cases empty : rbuf.used = 0
  · have none : ringBufUsed rbuf ≤ 0 := by
      rw [inside.used_eq, empty]
      exact Int.le_refl 0
    have same : (ringBufRemove rbuf offset).1 = rbuf := by
      unfold ringBufRemove
      dsimp only
      rw [if_pos none]
    rw [same, empty]
    unfold ringBufRead
    rw [if_pos none]
    simp [RingBuf.circular]
  · have wf := inside.wf empty
    obtain ⟨moved, dropped, -⟩ := ringBufRemove_spec wf (Nat.one_dvd offset)
    rw [remove_word] at moved dropped
    obtain ⟨-, -, taken⟩ := ringBufRead_spec moved (Nat.one_dvd len)
    rw [dropped, wf.content_eq, read_word] at taken
    exact taken

private theorem peek_within (inside : Inside rbuf) (before : offset < rbuf.used) :
    ringBufPeek rbuf len offset = (rbuf,
      if rbuf.wrPtr < rbuf.wrap rbuf.rdPtr offset ∧
          rbuf.bufSize - rbuf.wrap rbuf.rdPtr offset < min len rbuf.used then
        window rbuf.mem (rbuf.wrap rbuf.rdPtr offset)
            (rbuf.bufSize - rbuf.wrap rbuf.rdPtr offset) ++
          window rbuf.mem 0 (min len rbuf.used - (rbuf.bufSize - rbuf.wrap rbuf.rdPtr offset))
      else window rbuf.mem (rbuf.wrap rbuf.rdPtr offset) (min len rbuf.used)) := by
  have place : (if rbuf.bufSize ≤ rbuf.rdPtr + offset then rbuf.rdPtr + offset - rbuf.bufSize
      else rbuf.rdPtr + offset) = rbuf.wrap rbuf.rdPtr offset := by
    unfold RingBuf.wrap
    split <;> split <;> omega
  unfold ringBufPeek
  rw [inside.used_eq]
  dsimp only
  rw [if_neg (by omega), if_neg (by omega), place, Int.toNat_natCast]
  split <;> rfl

private theorem peek_behind (inside : Inside rbuf) (behind : rbuf.used ≤ offset) :
    ringBufPeek rbuf len offset = (rbuf, []) := by
  unfold ringBufPeek
  rw [inside.used_eq]
  dsimp only
  rw [if_pos (by omega : (rbuf.used : Int) ≤ offset)]
  split <;> rfl

private theorem peek_length (inside : Inside rbuf) (before : offset < rbuf.used) :
    (ringBufPeek rbuf len offset).2.length = min len rbuf.used := by
  rw [peek_within inside before]
  dsimp only
  split
  case isTrue wrapped =>
    rw [List.length_append, window_length, window_length]
    exact Nat.add_sub_cancel' (Nat.le_of_lt wrapped.2)
  case isFalse => exact window_length ..

/-- They are the right ones unless they are too many. -/
private theorem peek_delivers (inside : Inside rbuf) (before : offset < rbuf.used)
    (there : min len rbuf.used + offset ≤ rbuf.used) :
    (ringBufPeek rbuf len offset).2 =
      rbuf.circular (rbuf.wrap rbuf.rdPtr offset) (min len rbuf.used) := by
  obtain ⟨rd, wr⟩ := inside
  have size : rbuf.used = if rbuf.rdPtr ≤ rbuf.wrPtr then rbuf.wrPtr - rbuf.rdPtr
    else rbuf.wrPtr + rbuf.bufSize - rbuf.rdPtr := rfl
  have start := wrap_inside rd (show offset ≤ rbuf.bufSize by split at size <;> omega)
  rw [peek_within ⟨rd, wr⟩ before]
  dsimp only
  split
  case isTrue wrapped =>
    obtain ⟨rest, total⟩ := Nat.exists_eq_add_of_le (Nat.le_of_lt wrapped.2)
    have first : rbuf.wrap (rbuf.wrap rbuf.rdPtr offset)
        (rbuf.bufSize - rbuf.wrap rbuf.rdPtr offset) = 0 := by
      rw [RingBuf.wrap, if_neg (by omega)]
      omega
    rw [total, Nat.add_sub_cancel_left, circular_add start (by split at size <;> omega), first,
      circular_straight (by omega), circular_straight (by split at size <;> omega)]
  case isFalse straight =>
    rw [circular_straight]
    have there : rbuf.wrap rbuf.rdPtr offset =
      if rbuf.rdPtr + offset < rbuf.bufSize then rbuf.rdPtr + offset
      else rbuf.rdPtr + offset - rbuf.bufSize := rfl
    split at size <;> split at there <;> omega

/-- Exactly when peeking delivers what reading would. -/
theorem peek_agrees_iff (rdInside : rbuf.rdPtr < rbuf.bufSize)
    (wrInside : rbuf.wrPtr < rbuf.bufSize) :
    PeekAgrees rbuf len offset ↔
      offset = 0 ∨ (len : Int) + offset ≤ ringBufUsed rbuf ∨ ringBufUsed rbuf ≤ offset := by
  have inside : Inside rbuf := ⟨rdInside, wrInside⟩
  unfold PeekAgrees
  rw [inside.used_eq, read_removed inside]
  rcases Nat.lt_or_ge offset rbuf.used with before | behind
  · rw [peek_length inside before]
    constructor
    · rintro ⟨-, count, -⟩
      omega
    · intro within
      have there : min len rbuf.used + offset ≤ rbuf.used := by omega
      refine ⟨by rw [peek_within inside before], by omega, ?_⟩
      obtain ⟨rest, total⟩ := Nat.exists_eq_add_of_le (Nat.le_of_lt before)
      obtain ⟨behind, more⟩ : ∃ behind, rest = min len rbuf.used + behind :=
        Nat.exists_eq_add_of_le (by omega)
      have short : rbuf.used ≤ rbuf.bufSize := by
        unfold RingBuf.used
        split <;> omega
      rw [peek_delivers inside before there, total, circular_add rdInside (by omega),
        List.drop_left' (circular_length ..), ← total, more,
        circular_add (wrap_inside rdInside (by omega)) (by omega)]
      rcases Nat.le_total len rbuf.used with le | le
      · rw [Nat.min_eq_left le, List.take_left' (circular_length ..)]
      · have none : behind = 0 := by omega
        rw [none, List.take_of_length_le (by simp)]
        exact (List.append_nil _).symm
  · rw [peek_behind inside behind]
    refine iff_of_true ⟨rfl, ?_, ?_⟩ (.inr (.inr (by omega)))
    · rw [List.length_nil]
      omega
    · rw [List.drop_of_length_le (by rw [circular_length]; exact behind), List.take_nil]

/-- Three of five used bytes that wrap, from the second one on. -/
theorem peek_agrees_wrapped :
    PeekAgrees ⟨fun k => UInt8.ofNat k, 6, 3, 8, 1⟩ 3 1 :=
  (peek_agrees_iff (by decide) (by decide)).mpr (.inr (.inl (by decide)))

/-- Four bytes are delivered of the two that are left. -/
theorem peek_too_many : ¬PeekAgrees ⟨fun k => UInt8.ofNat k, 0, 4, 8, 1⟩ 4 2 := by
  rintro ⟨-, count, -⟩
  exact absurd count (by decide)

end InertialSense.RingBuffer
