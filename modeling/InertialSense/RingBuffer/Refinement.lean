import InertialSense.Foundation.Queues
import InertialSense.RingBuffer.Model
import Mathlib.Tactic.Ring

/-! The ring buffer against the bounded queue it stands for. Every operation is
described by one circular window of the memory; the write is the only one whose
description needs a premise. -/

namespace InertialSense.RingBuffer

open Foundation

/-- The queue view of a call: the capacity is one word short of the buffer. -/
def fifoCall (capacity : Nat) (queue : List UInt8) : Call → List UInt8 × Answer
  | .write buf => (BoundedFifo.push capacity queue buf,
      .status (if BoundedFifo.overflows capacity queue buf then 1 else 0))
  | .read len => (queue.drop len, .bytes (queue.take len))
  | .remove len => (queue.drop len, .count (min len queue.length : Nat))
  | .clear => ([], .count queue.length)

/-- Both pointers are inside the buffer and on a word boundary. -/
structure RingBuf.Wf (rbuf : RingBuf) : Prop where
  word : 1 ≤ rbuf.wordByteSize
  sizeAligned : rbuf.wordByteSize ∣ rbuf.bufSize
  wordSmall : rbuf.wordByteSize < rbuf.bufSize
  rdInside : rbuf.rdPtr < rbuf.bufSize
  wrInside : rbuf.wrPtr < rbuf.bufSize
  rdAligned : rbuf.wordByteSize ∣ rbuf.rdPtr
  wrAligned : rbuf.wordByteSize ∣ rbuf.wrPtr

/-- `count` bytes from `place` on, wrapping at the end of the buffer. -/
def RingBuf.circular (rbuf : RingBuf) (place count : Nat) : List UInt8 :=
  (List.range count).map fun k => rbuf.mem (rbuf.wrap place k)

/-- The number of used bytes as a natural number. -/
def RingBuf.used (rbuf : RingBuf) : Nat :=
  if rbuf.rdPtr ≤ rbuf.wrPtr then rbuf.wrPtr - rbuf.rdPtr
  else rbuf.wrPtr + rbuf.bufSize - rbuf.rdPtr

section Windows

variable {rbuf : RingBuf}

theorem RingBuf.Wf.used_eq (wf : rbuf.Wf) : ringBufUsed rbuf = rbuf.used := by
  have := wf.rdInside
  have := wf.wrInside
  simp only [ringBufUsed, RingBuf.used]
  split <;> split <;> omega

theorem RingBuf.Wf.content_eq (wf : rbuf.Wf) :
    rbuf.content = rbuf.circular rbuf.rdPtr rbuf.used := by
  simp [RingBuf.content, RingBuf.circular, wf.used_eq]

@[simp] theorem circular_length (place count : Nat) :
    (rbuf.circular place count).length = count := by
  simp [RingBuf.circular]

theorem RingBuf.Wf.content_length (wf : rbuf.Wf) : rbuf.content.length = rbuf.used := by
  simp [wf.content_eq]

theorem wrap_inside {place k : Nat} (inside : place < rbuf.bufSize) (bound : k ≤ rbuf.bufSize) :
    rbuf.wrap place k < rbuf.bufSize := by
  unfold RingBuf.wrap
  split <;> omega

theorem wrap_wrap {place first second : Nat} (inside : place < rbuf.bufSize)
    (bound : first + second ≤ rbuf.bufSize) :
    rbuf.wrap (rbuf.wrap place first) second = rbuf.wrap place (first + second) := by
  unfold RingBuf.wrap
  split <;> split <;> split <;> omega

theorem wrap_aligned {word place k : Nat} (size : word ∣ rbuf.bufSize) (start : word ∣ place)
    (count : word ∣ k) : word ∣ rbuf.wrap place k := by
  unfold RingBuf.wrap
  split
  · exact Nat.dvd_add start count
  · exact Nat.dvd_sub (Nat.dvd_add start count) size

theorem circular_add {place first second : Nat} (inside : place < rbuf.bufSize)
    (bound : first + second ≤ rbuf.bufSize) :
    rbuf.circular place (first + second) =
      rbuf.circular place first ++ rbuf.circular (rbuf.wrap place first) second := by
  simp only [RingBuf.circular, List.range_add, List.map_append, List.map_map]
  congr 1
  apply List.map_congr_left
  intro k member
  have below := List.mem_range.mp member
  simp [wrap_wrap inside (by omega : first + k ≤ rbuf.bufSize)]

theorem circular_straight {place count : Nat} (bound : place + count ≤ rbuf.bufSize) :
    rbuf.circular place count = window rbuf.mem place count := by
  apply List.map_congr_left
  intro k member
  have below := List.mem_range.mp member
  rw [RingBuf.wrap, if_pos (by omega)]

theorem RingBuf.Wf.used_lt (wf : rbuf.Wf) : rbuf.used < rbuf.bufSize := by
  have := wf.rdInside
  have := wf.wrInside
  unfold RingBuf.used
  split <;> omega

theorem RingBuf.Wf.wrap_used (wf : rbuf.Wf) : rbuf.wrap rbuf.rdPtr rbuf.used = rbuf.wrPtr := by
  have := wf.rdInside
  have := wf.wrInside
  unfold RingBuf.used RingBuf.wrap
  split <;> split <;> omega

theorem RingBuf.Wf.used_aligned (wf : rbuf.Wf) : rbuf.wordByteSize ∣ rbuf.used := by
  unfold RingBuf.used
  split
  · exact Nat.dvd_sub wf.wrAligned wf.rdAligned
  · exact Nat.dvd_sub (Nat.dvd_add wf.wrAligned wf.sizeAligned) wf.rdAligned

end Windows

private theorem aligned_gap {word low high : Nat} (lowAligned : word ∣ low)
    (highAligned : word ∣ high) (below : low < high) : low + word ≤ high := by
  have apart : word ∣ high - low := Nat.dvd_sub highAligned lowAligned
  have := Nat.le_of_dvd (by omega) apart
  omega

theorem RingBuf.Wf.used_le {rbuf : RingBuf} (wf : rbuf.Wf) :
    rbuf.used + rbuf.wordByteSize ≤ rbuf.bufSize :=
  aligned_gap wf.used_aligned wf.sizeAligned wf.used_lt

/-- Moving the read pointer forward by `count` used bytes drops them from the content. -/
theorem advance {rbuf : RingBuf} (wf : rbuf.Wf) {count : Nat} (inside : count ≤ rbuf.used)
    (aligned : rbuf.wordByteSize ∣ count) :
    ({ rbuf with rdPtr := rbuf.wrap rbuf.rdPtr count } : RingBuf).Wf ∧
      ({ rbuf with rdPtr := rbuf.wrap rbuf.rdPtr count } : RingBuf).content =
        rbuf.content.drop count ∧
      rbuf.circular rbuf.rdPtr count = rbuf.content.take count := by
  have short := wf.used_lt
  have moved : ({ rbuf with rdPtr := rbuf.wrap rbuf.rdPtr count } : RingBuf).Wf :=
    { wf with
      rdInside := wrap_inside wf.rdInside (by omega)
      rdAligned := wrap_aligned wf.sizeAligned wf.rdAligned aligned }
  have left : ({ rbuf with rdPtr := rbuf.wrap rbuf.rdPtr count } : RingBuf).used =
      rbuf.used - count := by
    have := wf.rdInside
    have := wf.wrInside
    simp only [RingBuf.used, RingBuf.wrap] at inside ⊢
    split at inside <;> split <;> split <;> omega
  obtain ⟨rest, total⟩ := Nat.exists_eq_add_of_le inside
  have parts : rbuf.content =
      rbuf.circular rbuf.rdPtr count ++ rbuf.circular (rbuf.wrap rbuf.rdPtr count) rest := by
    rw [wf.content_eq, total, circular_add wf.rdInside (by omega)]
  refine ⟨moved, ?_, ?_⟩
  · rw [moved.content_eq, left, parts, List.drop_left' (circular_length ..), total,
      Nat.add_sub_cancel_left]
    rfl
  · rw [parts, List.take_left' (circular_length ..)]

theorem ringBufRead_spec {rbuf : RingBuf} (wf : rbuf.Wf) {len : Nat}
    (aligned : rbuf.wordByteSize ∣ len) :
    (ringBufRead rbuf len).1.Wf ∧
      (ringBufRead rbuf len).1.content = rbuf.content.drop len ∧
      (ringBufRead rbuf len).2 = rbuf.content.take len := by
  have := wf.rdInside
  have := wf.wrInside
  by_cases empty : rbuf.used = 0
  · have none : rbuf.content = [] := List.eq_nil_of_length_eq_zero (by rw [wf.content_length, empty])
    simp [ringBufRead, wf.used_eq, empty, none, wf]
  · have count : min len rbuf.used ≤ rbuf.used := Nat.min_le_right ..
    have countAligned : rbuf.wordByteSize ∣ min len rbuf.used := by
      rcases Nat.le_total len rbuf.used with le | le
      · rwa [Nat.min_eq_left le]
      · rw [Nat.min_eq_right le]
        exact wf.used_aligned
    obtain ⟨moved, dropped, taken⟩ := advance wf count countAligned
    have short := wf.used_lt
    have result : ringBufRead rbuf len =
        ({ rbuf with rdPtr := rbuf.wrap rbuf.rdPtr (min len rbuf.used) },
          rbuf.circular rbuf.rdPtr (min len rbuf.used)) := by
      have busy : ¬ (rbuf.used : Int) ≤ 0 := by omega
      simp only [ringBufRead, wf.used_eq, if_neg busy, Int.toNat_natCast]
      split
      · rename_i wrapped
        have split : min len rbuf.used = (rbuf.bufSize - rbuf.rdPtr) +
            (min len rbuf.used - (rbuf.bufSize - rbuf.rdPtr)) := by omega
        have start : rbuf.wrap rbuf.rdPtr (rbuf.bufSize - rbuf.rdPtr) = 0 := by
          rw [RingBuf.wrap, if_neg (by omega)]
          omega
        have there : rbuf.wrap rbuf.rdPtr (min len rbuf.used) =
            min len rbuf.used - (rbuf.bufSize - rbuf.rdPtr) := by
          rw [RingBuf.wrap, if_neg (by omega)]
          omega
        rw [there]
        nth_rewrite 4 [split]
        rw [circular_add wf.rdInside (by omega), start, circular_straight (by omega),
          circular_straight (by omega)]
      · rename_i straight
        have fits : rbuf.rdPtr + min len rbuf.used ≤ rbuf.bufSize := by
          have size : rbuf.used = if rbuf.rdPtr ≤ rbuf.wrPtr then rbuf.wrPtr - rbuf.rdPtr
            else rbuf.wrPtr + rbuf.bufSize - rbuf.rdPtr := rfl
          split at size <;> omega
        rw [circular_straight fits, RingBuf.wrap]
        congr 2
        split <;> split <;> omega
    rw [result]
    refine ⟨moved, ?_, ?_⟩
    · rw [dropped]
      rcases Nat.le_total len rbuf.used with le | le
      · rw [Nat.min_eq_left le]
      · have all := wf.content_length
        rw [Nat.min_eq_right le, List.drop_of_length_le (by omega), List.drop_of_length_le (by omega)]
    · rw [taken, ← wf.content_length, ← List.take_eq_take_min]

theorem ringBufRemove_spec {rbuf : RingBuf} (wf : rbuf.Wf) {len : Nat}
    (aligned : rbuf.wordByteSize ∣ len) :
    (ringBufRemove rbuf len).1.Wf ∧
      (ringBufRemove rbuf len).1.content = rbuf.content.drop len ∧
      (ringBufRemove rbuf len).2 = min len rbuf.content.length := by
  have size := wf.content_length
  by_cases empty : rbuf.used = 0
  · have none : rbuf.content = [] := List.eq_nil_of_length_eq_zero (by omega)
    simp [ringBufRemove, wf.used_eq, empty, none, wf]
  · have busy : ¬ (rbuf.used : Int) ≤ 0 := by omega
    by_cases whole : rbuf.used ≤ len
    · obtain ⟨moved, dropped, _⟩ := advance wf (Nat.le_refl _) wf.used_aligned
      rw [wf.wrap_used] at moved dropped
      have reach : (rbuf.used : Int) ≤ len := by omega
      simp only [ringBufRemove, wf.used_eq, if_neg busy, if_pos reach]
      refine ⟨moved, ?_, by omega⟩
      rw [dropped, List.drop_of_length_le (by omega), List.drop_of_length_le (by omega)]
    · obtain ⟨moved, dropped, _⟩ := advance wf (Nat.le_of_lt (Nat.lt_of_not_le whole)) aligned
      have short : ¬ (rbuf.used : Int) ≤ len := by omega
      have there : (if rbuf.bufSize ≤ rbuf.rdPtr + len then rbuf.rdPtr + len - rbuf.bufSize
          else rbuf.rdPtr + len) = rbuf.wrap rbuf.rdPtr len := by
        unfold RingBuf.wrap
        split <;> split <;> omega
      simp only [ringBufRemove, wf.used_eq, if_neg busy, if_neg short, there]
      exact ⟨moved, dropped, by omega⟩

theorem ringBufClear_spec {rbuf : RingBuf} (wf : rbuf.Wf) :
    (ringBufClear rbuf).1.Wf ∧ (ringBufClear rbuf).1.content = [] ∧
      (ringBufClear rbuf).2 = rbuf.content.length := by
  refine ⟨?_, ?_, ?_⟩
  · have := wf.wordSmall
    exact { wf with
      rdInside := by simp only [ringBufClear]; omega
      wrInside := by simp only [ringBufClear]; omega
      rdAligned := Nat.dvd_zero _
      wrAligned := Nat.dvd_zero _ }
  · simp [ringBufClear, RingBuf.content, ringBufUsed]
  · simp [ringBufClear, wf.used_eq, wf.content_length]

private theorem copyLoop_fits {rbuf : RingBuf} (wf : rbuf.Wf) {buf : List UInt8}
    (fits : buf.length ≤ rbuf.bufSize - rbuf.wrPtr) (some : buf.length ≠ 0) :
    copyLoop buf (buf.length + 1) rbuf buf.length =
      { rbuf with
        mem := store rbuf.mem rbuf.wrPtr buf
        wrPtr := rbuf.wrap rbuf.wrPtr buf.length } := by
  have := wf.wrInside
  obtain ⟨passes, count⟩ := Nat.exists_eq_succ_of_ne_zero some
  by_cases full : rbuf.bufSize - rbuf.wrPtr ≤ buf.length
  · have exact : rbuf.bufSize - rbuf.wrPtr = buf.length := by omega
    have start : rbuf.wrap rbuf.wrPtr buf.length = 0 := by
      rw [RingBuf.wrap, if_neg (by omega)]
      omega
    rw [start, count, copyLoop, ← count, if_neg some, if_pos full, exact, Nat.sub_self]
    simp [copyLoop]
  · have there : rbuf.wrap rbuf.wrPtr buf.length = rbuf.wrPtr + buf.length := by
      rw [RingBuf.wrap, if_pos (by omega)]
    rw [there, count, copyLoop, ← count, if_neg some, if_neg full]
    simp [copyLoop]

private theorem circular_store {rbuf : RingBuf} {buf : List UInt8} {place count : Nat}
    (apart : ∀ k < count, rbuf.wrap place k < rbuf.wrPtr ∨
      rbuf.wrPtr + buf.length ≤ rbuf.wrap place k) (rdPtr wrPtr : Nat) :
    ({ rbuf with mem := store rbuf.mem rbuf.wrPtr buf, rdPtr, wrPtr } : RingBuf).circular
      place count = rbuf.circular place count := by
  apply List.map_congr_left
  intro k member
  exact store_outside rbuf.mem (apart k (List.mem_range.mp member))

/-- The circular window that ends with the bytes just copied. -/
private theorem circular_written {rbuf : RingBuf} (wf : rbuf.Wf) {buf : List UInt8}
    (fits : buf.length ≤ rbuf.bufSize - rbuf.wrPtr) {dropped : Nat}
    (old : dropped ≤ rbuf.used) (bound : rbuf.used - dropped + buf.length < rbuf.bufSize)
    (rdPtr wrPtr : Nat) :
    ({ rbuf with mem := store rbuf.mem rbuf.wrPtr buf, rdPtr, wrPtr } : RingBuf).circular
        (rbuf.wrap rbuf.rdPtr dropped) (rbuf.used - dropped + buf.length) =
      rbuf.content.drop dropped ++ buf := by
  have := wf.rdInside
  have := wf.wrInside
  have short := wf.used_lt
  have inside := wrap_inside wf.rdInside (by omega : dropped ≤ rbuf.bufSize)
  have meet : rbuf.wrap (rbuf.wrap rbuf.rdPtr dropped) (rbuf.used - dropped) = rbuf.wrPtr := by
    rw [wrap_wrap wf.rdInside (by omega), ← wf.wrap_used]
    congr 1
    omega
  have kept : rbuf.circular (rbuf.wrap rbuf.rdPtr dropped) (rbuf.used - dropped) =
      rbuf.content.drop dropped := by
    obtain ⟨rest, total⟩ := Nat.exists_eq_add_of_le old
    rw [wf.content_eq, total, circular_add wf.rdInside (by omega),
      List.drop_left' (circular_length ..), Nat.add_sub_cancel_left]
  rw [@circular_add { rbuf with mem := store rbuf.mem rbuf.wrPtr buf, rdPtr, wrPtr }
    _ _ _ inside (Nat.le_of_lt bound)]
  congr 1
  · rw [circular_store ?_ rdPtr wrPtr, kept]
    intro k below
    have size : rbuf.used = if rbuf.rdPtr ≤ rbuf.wrPtr then rbuf.wrPtr - rbuf.rdPtr
      else rbuf.wrPtr + rbuf.bufSize - rbuf.rdPtr := rfl
    rw [wrap_wrap wf.rdInside (by omega)]
    unfold RingBuf.wrap
    split at size <;> split <;> omega
  · change RingBuf.circular _ (rbuf.wrap (rbuf.wrap rbuf.rdPtr dropped) (rbuf.used - dropped)) _ = _
    rw [meet, circular_straight (by simp only; omega)]
    exact window_store rbuf.mem rbuf.wrPtr buf

private theorem ringBufWrite_fits {rbuf : RingBuf} (wf : rbuf.Wf) {buf : List UInt8}
    (fits : buf.length ≤ rbuf.bufSize - rbuf.wrPtr) (some : buf.length ≠ 0) :
    ringBufWrite rbuf buf =
      if rbuf.bufSize - rbuf.wordByteSize < rbuf.used + buf.length then
        ({ rbuf with
          mem := store rbuf.mem rbuf.wrPtr buf
          wrPtr := rbuf.wrap rbuf.wrPtr buf.length
          rdPtr := if rbuf.bufSize ≤ rbuf.wrap rbuf.wrPtr buf.length + rbuf.wordByteSize then 0
            else rbuf.wrap rbuf.wrPtr buf.length + rbuf.wordByteSize }, 1)
      else
        ({ rbuf with
          mem := store rbuf.mem rbuf.wrPtr buf
          wrPtr := rbuf.wrap rbuf.wrPtr buf.length }, 0) := by
  have := wf.used_le
  have same : ((buf.length : Int) > rbuf.bufSize - rbuf.wordByteSize - rbuf.used) ↔
      rbuf.bufSize - rbuf.wordByteSize < rbuf.used + buf.length := by omega
  simp only [ringBufWrite, if_neg some, copyLoop_fits wf fits some, ringBufFree, wf.used_eq, same]

/-- The buffer after a single-copy write, with the read pointer at this place. -/
private def RingBuf.stored (rbuf : RingBuf) (buf : List UInt8) (rdPtr : Nat) : RingBuf :=
  { rbuf with
    mem := store rbuf.mem rbuf.wrPtr buf
    wrPtr := rbuf.wrap rbuf.wrPtr buf.length
    rdPtr }

/-- One word behind a place, where the read pointer goes on overflow. -/
private def RingBuf.wordBehind (rbuf : RingBuf) (place : Nat) : Nat :=
  if rbuf.bufSize ≤ place + rbuf.wordByteSize then 0 else place + rbuf.wordByteSize

private theorem wordBehind_inside {rbuf : RingBuf} {place : Nat} (inside : place < rbuf.bufSize)
    (aligned : rbuf.wordByteSize ∣ place) :
    rbuf.wordBehind place < rbuf.bufSize ∧ rbuf.wordByteSize ∣ rbuf.wordBehind place := by
  unfold RingBuf.wordBehind
  split
  · exact ⟨by omega, Nat.dvd_zero _⟩
  · exact ⟨by omega, Nat.dvd_add aligned (Nat.dvd_refl _)⟩

section Stored

variable {rbuf : RingBuf} (wf : rbuf.Wf) {buf : List UInt8}
include wf

private theorem stored_wf (aligned : rbuf.wordByteSize ∣ buf.length)
    (fits : buf.length ≤ rbuf.bufSize - rbuf.wrPtr) {rdPtr : Nat} (inside : rdPtr < rbuf.bufSize)
    (rdAligned : rbuf.wordByteSize ∣ rdPtr) : (rbuf.stored buf rdPtr).Wf :=
  { wf with
    rdInside := inside
    rdAligned := rdAligned
    wrInside := wrap_inside wf.wrInside (by omega)
    wrAligned := wrap_aligned wf.sizeAligned wf.wrAligned aligned }

private theorem ringBufWrite_calm (aligned : rbuf.wordByteSize ∣ buf.length) (some : buf.length ≠ 0)
    (fits : buf.length ≤ rbuf.bufSize - rbuf.wrPtr)
    (calm : rbuf.used + buf.length ≤ rbuf.bufSize - rbuf.wordByteSize) :
    (ringBufWrite rbuf buf).1.Wf ∧ (ringBufWrite rbuf buf).1.content = rbuf.content ++ buf ∧
      (ringBufWrite rbuf buf).2 = 0 := by
  have word := wf.word
  have rdInside := wf.rdInside
  rw [ringBufWrite_fits wf fits some, if_neg (by omega)]
  have moved := stored_wf wf aligned fits wf.rdInside wf.rdAligned
  have grown : (rbuf.stored buf rbuf.rdPtr).used = rbuf.used + buf.length := by
    simp only [RingBuf.stored, RingBuf.used, RingBuf.wrap] at calm ⊢
    split at calm <;> split <;> split <;> omega
  have start : rbuf.wrap rbuf.rdPtr 0 = rbuf.rdPtr := by
    rw [RingBuf.wrap, if_pos (by omega), Nat.add_zero]
  have whole := circular_written wf fits (Nat.zero_le _) (by omega)
    rbuf.rdPtr (rbuf.wrap rbuf.wrPtr buf.length)
  refine ⟨moved, ?_, rfl⟩
  change (rbuf.stored buf rbuf.rdPtr).content = _
  rw [start, Nat.sub_zero, List.drop_zero] at whole
  rw [moved.content_eq, grown]
  exact whole

variable (aligned : rbuf.wordByteSize ∣ buf.length) (fits : buf.length ≤ rbuf.bufSize - rbuf.wrPtr)
  (overflow : rbuf.bufSize - rbuf.wordByteSize < rbuf.used + buf.length)
include aligned fits overflow

/-- Some of the old content survives: it starts at the new read pointer. -/
private theorem overflow_short (short : buf.length ≤ rbuf.bufSize - rbuf.wordByteSize) :
    (rbuf.stored buf (rbuf.wordBehind (rbuf.wrap rbuf.wrPtr buf.length))).circular
        (rbuf.wordBehind (rbuf.wrap rbuf.wrPtr buf.length)) (rbuf.bufSize - rbuf.wordByteSize) =
      (rbuf.content ++ buf).drop (rbuf.used + buf.length - (rbuf.bufSize - rbuf.wordByteSize)) := by
  have word := wf.word
  have small := wf.wordSmall
  have rdInside := wf.rdInside
  have wrInside := wf.wrInside
  have room := wf.used_le
  have gap := aligned_gap (wrap_aligned wf.sizeAligned wf.wrAligned aligned) wf.sizeAligned
    (wrap_inside wf.wrInside (by omega))
  have count : rbuf.used - (rbuf.used + buf.length - (rbuf.bufSize - rbuf.wordByteSize)) +
      buf.length = rbuf.bufSize - rbuf.wordByteSize := by omega
  have place : rbuf.wrap rbuf.rdPtr (rbuf.used + buf.length - (rbuf.bufSize - rbuf.wordByteSize)) =
      rbuf.wordBehind (rbuf.wrap rbuf.wrPtr buf.length) := by
    have size : rbuf.used = if rbuf.rdPtr ≤ rbuf.wrPtr then rbuf.wrPtr - rbuf.rdPtr
      else rbuf.wrPtr + rbuf.bufSize - rbuf.rdPtr := rfl
    unfold RingBuf.wordBehind
    unfold RingBuf.wrap at gap ⊢
    split at size <;> split at gap <;> split <;> split <;> omega
  have kept := circular_written wf fits (by omega : rbuf.used + buf.length -
    (rbuf.bufSize - rbuf.wordByteSize) ≤ rbuf.used) (by omega)
    (rbuf.wordBehind (rbuf.wrap rbuf.wrPtr buf.length)) (rbuf.wrap rbuf.wrPtr buf.length)
  rw [count, place] at kept
  refine kept.trans ?_
  rw [List.drop_append_of_le_length (by rw [wf.content_length]; omega)]

/-- Only a write of the whole buffer is longer, and it starts at the first byte. -/
private theorem overflow_whole (long : ¬buf.length ≤ rbuf.bufSize - rbuf.wordByteSize) :
    (rbuf.stored buf (rbuf.wordBehind (rbuf.wrap rbuf.wrPtr buf.length))).circular
        (rbuf.wordBehind (rbuf.wrap rbuf.wrPtr buf.length)) (rbuf.bufSize - rbuf.wordByteSize) =
      (rbuf.content ++ buf).drop (rbuf.used + buf.length - (rbuf.bufSize - rbuf.wordByteSize)) := by
  have small := wf.wordSmall
  have size := wf.content_length
  have whole : rbuf.bufSize ≤ buf.length := by
    by_contra less
    have := aligned_gap aligned wf.sizeAligned (Nat.lt_of_not_le less)
    omega
  have first : rbuf.wrPtr = 0 := by omega
  have back : rbuf.wrap rbuf.wrPtr buf.length = 0 := by
    rw [RingBuf.wrap, if_neg (by omega)]
    omega
  have behind : rbuf.wordBehind 0 = rbuf.wordByteSize := by
    rw [RingBuf.wordBehind, if_neg (by omega), Nat.zero_add]
  have last : (rbuf.content ++ buf).drop
      (rbuf.used + buf.length - (rbuf.bufSize - rbuf.wordByteSize)) =
      buf.drop rbuf.wordByteSize := by
    rw [List.drop_append, List.drop_of_length_le (by omega), List.nil_append]
    congr 1
    omega
  rw [last, back, behind, circular_straight (by simp only [RingBuf.stored]; omega)]
  simp only [RingBuf.stored, first]
  have copied := window_store rbuf.mem 0 buf
  rw [← copied, drop_window _ (by omega), Nat.zero_add, copied]
  congr 1
  omega

/-- On overflow the read pointer lands one word after the write pointer, where
the newest `bufSize - wordByteSize` bytes begin. -/
private theorem ringBufWrite_overflow (some : buf.length ≠ 0) :
    (ringBufWrite rbuf buf).1.Wf ∧
      (ringBufWrite rbuf buf).1.content = (rbuf.content ++ buf).drop
        (rbuf.used + buf.length - (rbuf.bufSize - rbuf.wordByteSize)) ∧
      (ringBufWrite rbuf buf).2 = 1 := by
  have word := wf.word
  have wrInside := wf.wrInside
  have nextInside := wrap_inside wf.wrInside (by omega : buf.length ≤ rbuf.bufSize)
  have nextAligned := wrap_aligned wf.sizeAligned wf.wrAligned aligned
  have gap := aligned_gap nextAligned wf.sizeAligned nextInside
  obtain ⟨inside, onWord⟩ := wordBehind_inside nextInside nextAligned
  have moved := stored_wf wf aligned fits inside onWord
  have full : (rbuf.stored buf (rbuf.wordBehind (rbuf.wrap rbuf.wrPtr buf.length))).used =
      rbuf.bufSize - rbuf.wordByteSize := by
    simp only [RingBuf.stored, RingBuf.used, RingBuf.wordBehind]
    split <;> split <;> omega
  rw [ringBufWrite_fits wf fits some, if_pos overflow]
  refine ⟨moved, ?_, rfl⟩
  change (rbuf.stored buf (rbuf.wordBehind (rbuf.wrap rbuf.wrPtr buf.length))).content = _
  rw [moved.content_eq, full]
  by_cases short : buf.length ≤ rbuf.bufSize - rbuf.wordByteSize
  · exact overflow_short wf aligned fits overflow short
  · exact overflow_whole wf aligned fits overflow short

end Stored

/-- A word-aligned write that ends at or before the end of the buffer is a push
onto the bounded queue, on overflow as well. -/
theorem ringBufWrite_spec {rbuf : RingBuf} (wf : rbuf.Wf) {buf : List UInt8}
    (aligned : rbuf.wordByteSize ∣ buf.length)
    (fits : buf.length ≤ rbuf.bufSize - rbuf.wrPtr) :
    (ringBufWrite rbuf buf).1.Wf ∧
      (ringBufWrite rbuf buf).1.content =
        BoundedFifo.push (rbuf.bufSize - rbuf.wordByteSize) rbuf.content buf ∧
      (ringBufWrite rbuf buf).2 =
        if BoundedFifo.overflows (rbuf.bufSize - rbuf.wordByteSize) rbuf.content buf then 1
        else 0 := by
  have room := wf.used_le
  have size := wf.content_length
  by_cases empty : buf.length = 0
  · have nil := List.eq_nil_of_length_eq_zero empty
    subst nil
    have held : rbuf.content.length ≤ rbuf.bufSize - rbuf.wordByteSize := by omega
    refine ⟨by simpa [ringBufWrite] using wf, ?_, ?_⟩
    · rw [BoundedFifo.push_of_fits (by simpa using held)]
      simp [ringBufWrite]
    · simp [ringBufWrite, BoundedFifo.overflows, held]
  · by_cases overflow : rbuf.bufSize - rbuf.wordByteSize < rbuf.used + buf.length
    · obtain ⟨moved, kept, code⟩ := ringBufWrite_overflow wf aligned fits overflow empty
      refine ⟨moved, ?_, ?_⟩
      · rw [kept, BoundedFifo.push, size]
      · rw [code, BoundedFifo.overflows, size, decide_eq_true overflow, if_pos rfl]
    · obtain ⟨moved, kept, code⟩ :=
        ringBufWrite_calm wf aligned empty fits (Nat.le_of_not_lt overflow)
      refine ⟨moved, ?_, ?_⟩
      · rw [kept, BoundedFifo.push_of_fits (by omega)]
      · rw [code, BoundedFifo.overflows, size, decide_eq_false overflow, if_neg (by simp)]

/-- The call copies nothing after a wrap. -/
def Call.StopsAtEnd (rbuf : RingBuf) : Call → Prop
  | .write buf => buf.length ≤ rbuf.bufSize - rbuf.wrPtr
  | _ => True

/-- The buffer is well formed, has the given geometry, and holds the queue. -/
structure Holds (bufSize wordByteSize : Nat) (rbuf : RingBuf) (queue : List UInt8) : Prop where
  wf : rbuf.Wf
  size : rbuf.bufSize = bufSize
  word : rbuf.wordByteSize = wordByteSize
  content : rbuf.content = queue

theorem ringBufInit_holds (mem : Nat → UInt8) {bufSize wordByteSize : Nat}
    (word : 1 ≤ wordByteSize) (aligned : wordByteSize ∣ bufSize) (small : wordByteSize < bufSize) :
    Holds bufSize wordByteSize (ringBufInit mem bufSize wordByteSize) [] where
  wf :=
    { word
      sizeAligned := aligned
      wordSmall := small
      rdInside := by simp only [ringBufInit]; omega
      wrInside := by simp only [ringBufInit]; omega
      rdAligned := Nat.dvd_zero _
      wrAligned := Nat.dvd_zero _ }
  size := rfl
  word := rfl
  content := by simp [RingBuf.content, ringBufUsed, ringBufInit]

private theorem copyLoop_geometry (buf : List UInt8) (passes : Nat) (rbuf : RingBuf)
    (numBytes : Nat) : (copyLoop buf passes rbuf numBytes).bufSize = rbuf.bufSize ∧
      (copyLoop buf passes rbuf numBytes).wordByteSize = rbuf.wordByteSize := by
  induction passes generalizing rbuf numBytes with
  | zero => exact ⟨rfl, rfl⟩
  | succ passes ih =>
    unfold copyLoop
    split
    · exact ⟨rfl, rfl⟩
    · simp only
      split <;> exact ih _ _

private theorem call_geometry (rbuf : RingBuf) (op : Call) :
    (call rbuf op).1.bufSize = rbuf.bufSize ∧
      (call rbuf op).1.wordByteSize = rbuf.wordByteSize := by
  cases op with
  | write buf =>
    simp only [call, ringBufWrite]
    split
    · exact ⟨rfl, rfl⟩
    · split <;> exact copyLoop_geometry buf _ rbuf _
  | read len =>
    simp only [call, ringBufRead]
    split
    · exact ⟨rfl, rfl⟩
    · split <;> exact ⟨rfl, rfl⟩
  | remove len =>
    simp only [call, ringBufRemove]
    split
    · exact ⟨rfl, rfl⟩
    · split <;> exact ⟨rfl, rfl⟩
  | clear => exact ⟨rfl, rfl⟩

theorem call_refines {bufSize wordByteSize : Nat} {rbuf : RingBuf} {queue : List UInt8} {op : Call}
    (holds : Holds bufSize wordByteSize rbuf queue)
    (guard : op.Aligned wordByteSize ∧ op.StopsAtEnd rbuf) :
    Holds bufSize wordByteSize (call rbuf op).1 (fifoCall (bufSize - wordByteSize) queue op).1 ∧
      (call rbuf op).2 = (fifoCall (bufSize - wordByteSize) queue op).2 := by
  obtain ⟨wf, rfl, rfl, rfl⟩ := holds
  obtain ⟨sameSize, sameWord⟩ := call_geometry rbuf op
  obtain ⟨aligned, stops⟩ := guard
  cases op with
  | write buf =>
    obtain ⟨moved, kept, code⟩ := ringBufWrite_spec wf aligned stops
    exact ⟨⟨moved, sameSize, sameWord, kept⟩, by simp only [call, fifoCall, code]⟩
  | read len =>
    obtain ⟨moved, kept, bytes⟩ := ringBufRead_spec wf aligned
    exact ⟨⟨moved, sameSize, sameWord, kept⟩, by simp only [call, fifoCall, bytes]⟩
  | remove len =>
    obtain ⟨moved, kept, count⟩ := ringBufRemove_spec wf aligned
    exact ⟨⟨moved, sameSize, sameWord, kept⟩, by simp only [call, fifoCall, count]⟩
  | clear =>
    obtain ⟨moved, kept, count⟩ := ringBufClear_spec wf
    exact ⟨⟨moved, sameSize, sameWord, kept⟩, by simp only [call, fifoCall, count]⟩

/-- In every run whose writes all end at or before the end of the buffer, the
ring buffer answers as the bounded queue does and holds the same bytes, with both
pointers inside the buffer. -/
theorem ringBuf_run_refines_fifo (mem : Nat → UInt8) (bufSize wordByteSize : Nat)
    (word : 1 ≤ wordByteSize) (aligned : wordByteSize ∣ bufSize) (small : wordByteSize < bufSize)
    (calls : List Call)
    (guarded : Along call (fun rbuf op => op.Aligned wordByteSize ∧ op.StopsAtEnd rbuf)
      (ringBufInit mem bufSize wordByteSize) calls) :
    let final := run call (ringBufInit mem bufSize wordByteSize) calls
    let queue := run (fifoCall (bufSize - wordByteSize)) [] calls
    final.2 = queue.2 ∧ final.1.content = queue.1 ∧
      final.1.rdPtr < bufSize ∧ final.1.wrPtr < bufSize ∧
      ringBufUsed final.1 ≤ bufSize - wordByteSize := by
  have simulated : ∀ rbuf queue (op : Call), Holds bufSize wordByteSize rbuf queue →
      op.Aligned wordByteSize ∧ op.StopsAtEnd rbuf → _ :=
    fun _ _ _ holds guard => call_refines holds guard
  obtain ⟨holds, answers⟩ :=
    run_refines simulated (ringBufInit_holds mem word aligned small) guarded
  have rd := holds.wf.rdInside
  have wr := holds.wf.wrInside
  have room := holds.wf.used_le
  have used := holds.wf.used_eq
  rw [holds.size] at rd wr room
  rw [holds.word] at room
  exact ⟨answers, holds.content, rd, wr, by omega⟩

/-- A run with a full-length write that ends exactly at the end of the buffer and
an overflowing write of the whole buffer. -/
theorem ringBuf_run_refines_fifo_overflow :
    (run call (ringBufInit (fun _ => 0) 4 1)
        [.write [1, 2, 3], .read 2, .write [4], .write [5, 6, 7, 8], .remove 1, .read 9]).2 =
      (run (fifoCall 3) []
        [.write [1, 2, 3], .read 2, .write [4], .write [5, 6, 7, 8], .remove 1, .read 9]).2 :=
  (ringBuf_run_refines_fifo (fun _ => 0) 4 1 (by decide) (by decide) (by decide) _
    (by simp [Along, call, Call.Aligned, Call.StopsAtEnd, ringBufInit, ringBufWrite, ringBufRead,
      ringBufUsed, ringBufFree, copyLoop])).1

/-- A write that wraps copies the beginning of the caller's data a second time. -/
theorem ringBufWrite_wrapped_repeats :
    (∀ op ∈ [Call.write [1, 2, 3], .read 3, .write [4, 5, 6], .read 3], op.Aligned 1) ∧
      (run call (ringBufInit (fun _ => 0) 4 1)
        [.write [1, 2, 3], .read 3, .write [4, 5, 6], .read 3]).2 =
        [.status 0, .bytes [1, 2, 3], .status 0, .bytes [4, 4, 5]] ∧
      (run (fifoCall 3) [] [.write [1, 2, 3], .read 3, .write [4, 5, 6], .read 3]).2 =
        [.status 0, .bytes [1, 2, 3], .status 0, .bytes [4, 5, 6]] := by
  refine ⟨?_, by decide, by decide⟩
  simp [Call.Aligned]

end InertialSense.RingBuffer
