import InertialSense.Md5.Model
import Mathlib.Tactic.NormNum

/-! The incremental digest depends on the concatenation of its pieces only: not on
where they were cut and not on the stale bytes in the buffer. -/

namespace InertialSense.Md5

open Foundation Foundation.BlockHash

/-- The context stands for `data`: its state has absorbed every whole block and
its buffer begins with the bytes that still wait for one. The two count words hold
the number of bits. -/
structure Context.Absorbed (context : Context) (data : List UInt8) : Prop where
  state : context.state = absorb md5Transform 64 initialState data
  count0 : context.count0.toNat = 8 * data.length % 2 ^ 32
  count1 : context.count1.toNat = 8 * data.length / 2 ^ 32 % 2 ^ 32
  buffer : window context.buffer 0 (data.length % 64) = waiting 64 data

theorem md5Init_absorbed (context : Context) : (md5Init context).Absorbed [] where
  state := rfl
  count0 := rfl
  count1 := rfl
  buffer := rfl

private theorem index_eq {count : UInt32} {length : Nat}
    (exact : count.toNat = 8 * length % 2 ^ 32) :
    ((count >>> 3) &&& 0x3F).toNat = length % 64 := by
  have low : ((count >>> 3) &&& 0x3F).toNat = count.toNat / 8 % 64 := by
    rw [UInt32.toNat_and, UInt32.toNat_shiftRight]
    have mask : (0x3F : UInt32).toNat = 2 ^ 6 - 1 := rfl
    rw [mask, Nat.and_two_pow_sub_one_eq_mod, Nat.shiftRight_eq_div_pow]
    rfl
  rw [low, exact]
  omega

private theorem shift_toNat (length : Nat) :
    (UInt32.ofNat length <<< 3).toNat = 8 * length % 2 ^ 32 := by
  have three : (3 : UInt32).toNat % 32 = 3 := rfl
  rw [UInt32.toNat_shiftLeft, UInt32.toNat_ofNat', three, Nat.shiftLeft_eq]
  omega

private theorem count0_update {count0 : UInt32} {length : Nat} (more : Nat)
    (low : count0.toNat = 8 * length % 2 ^ 32) :
    (count0 + (UInt32.ofNat more <<< 3)).toNat = 8 * (length + more) % 2 ^ 32 := by
  rw [UInt32.toNat_add, shift_toNat, low]
  omega

private theorem count1_update {count0 count1 : UInt32} {length more : Nat}
    (fits : more < 2 ^ 32) (low : count0.toNat = 8 * length % 2 ^ 32)
    (high : count1.toNat = 8 * length / 2 ^ 32 % 2 ^ 32) :
    ((if count0 + (UInt32.ofNat more <<< 3) < UInt32.ofNat more <<< 3 then count1 + 1
        else count1) + (UInt32.ofNat more >>> 29)).toNat =
      8 * (length + more) / 2 ^ 32 % 2 ^ 32 := by
  have top : (UInt32.ofNat more >>> 29).toNat = more / 2 ^ 29 := by
    have shift : (29 : UInt32).toNat % 32 = 29 := rfl
    rw [UInt32.toNat_shiftRight, UInt32.toNat_ofNat', shift, Nat.shiftRight_eq_div_pow,
      Nat.mod_eq_of_lt fits]
  have carry : (count1 + 1).toNat = (count1.toNat + 1) % 2 ^ 32 := UInt32.toNat_add ..
  rw [UInt32.toNat_add, top]
  split
  · rename_i overflow
    rw [UInt32.lt_iff_toNat_lt, count0_update more low, shift_toNat] at overflow
    rw [carry, high]
    omega
  · rename_i fitting
    rw [UInt32.lt_iff_toNat_lt, count0_update more low, shift_toNat] at fitting
    rw [high]
    omega

private theorem absorbed_short {context : Context} {data input : List UInt8}
    (absorbed : context.Absorbed data) (short : data.length % 64 + input.length < 64)
    {count0 count1 : UInt32} (low : count0.toNat = 8 * (data ++ input).length % 2 ^ 32)
    (high : count1.toNat = 8 * (data ++ input).length / 2 ^ 32 % 2 ^ 32) :
    Context.Absorbed
      { context with
        count0, count1, buffer := store context.buffer (data.length % 64) input }
      (data ++ input) := by
  obtain ⟨state, _, _, buffer⟩ := absorbed
  have held : (waiting 64 data).length = data.length % 64 := waiting_length data
  have none : (data.length % 64 + input.length) / 64 = 0 := Nat.div_eq_of_lt short
  refine ⟨?_, low, high, ?_⟩
  · rw [absorb_append _ _ _ (by decide), held, none]
    exact state
  · have total : (data ++ input).length % 64 = data.length % 64 + input.length := by
      simp
      omega
    have joined : window (store context.buffer (data.length % 64) input) (data.length % 64)
        input.length = input := window_store ..
    rw [waiting_append _ _ (by decide), total, window_add,
      window_store_disjoint _ (by omega), Nat.zero_add, joined, buffer]
    exact (waiting_of_short (by rw [List.length_append, held]; exact short)).symm

/-- Input that completes the waiting block: that block, then every whole block of the rest. -/
private theorem absorbed_enough {context : Context} {data input : List UInt8}
    (absorbed : context.Absorbed data) (enough : 64 ≤ data.length % 64 + input.length)
    {count0 count1 : UInt32} (low : count0.toNat = 8 * (data ++ input).length % 2 ^ 32)
    (high : count1.toNat = 8 * (data ++ input).length / 2 ^ 32 % 2 ^ 32) :
    let partLen := 64 - data.length % 64
    let filled := store context.buffer (data.length % 64) (input.take partLen)
    let passes := (input.length - partLen) / 64
    Context.Absorbed
      { state := foldBlocks md5Transform 64 passes
          (md5Transform context.state (window filled 0 64)) (input.drop partLen)
        count0, count1, buffer := store filled 0 (input.drop (partLen + 64 * passes)) }
      (data ++ input) := by
  intro partLen filled passes
  obtain ⟨state, _, _, buffer⟩ := absorbed
  have held : (waiting 64 data).length = data.length % 64 := waiting_length data
  have fill : data.length % 64 < 64 := Nat.mod_lt _ (by decide)
  have part : partLen = 64 - data.length % 64 := rfl
  have pass : passes = (input.length - partLen) / 64 := rfl
  have blocks : (data.length % 64 + input.length) / 64 = passes + 1 := by omega
  have size : (input.take partLen).length = partLen := by
    simp
    omega
  have block : window filled 0 64 = waiting 64 data ++ input.take partLen := by
    have joined := window_store context.buffer (data.length % 64) (input.take partLen)
    have kept : window filled 0 (data.length % 64) = waiting 64 data := by
      rw [window_store_disjoint _ (by omega), buffer]
    have parts := window_add filled 0 (data.length % 64) partLen
    rw [kept, Nat.zero_add, part, Nat.add_sub_cancel' (by omega), ← part] at parts
    rw [parts, ← joined, size]
  have taken : (waiting 64 data ++ input).take 64 = waiting 64 data ++ input.take partLen := by
    rw [List.take_append, List.take_of_length_le (by omega), held]
  have dropped (count : Nat) :
      (waiting 64 data ++ input).drop (64 + count) = input.drop (partLen + count) := by
    rw [List.drop_append, List.drop_eq_nil_of_le (by omega), held, List.nil_append]
    congr 1
    omega
  refine ⟨?_, low, high, ?_⟩
  · have first := dropped 0
    rw [Nat.add_zero, Nat.add_zero] at first
    rw [absorb_append _ _ _ (by decide), held, blocks, foldBlocks, taken, first, ← block, state]
  · have total : (data ++ input).length % 64 =
        (input.drop (partLen + 64 * passes)).length := by
      simp
      omega
    have reached : 64 * (passes + 1) = 64 + 64 * passes := by omega
    rw [waiting_append _ _ (by decide), total, window_store, waiting, List.length_append,
      held, blocks, reached, dropped]

theorem md5Update_absorbed {context : Context} {data : List UInt8}
    (absorbed : context.Absorbed data) {input : List UInt8} (fits : input.length < 2 ^ 32) :
    (md5Update context input).Absorbed (data ++ input) := by
  have index := index_eq absorbed.count0
  have low := count0_update input.length absorbed.count0
  have high := count1_update fits absorbed.count0 absorbed.count1
  rw [← List.length_append] at low high
  unfold md5Update
  split
  · rename_i empty
    rw [List.eq_nil_of_length_eq_zero empty, List.append_nil]
    exact absorbed
  · simp only [index]
    split
    · exact absorbed_enough absorbed (by omega) low high
    · exact absorbed_short absorbed (by omega) low high

/-- The bytes a final call absorbs after `data`: padding up to 56 modulo 64, then the bit count. -/
def trailer (length : Nat) : List UInt8 :=
  padding (if length % 64 < 56 then 56 - length % 64 else 120 - length % 64) ++
    (encode (UInt32.ofNat (8 * length)) ++ encode (UInt32.ofNat (8 * length / 2 ^ 32)))

/-- The digest of a byte string, in one pass. -/
def digest (data : List UInt8) : Hash :=
  absorb md5Transform 64 initialState (data ++ trailer data.length)

theorem md5Final_absorbed {context : Context} {data : List UInt8}
    (absorbed : context.Absorbed data) : (md5Final context).2 = digest data := by
  have low : context.count0 = UInt32.ofNat (8 * data.length) := by
    apply UInt32.toNat_inj.mp
    rw [absorbed.count0, UInt32.toNat_ofNat']
  have high : context.count1 = UInt32.ofNat (8 * data.length / 2 ^ 32) := by
    apply UInt32.toNat_inj.mp
    rw [absorbed.count1, UInt32.toNat_ofNat']
  have index := index_eq absorbed.count0
  have finished (padLen : Nat) (short : (padding padLen).length < 2 ^ 32) :=
    md5Update_absorbed (md5Update_absorbed absorbed short)
      (show (encode context.count0 ++ encode context.count1).length < 2 ^ 32 by simp [encode])
  have ends := (finished
    (if data.length % 64 < 56 then 56 - data.length % 64 else 120 - data.length % 64)
    (by simp only [padding]; split <;> simp <;> omega)).state
  simp only [md5Final, index, digest, trailer]
  rw [ends, List.append_assoc, low, high]

theorem foldl_md5Update_absorbed {context : Context} {data : List UInt8}
    (absorbed : context.Absorbed data) {pieces : List (List UInt8)}
    (fits : ∀ piece ∈ pieces, piece.length < 2 ^ 32) :
    (pieces.foldl md5Update context).Absorbed (data ++ pieces.flatten) := by
  induction pieces generalizing context data with
  | nil => simpa using absorbed
  | cons piece rest ih =>
    have head := md5Update_absorbed absorbed (fits piece (by simp))
    have tail := ih head (fun later member => fits later (by simp [member]))
    simpa using tail

theorem md5Hash_eq_digest (context : Context) {data : List UInt8}
    (fits : data.length < 2 ^ 32) : md5Hash context data = digest data := by
  have absorbed := md5Update_absorbed (md5Init_absorbed context) fits
  exact md5Final_absorbed absorbed

end InertialSense.Md5
