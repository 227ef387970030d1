import InertialSense.Foundation.LittleEndian
import InertialSense.Md5.Streaming

/-! MD5 step by step as its standard describes it, and the incremental digest against it. -/

namespace InertialSense.Md5

open Foundation Foundation.BlockHash

namespace Standard

/-- Step 1: as many zeros behind the byte 0x80 as bring the length to 56 modulo 64. -/
def zeros (length : Nat) : Nat := (119 - length % 64) % 64

/-- Steps 1 and 2: the padding and the 64-bit number of bits, its lowest byte first. -/
def lengthened (message : List UInt8) : List UInt8 :=
  message ++ 0x80 :: List.replicate (zeros message.length) 0 ++ toBytes 8 (8 * message.length)

/-- The integer part of 4294967296 times the absolute value of the sine of one to sixty-four. -/
def sines : List UInt32 :=
  [
    0xd76aa478, 0xe8c7b756, 0x242070db, 0xc1bdceee,
    0xf57c0faf, 0x4787c62a, 0xa8304613, 0xfd469501,
    0x698098d8, 0x8b44f7af, 0xffff5bb1, 0x895cd7be,
    0x6b901122, 0xfd987193, 0xa679438e, 0x49b40821,
    0xf61e2562, 0xc040b340, 0x265e5a51, 0xe9b6c7aa,
    0xd62f105d, 0x02441453, 0xd8a1e681, 0xe7d3fbc8,
    0x21e1cde6, 0xc33707d6, 0xf4d50d87, 0x455a14ed,
    0xa9e3e905, 0xfcefa3f8, 0x676f02d9, 0x8d2a4c8a,
    0xfffa3942, 0x8771f681, 0x6d9d6122, 0xfde5380c,
    0xa4beea44, 0x4bdecfa9, 0xf6bb4b60, 0xbebfbc70,
    0x289b7ec6, 0xeaa127fa, 0xd4ef3085, 0x04881d05,
    0xd9d4d039, 0xe6db99e5, 0x1fa27cf8, 0xc4ac5665,
    0xf4292244, 0x432aff97, 0xab9423a7, 0xfc93a039,
    0x655b59c3, 0x8f0ccc92, 0xffeff47d, 0x85845dd1,
    0x6fa87e4f, 0xfe2ce6e0, 0xa3014314, 0x4e0811a1,
    0xf7537e82, 0xbd3af235, 0x2ad7d2bb, 0xeb86d391]

/-- The auxiliary function of each round. -/
def auxiliary : Nat → UInt32 → UInt32 → UInt32 → UInt32
  | 0 => auxF
  | 1 => auxG
  | 2 => auxH
  | _ => auxI

/-- The word of the block that operation `i` adds. -/
def wordIndex (i : Nat) : Nat :=
  match i / 16 with
  | 0 => i % 16
  | 1 => (5 * i + 1) % 16
  | 2 => (3 * i + 5) % 16
  | _ => 7 * i % 16

/-- The rotations of each round, in turn. -/
def rotation (i : Nat) : UInt32 :=
  match i / 16 with
  | 0 => [7, 12, 17, 22].getD (i % 4) 0
  | 1 => [5, 9, 14, 20].getD (i % 4) 0
  | 2 => [4, 11, 16, 23].getD (i % 4) 0
  | _ => [6, 10, 15, 21].getD (i % 4) 0

/-- `a = b + ((a + f(b,c,d) + X[k] + T[i]) <<< s)`, after which the registers change places. -/
def operation (x : Nat → UInt32) (r : Hash) (i : Nat) : Hash :=
  let sum := r.a + auxiliary (i / 16) r.b r.c r.d + x (wordIndex i) + sines.getD i 0
  { a := r.d, b := r.b + rotateLeft sum (rotation i), c := r.b, d := r.c }

/-- Step 4 for one block of sixteen words. -/
def compress (state : Hash) (block : List UInt8) : Hash :=
  let x k := UInt32.ofNat (fromBytes ((block.drop (4 * k)).take 4))
  let r := (List.range 64).foldl (operation x) state
  { a := state.a + r.a, b := state.b + r.b, c := state.c + r.c, d := state.d + r.d }

/-- Step 3: the registers by their bytes, the lowest first. -/
def registers : Hash :=
  let word bytes := UInt32.ofNat (fromBytes bytes)
  { a := word [0x01, 0x23, 0x45, 0x67], b := word [0x89, 0xab, 0xcd, 0xef]
    c := word [0xfe, 0xdc, 0xba, 0x98], d := word [0x76, 0x54, 0x32, 0x10] }

/-- The message digest. -/
def md5 (message : List UInt8) : Hash := absorb compress 64 registers (lengthened message)

example : md5 [0x61, 0x62, 0x63] =
    { a := 0x98500190, b := 0xb04fd23c, c := 0x7d3f96d6, d := 0x727fe128 } := by decide +kernel

theorem padded_length (message : List UInt8) : (lengthened message).length % 64 = 0 := by
  simp [lengthened, zeros]
  omega

end Standard

open Standard

private theorem shifted_toNat (byte : UInt8) {amount : UInt32} {place : Nat}
    (moves : amount.toNat % 32 = place) (small : place ≤ 24) :
    (byte.toUInt32 <<< amount).toNat = 2 ^ place * byte.toNat := by
  have bound := byte.toNat_lt
  have power : 2 ^ place ≤ 2 ^ 24 := Nat.pow_le_pow_right (by decide) small
  have product : byte.toNat * 2 ^ place < 2 ^ 8 * 2 ^ 24 :=
    Nat.mul_lt_mul_of_lt_of_le bound power (by decide)
  rw [UInt32.toNat_shiftLeft, moves, UInt8.toNat_toUInt32, Nat.shiftLeft_eq,
    Nat.mod_eq_of_lt (show _ < 2 ^ 32 from product), Nat.mul_comm]

private theorem or_shifted {count low : Nat} (high : Nat) (small : low < 2 ^ count) :
    low ||| 2 ^ count * high = low + 2 ^ count * high := by
  rw [Nat.or_comm, ← Nat.two_pow_add_eq_or_of_lt small, Nat.add_comm]

private theorem word_eq (b0 b1 b2 b3 : UInt8) :
    b0.toUInt32 ||| (b1.toUInt32 <<< 8) ||| (b2.toUInt32 <<< 16) ||| (b3.toUInt32 <<< 24) =
      UInt32.ofNat (fromBytes [b0, b1, b2, b3]) := by
  have first := b0.toNat_lt
  have second := b1.toNat_lt
  have third := b2.toNat_lt
  have fourth := b3.toNat_lt
  have eight := shifted_toNat b1 (show (8 : UInt32).toNat % 32 = 8 from rfl) (by decide)
  have sixteen := shifted_toNat b2 (show (16 : UInt32).toNat % 32 = 16 from rfl) (by decide)
  have twentyFour := shifted_toNat b3 (show (24 : UInt32).toNat % 32 = 24 from rfl) (by decide)
  apply UInt32.toNat_inj.mp
  rw [UInt32.toNat_or, UInt32.toNat_or, UInt32.toNat_or, UInt8.toNat_toUInt32, eight, sixteen,
    twentyFour, or_shifted _ first,
    or_shifted _ (show b0.toNat + 2 ^ 8 * b1.toNat < 2 ^ 16 by omega),
    or_shifted _ (show b0.toNat + 2 ^ 8 * b1.toNat + 2 ^ 16 * b2.toNat < 2 ^ 24 by omega),
    UInt32.toNat_ofNat']
  simp only [fromBytes]
  omega

private theorem decode_getD {bytes : List UInt8} {k : Nat} (inside : 4 * k + 4 ≤ bytes.length) :
    (decode bytes).getD k 0 = UInt32.ofNat (fromBytes ((bytes.drop (4 * k)).take 4)) := by
  induction k generalizing bytes with
  | zero =>
    match bytes, inside with
    | b0 :: b1 :: b2 :: b3 :: rest, _ =>
      rw [decode, word_eq]
      rfl
  | succ k ih =>
    match bytes, inside with
    | b0 :: b1 :: b2 :: b3 :: rest, inside =>
      have later : 4 * k + 4 ≤ rest.length := by
        simp only [List.length_cons] at inside
        omega
      rw [decode, List.getD_cons_succ, ih later]
      rfl

private theorem round_eq {schedule : Schedule} {round : Nat}
    (listed : schedule = (List.range' (16 * round) 16).map fun i =>
      (wordIndex i, rotation i, sines.getD i 0))
    {block : List UInt8} (whole : block.length = 64) (r : Hash) :
    schedule.foldl (roundStep (auxiliary round) (decode block)) r =
      (List.range' (16 * round) 16).foldl
        (operation fun k => UInt32.ofNat (fromBytes ((block.drop (4 * k)).take 4))) r := by
  rw [listed, List.foldl_map]
  apply List.foldl_ext
  intro r i member
  obtain ⟨above, below⟩ := List.mem_range'_1.mp member
  have current : i / 16 = round := by omega
  have inside : wordIndex i < 16 := by
    unfold wordIndex
    split <;> exact Nat.mod_lt _ (by decide)
  simp only [roundStep, operation, current]
  rw [decode_getD (by omega), UInt32.add_comm (rotateLeft _ _), ← UInt32.add_assoc,
    ← UInt32.add_assoc]

theorem md5Transform_eq_compress {block : List UInt8} (whole : block.length = 64) (state : Hash) :
    md5Transform state block = compress state block := by
  have rounds : List.range 64 =
      List.range' (16 * 0) 16 ++ List.range' (16 * 1) 16 ++ List.range' (16 * 2) 16 ++
        List.range' (16 * 3) 16 := by decide
  have first := @round_eq roundF 0 (by decide +kernel) block whole
  have second := @round_eq roundG 1 (by decide +kernel) block whole
  have third := @round_eq roundH 2 (by decide +kernel) block whole
  have fourth := @round_eq roundI 3 (by decide +kernel) block whole
  simp only [auxiliary] at first second third fourth
  simp only [md5Transform, compress, rounds, List.foldl_append, first, second, third, fourth]

private theorem encode_eq (value : Nat) : encode (UInt32.ofNat value) = toBytes 4 value := by
  have byte {amount : UInt32} {place : Nat} (moves : amount.toNat % 32 = 8 * place)
      (small : place < 4) :
      (UInt32.ofNat value >>> amount).toUInt8 = UInt8.ofNat (value / 256 ^ place) := by
    apply UInt8.toNat_inj.mp
    rw [UInt32.toNat_toUInt8, UInt32.toNat_shiftRight, moves, UInt32.toNat_ofNat',
      UInt8.toNat_ofNat', Nat.shiftRight_eq_div_pow, Nat.pow_mul]
    match place, small with
    | 0, _ | 1, _ | 2, _ | 3, _ => omega
  have lowest : (UInt32.ofNat value).toUInt8 = UInt8.ofNat value := by
    apply UInt8.toNat_inj.mp
    rw [UInt32.toNat_toUInt8, UInt32.toNat_ofNat', UInt8.toNat_ofNat']
    omega
  simp only [toBytes, Nat.div_div_eq_div_mul]
  rw [encode, lowest, byte (show (8 : UInt32).toNat % 32 = 8 * 1 from rfl) (by decide),
    byte (show (16 : UInt32).toNat % 32 = 8 * 2 from rfl) (by decide),
    byte (show (24 : UInt32).toNat % 32 = 8 * 3 from rfl) (by decide)]
  rfl

theorem trailer_eq (length : Nat) :
    trailer length = 0x80 :: List.replicate (zeros length) 0 ++ toBytes 8 (8 * length) := by
  have split : toBytes 8 (8 * length) =
      toBytes 4 (8 * length) ++ toBytes 4 (8 * length / 2 ^ 32) := by
    simp only [toBytes, Nat.div_div_eq_div_mul]
    rfl
  have count : (if length % 64 < 56 then 56 - length % 64 else 120 - length % 64) - 1 =
      zeros length := by
    unfold zeros
    split <;> omega
  rw [trailer, padding, count, encode_eq, encode_eq, split]

private theorem foldBlocks_md5Transform {count : Nat} {data : List UInt8}
    (complete : 64 * count ≤ data.length) (state : Hash) :
    foldBlocks md5Transform 64 count state data = foldBlocks compress 64 count state data := by
  induction count generalizing state data with
  | zero => rw [foldBlocks, foldBlocks]
  | succ count ih =>
    have block : (data.take 64).length = 64 := by
      simp
      omega
    have rest : 64 * count ≤ (data.drop 64).length := by
      simp
      omega
    rw [foldBlocks, foldBlocks, md5Transform_eq_compress block, ih rest]

theorem digest_eq_md5 (data : List UInt8) : digest data = md5 data := by
  have start : initialState = registers := by decide +kernel
  rw [digest, md5, trailer_eq, lengthened, ← List.append_assoc, start, absorb, absorb]
  exact foldBlocks_md5Transform (Nat.mul_div_le _ _) _

/-- However the message is cut, and whatever the contexts held before, the digest of the
pieces is that of the message, as the standard has it. -/
theorem md5Final_pieces {pieces : List (List UInt8)} (short : pieces.flatten.length < 2 ^ 29)
    (context context' : Context) :
    (md5Final (pieces.foldl md5Update (md5Init context))).2 = md5Hash context' pieces.flatten ∧
      md5Hash context' pieces.flatten = md5 pieces.flatten := by
  have each : ∀ piece ∈ pieces, piece.length < 2 ^ 32 := by
    intro piece member
    have part := (List.sublist_flatten_of_mem member).length_le
    omega
  have whole := md5Hash_eq_digest context' (show pieces.flatten.length < 2 ^ 32 by omega)
  have final := md5Final_absorbed (foldl_md5Update_absorbed (md5Init_absorbed context) each)
  rw [List.nil_append] at final
  exact ⟨final.trans whole.symm, whole.trans (digest_eq_md5 _)⟩

def zeroed : Context :=
  { state := { a := 0, b := 0, c := 0, d := 0 }, count0 := 0, count1 := 0, buffer := fun _ => 0 }

theorem md5Final_pieces_three :
    (md5Final ([[0x61], [], [0x62, 0x63]].foldl md5Update (md5Init zeroed))).2 =
      md5Hash zeroed [0x61, 0x62, 0x63] :=
  (@md5Final_pieces [[0x61], [], [0x62, 0x63]] (by decide) zeroed zeroed).1

end InertialSense.Md5
