import InertialSense.Foundation.BlockHash
import InertialSense.Foundation.Memory

/-! `util/md5.cpp`: the incremental MD5 used for firmware images. -/

namespace InertialSense.Md5

open Foundation

/-- `md5hash_t`, read as its four 32-bit words. -/
structure Hash where
  a : UInt32
  b : UInt32
  c : UInt32
  d : UInt32
deriving DecidableEq

/-- `md5Context_t`. The 64 bytes of `buffer` are the addresses below 64. -/
structure Context where
  state : Hash
  count0 : UInt32
  count1 : UInt32
  buffer : Nat → UInt8

def rotateLeft (x : UInt32) (n : UInt32) : UInt32 := (x <<< n) ||| (x >>> (32 - n))

def auxF (x y z : UInt32) : UInt32 := (x &&& y) ||| (~~~x &&& z)

def auxG (x y z : UInt32) : UInt32 := (x &&& z) ||| (y &&& ~~~z)

def auxH (x y z : UInt32) : UInt32 := x ^^^ y ^^^ z

def auxI (x y z : UInt32) : UInt32 := y ^^^ (x ||| ~~~z)

/-- Message word index, rotation and additive constant of the sixteen steps of a round. -/
abbrev Schedule := List (Nat × UInt32 × UInt32)

def roundF : Schedule :=
  [
    (0, 7, 0xd76aa478), (1, 12, 0xe8c7b756), (2, 17, 0x242070db), (3, 22, 0xc1bdceee),
    (4, 7, 0xf57c0faf), (5, 12, 0x4787c62a), (6, 17, 0xa8304613), (7, 22, 0xfd469501),
    (8, 7, 0x698098d8), (9, 12, 0x8b44f7af), (10, 17, 0xffff5bb1), (11, 22, 0x895cd7be),
    (12, 7, 0x6b901122), (13, 12, 0xfd987193), (14, 17, 0xa679438e), (15, 22, 0x49b40821)]

def roundG : Schedule :=
  [
    (1, 5, 0xf61e2562), (6, 9, 0xc040b340), (11, 14, 0x265e5a51), (0, 20, 0xe9b6c7aa),
    (5, 5, 0xd62f105d), (10, 9, 0x2441453), (15, 14, 0xd8a1e681), (4, 20, 0xe7d3fbc8),
    (9, 5, 0x21e1cde6), (14, 9, 0xc33707d6), (3, 14, 0xf4d50d87), (8, 20, 0x455a14ed),
    (13, 5, 0xa9e3e905), (2, 9, 0xfcefa3f8), (7, 14, 0x676f02d9), (12, 20, 0x8d2a4c8a)]

def roundH : Schedule :=
  [
    (5, 4, 0xfffa3942), (8, 11, 0x8771f681), (11, 16, 0x6d9d6122), (14, 23, 0xfde5380c),
    (1, 4, 0xa4beea44), (4, 11, 0x4bdecfa9), (7, 16, 0xf6bb4b60), (10, 23, 0xbebfbc70),
    (13, 4, 0x289b7ec6), (0, 11, 0xeaa127fa), (3, 16, 0xd4ef3085), (6, 23, 0x4881d05),
    (9, 4, 0xd9d4d039), (12, 11, 0xe6db99e5), (15, 16, 0x1fa27cf8), (2, 23, 0xc4ac5665)]

def roundI : Schedule :=
  [
    (0, 6, 0xf4292244), (7, 10, 0x432aff97), (14, 15, 0xab9423a7), (5, 21, 0xfc93a039),
    (12, 6, 0x655b59c3), (3, 10, 0x8f0ccc92), (10, 15, 0xffeff47d), (1, 21, 0x85845dd1),
    (8, 6, 0x6fa87e4f), (15, 10, 0xfe2ce6e0), (6, 15, 0xa3014314), (13, 21, 0x4e0811a1),
    (4, 6, 0xf7537e82), (11, 10, 0xbd3af235), (2, 15, 0x2ad7d2bb), (9, 21, 0xeb86d391)]

/-- One `FF`, `GG`, `HH` or `II`. The source rotates the names of the four
registers from step to step; here the registers themselves move. -/
def roundStep (aux : UInt32 → UInt32 → UInt32 → UInt32) (x : List UInt32) (r : Hash)
    (entry : Nat × UInt32 × UInt32) : Hash :=
  let a := r.a + (aux r.b r.c r.d + x.getD entry.1 0 + entry.2.2)
  { a := r.d, b := rotateLeft a entry.2.1 + r.b, c := r.b, d := r.c }

/-- `Decode`: sixteen little-endian words. -/
def decode : List UInt8 → List UInt32
  | b0 :: b1 :: b2 :: b3 :: rest =>
    (b0.toUInt32 ||| (b1.toUInt32 <<< 8) ||| (b2.toUInt32 <<< 16) ||| (b3.toUInt32 <<< 24)) ::
      decode rest
  | _ => []

/-- `Encode` of one word: little-endian bytes. -/
def encode (word : UInt32) : List UInt8 :=
  [word.toUInt8, (word >>> 8).toUInt8, (word >>> 16).toUInt8, (word >>> 24).toUInt8]

def md5Transform (state : Hash) (block : List UInt8) : Hash :=
  let x := decode block
  let r := roundF.foldl (roundStep auxF x) state
  let r := roundG.foldl (roundStep auxG x) r
  let r := roundH.foldl (roundStep auxH x) r
  let r := roundI.foldl (roundStep auxI x) r
  { a := state.a + r.a, b := state.b + r.b, c := state.c + r.c, d := state.d + r.d }

/-- The state `md5_init` loads. -/
def initialState : Hash :=
  { a := 0x67452301, b := 0xefcdab89, c := 0x98badcfe, d := 0x10325476 }

/-- Resets the counters and the state; the buffer keeps its stale bytes. -/
def md5Init (context : Context) : Context :=
  { context with state := initialState, count0 := 0, count1 := 0 }

/-- Consume `input`. The loop over whole blocks makes one pass for every 64 bytes
left after the first block is filled. -/
def md5Update (context : Context) (input : List UInt8) : Context :=
  if input.length = 0 then context
  else
    let inputLen := UInt32.ofNat input.length
    let index := ((context.count0 >>> 3) &&& 0x3F).toNat
    let count0 := context.count0 + (inputLen <<< 3)
    let carried := if count0 < inputLen <<< 3 then context.count1 + 1 else context.count1
    let count1 := carried + (inputLen >>> 29)
    let partLen := 64 - index
    if partLen ≤ input.length then
      let filled := store context.buffer index (input.take partLen)
      let passes := (input.length - partLen) / 64
      let state := BlockHash.foldBlocks md5Transform 64 passes
        (md5Transform context.state (window filled 0 64)) (input.drop partLen)
      { state, count0, count1, buffer := store filled 0 (input.drop (partLen + 64 * passes)) }
    else
      { context with count0, count1, buffer := store context.buffer index input }

/-- `PADDING`: 0x80 and zeros. -/
def padding (padLen : Nat) : List UInt8 := 0x80 :: List.replicate (padLen - 1) 0

/-- The digest, and the context as it is left: padding and length are absorbed
into it, so it no longer stands for the bytes that were hashed. -/
def md5Final (context : Context) : Context × Hash :=
  let bits := encode context.count0 ++ encode context.count1
  let index := ((context.count0 >>> 3) &&& 0x3F).toNat
  let padLen := if index < 56 then 56 - index else 120 - index
  let context := md5Update (md5Update context (padding padLen)) bits
  (context, context.state)

/-- `md5_hash` of a whole byte string, starting from an uninitialised context. -/
def md5Hash (context : Context) (data : List UInt8) : Hash :=
  (md5Final (md5Update (md5Init context) data)).2

end InertialSense.Md5
