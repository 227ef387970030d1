import InertialSense.Foundation.Memory
import InertialSense.Foundation.Run

/-! `ring_buffer.c`: a byte ring over caller-owned memory, with pointers kept as
offsets from `startPtr` (so `endPtr` is `bufSize`). -/

namespace InertialSense.RingBuffer

open Foundation

/-- `ring_buf_t` together with the memory its pointers point into. -/
structure RingBuf where
  mem : Nat → UInt8
  rdPtr : Nat
  wrPtr : Nat
  bufSize : Nat
  wordByteSize : Nat

def ringBufInit (mem : Nat → UInt8) (bufSize wordByteSize : Nat) : RingBuf :=
  { mem, rdPtr := 0, wrPtr := 0, bufSize, wordByteSize }

def ringBufUsed (rbuf : RingBuf) : Int :=
  let bytesUsed : Int := (rbuf.wrPtr : Int) - rbuf.rdPtr
  if bytesUsed < 0 then bytesUsed + rbuf.bufSize else bytesUsed

def ringBufFree (rbuf : RingBuf) : Int :=
  rbuf.bufSize - rbuf.wordByteSize - ringBufUsed rbuf

/-- The copy loop of `ringBufWrite`. A pass copies at least one byte once `wrPtr`
is inside the buffer, so `buf.length + 1` passes are enough. -/
def copyLoop (buf : List UInt8) : Nat → RingBuf → Nat → RingBuf
  | 0, rb, _ => rb
  | passes + 1, rb, numBytes =>
    if numBytes = 0 then rb
    else
      let bytesToEnd := rb.bufSize - rb.wrPtr
      if bytesToEnd ≤ numBytes then
        -- the source pointer `buf` stays where it is for the next pass
        copyLoop buf passes
          { rb with mem := store rb.mem rb.wrPtr (buf.take bytesToEnd), wrPtr := 0 }
          (numBytes - bytesToEnd)
      else
        copyLoop buf passes
          { rb with
            mem := store rb.mem rb.wrPtr (buf.take numBytes)
            wrPtr := rb.wrPtr + numBytes } 0

/-- Returns 0 on success and 1 on overflow. -/
def ringBufWrite (rb : RingBuf) (buf : List UInt8) : RingBuf × Int :=
  if buf.length = 0 then (rb, 0)
  else
    let overflow := (buf.length : Int) > ringBufFree rb
    let rb := copyLoop buf (buf.length + 1) rb buf.length
    if overflow then
      let rdPtr := rb.wrPtr + rb.wordByteSize
      ({ rb with rdPtr := if rb.bufSize ≤ rdPtr then 0 else rdPtr }, 1)
    else (rb, 0)

/-- The bytes delivered to the caller's buffer; their number is the return value. -/
def ringBufRead (rbuf : RingBuf) (len : Nat) : RingBuf × List UInt8 :=
  if ringBufUsed rbuf ≤ 0 then (rbuf, [])
  else
    let bytesToRead := min len (ringBufUsed rbuf).toNat
    if rbuf.wrPtr < rbuf.rdPtr ∧ rbuf.bufSize - rbuf.rdPtr < bytesToRead then
      let bytesRead1 := rbuf.bufSize - rbuf.rdPtr
      let bytesRead2 := bytesToRead - bytesRead1
      ({ rbuf with rdPtr := bytesRead2 },
        window rbuf.mem rbuf.rdPtr bytesRead1 ++ window rbuf.mem 0 bytesRead2)
    else
      let rdPtr := rbuf.rdPtr + bytesToRead
      ({ rbuf with rdPtr := if rbuf.bufSize ≤ rdPtr then 0 else rdPtr },
        window rbuf.mem rbuf.rdPtr bytesToRead)

/-- The buffer, which is only read, and the bytes delivered to the caller. -/
def ringBufPeek (rbuf : RingBuf) (len offset : Nat) : RingBuf × List UInt8 :=
  let bytesUsed := ringBufUsed rbuf
  if bytesUsed ≤ 0 then (rbuf, [])
  else if bytesUsed ≤ offset then (rbuf, [])
  else
    let bytesToRead := min len bytesUsed.toNat
    let rdPtr := rbuf.rdPtr + offset
    let rdPtr := if rbuf.bufSize ≤ rdPtr then rdPtr - rbuf.bufSize else rdPtr
    if rbuf.wrPtr < rdPtr ∧ rbuf.bufSize - rdPtr < bytesToRead then
      let bytesRead1 := rbuf.bufSize - rdPtr
      let bytesRead2 := bytesToRead - bytesRead1
      (rbuf, window rbuf.mem rdPtr bytesRead1 ++ window rbuf.mem 0 bytesRead2)
    else (rbuf, window rbuf.mem rdPtr bytesToRead)

/-- `ringfindChar2`, over so many bytes: one past the first of the two characters. -/
def ringfindChar2 (mem : Nat → UInt8) (character1 character2 : UInt8) : Nat → Nat → Option Nat
  | _, 0 => none
  | bufPtr, left + 1 =>
    if mem bufPtr = character1 ∨ mem bufPtr = character2 then some (bufPtr + 1)
    else ringfindChar2 mem character1 character2 (bufPtr + 1) left

/-- The end of `ringBufReadToChar2`, where the character was found before the wrap. -/
def readToFound (rbuf : RingBuf) (fndPtr : Nat) : RingBuf × List UInt8 :=
  ({ rbuf with rdPtr := if rbuf.bufSize ≤ fndPtr then 0 else fndPtr },
    window rbuf.mem rbuf.rdPtr (fndPtr - rbuf.rdPtr))

/-- The bytes delivered to the caller's buffer; their number is the return value. -/
def ringBufReadToChar2 (rbuf : RingBuf) (len : Int) (character1 character2 : UInt8) :
    RingBuf × List UInt8 :=
  let find := ringfindChar2 rbuf.mem character1 character2
  if ringBufUsed rbuf ≤ 0 then (rbuf, [])
  else
    let bytesToRead := if len < ringBufUsed rbuf then len else ringBufUsed rbuf
    if rbuf.wrPtr < rbuf.rdPtr ∧ (rbuf.bufSize - rbuf.rdPtr : Nat) < bytesToRead then
      match find rbuf.rdPtr (rbuf.bufSize - rbuf.rdPtr) with
      | some fndPtr => readToFound rbuf fndPtr
      | none =>
        let bytesRead1 := rbuf.bufSize - rbuf.rdPtr
        let bytesRead2 := bytesToRead.toNat - bytesRead1
        match find 0 bytesRead2 with
        | none => (rbuf, [])
        | some fndPtr =>
          ({ rbuf with rdPtr := fndPtr },
            window rbuf.mem rbuf.rdPtr bytesRead1 ++ window rbuf.mem 0 fndPtr)
    else
      match find rbuf.rdPtr bytesToRead.toNat with
      | none => (rbuf, [])
      | some fndPtr => readToFound rbuf fndPtr

/-- `strncmp` of so many characters: those behind a zero are not compared. -/
def strncmp : List UInt8 → List UInt8 → Int
  | c1 :: s1, c2 :: s2 =>
    if c1 ≠ c2 then (c1.toNat : Int) - c2.toNat else if c1 = 0 then 0 else strncmp s1 s2
  | _, _ => 0

/-- The comparison in a pass of `ringBufFind`. -/
def ringBufCompare (rbuf : RingBuf) (str : List UInt8) (buf : Nat) : Bool :=
  if rbuf.bufSize ≤ buf + str.length then
    let len1 := buf + str.length - rbuf.bufSize
    let len2 := str.length - len1
    strncmp (window rbuf.mem buf len1) (str.take len1) = 0 ∧
      strncmp (window rbuf.mem buf len2) (window rbuf.mem 0 len2) = 0
  else strncmp (window rbuf.mem buf str.length) str = 0

/-- The loop of `ringBufFind`, with so many passes left. -/
def findLoop (rbuf : RingBuf) (str : List UInt8) : Nat → Nat → Nat → Int
  | 0, _, _ => -1
  | left + 1, i, buf =>
    if ringBufCompare rbuf str buf then i
    else findLoop rbuf str left (i + 1) (if rbuf.bufSize ≤ buf + 1 then 0 else buf + 1)

def ringBufFind (rbuf : RingBuf) (str : List UInt8) : Int :=
  findLoop rbuf str (ringBufUsed rbuf).toNat 0 rbuf.rdPtr

def ringBufRemove (rbuf : RingBuf) (len : Nat) : RingBuf × Int :=
  let bytesToRemove := ringBufUsed rbuf
  if bytesToRemove ≤ 0 then (rbuf, 0)
  else if bytesToRemove ≤ len then ({ rbuf with rdPtr := rbuf.wrPtr }, bytesToRemove)
  else
    let rdPtr := rbuf.rdPtr + len
    ({ rbuf with rdPtr := if rbuf.bufSize ≤ rdPtr then rdPtr - rbuf.bufSize else rdPtr }, len)

def ringBufClear (rbuf : RingBuf) : RingBuf × Int :=
  ({ rbuf with rdPtr := 0, wrPtr := 0 }, ringBufUsed rbuf)

/-- One call on the buffer. -/
inductive Call where
  | write (buf : List UInt8)
  | read (len : Nat)
  | remove (len : Nat)
  | clear

/-- What a call hands back to its caller. -/
inductive Answer where
  | status (code : Int)
  | bytes (data : List UInt8)
  | count (removed : Int)
deriving DecidableEq

def call (rbuf : RingBuf) : Call → RingBuf × Answer
  | .write buf => ((ringBufWrite rbuf buf).1, .status (ringBufWrite rbuf buf).2)
  | .read len => ((ringBufRead rbuf len).1, .bytes (ringBufRead rbuf len).2)
  | .remove len => ((ringBufRemove rbuf len).1, .count (ringBufRemove rbuf len).2)
  | .clear => ((ringBufClear rbuf).1, .count (ringBufClear rbuf).2)

/-- Lengths are whole numbers of words. -/
def Call.Aligned (wordByteSize : Nat) : Call → Prop
  | .write buf => wordByteSize ∣ buf.length
  | .read len => wordByteSize ∣ len
  | .remove len => wordByteSize ∣ len
  | .clear => True

/-- The offset `k` bytes after `place`, wrapping once at the end of the buffer. -/
def RingBuf.wrap (rbuf : RingBuf) (place k : Nat) : Nat :=
  if place + k < rbuf.bufSize then place + k else place + k - rbuf.bufSize

/-- The logical content: the used bytes from `rdPtr` on, wrapping at the end. -/
def RingBuf.content (rbuf : RingBuf) : List UInt8 :=
  (List.range (ringBufUsed rbuf).toNat).map fun k => rbuf.mem (rbuf.wrap rbuf.rdPtr k)

end InertialSense.RingBuffer
