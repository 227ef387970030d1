import InertialSense.Bootloader.Isb

/-! `cISBootloaderISB::verify_image` of `ISBootloaderISB.cpp`: a pass of the loop over a page asks for
a chunk, and reads what the port gives of it. A pass that gets no data starts again. -/

namespace InertialSense.Bootloader.Isb

open Foundation

/-- What `get_device_info` has found out (or an answer that it cannot read has left, any values), and
what the upload has left. -/
structure Image where
  appOffset : Int
  verifySize : Int
  currentPage : Int
  verifyCheckSum : UInt32
  -- whether the file for the image could be opened
  opened : Bool

/-- What a pass meets: the answer to its command, the bytes that the port has, and the answers of the
callback, line by line. -/
structure Input where
  answer : Bool
  bytes : List UInt8
  callback : Nat → Bool

/-- How the function is left: with a result, or by a read outside of the bytes in the buffer. -/
inductive Leave where
  | result (result : OperationResult)
  | fault
deriving DecidableEq

/-- The variables of `verify_image`, in a page or between two. -/
structure Verify where
  i : Int
  selected : Bool
  pageOffset : Int
  totalCharCount : Int
  realCheckSum : UInt32
  verifyByte : Option UInt8
  written : List UInt8
  c : UInt8
  returned : Option Leave

/-- A digit that the device sends. -/
def isUpperDigit (c : UInt8) : Bool := 0x30 ≤ c ∧ c ≤ 0x39 ∨ 0x41 ≤ c ∧ c ≤ 0x46

/-- The value of the digit. -/
def digitOf (c : UInt8) : UInt8 := if 0x30 ≤ c ∧ c ≤ 0x39 then c - 0x30 else c - 0x41 + 10

namespace Verify

/-- A digit is counted, and the second one of a byte written. -/
def digit (opened : Bool) (s : Verify) (c : UInt8) : Verify :=
  let s := { s with
    c
    totalCharCount := s.totalCharCount + 1
    realCheckSum := (s.realCheckSum <<< 5) + s.realCheckSum + c.toUInt32 }
  if opened then
    match s.verifyByte with
    | none => { s with verifyByte := some (digitOf c <<< 4) }
    | some high => { s with verifyByte := none, written := s.written ++ [high ||| digitOf c] }
  else s

end Verify

/-- Where the characters of a line end: with the index behind them and the digits, at a character that
is none, or outside of the bytes. -/
inductive Chars where
  | ends (s : Verify) (chunkIndex pageChars : Nat)
  | unexpected
  | fault

/-- The loop over the characters of a line, with so many bytes left. -/
def readChars (opened : Bool) (chunkBuffer : List UInt8) :
    Nat → Verify → Nat → Nat → Chars
  | 0, s, chunkIndex, pageChars => .ends s chunkIndex pageChars
  | left + 1, s, chunkIndex, pageChars =>
    match chunkBuffer[chunkIndex]? with
    | none => .fault
    | some c =>
      if isUpperDigit c then
        readChars opened chunkBuffer left (s.digit opened c) (chunkIndex + 1) (pageChars + 1)
      else if c = 0x0D then readChars opened chunkBuffer left { s with c } (chunkIndex + 1) pageChars
      else if c = 0x0A then .ends { s with c } (chunkIndex + 1) pageChars
      else .unexpected

/-- The four characters of the offset, up to the null character behind them. -/
def headAt (chunkBuffer : List UInt8) (chunkIndex : Nat) : Option (List UInt8) :=
  (List.range 4).mapM fun k => chunkBuffer[chunkIndex + k]?

def readLines (opened : Bool) (callback : Nat → Bool) (chunkBuffer : List UInt8) :
    Nat → Nat → Verify → Nat → Verify
  | 0, _, s, _ => s
  | left + 1, line, s, chunkIndex =>
    if chunkBuffer.length ≤ chunkIndex then s
    else if chunkBuffer.length < chunkIndex + 5 then { s with returned := some (.result .error) }
    else
      match chunkBuffer[chunkIndex]?, chunkBuffer[chunkIndex + 4]?, headAt chunkBuffer chunkIndex with
      | some first, some mark, some head =>
        if first = 0x58 ∨ mark ≠ 0x3D then { s with returned := some (.result .error) }
        else if (strtol 16 (head.map Char.ofUInt8)).1 ≠ s.pageOffset then
          { s with returned := some (.result .error) }
        else
          match readChars opened chunkBuffer (chunkBuffer.length - (chunkIndex + 5)) s
              (chunkIndex + 5) 0 with
          | .fault => { s with returned := some .fault }
          | .unexpected => { s with returned := some (.result .error) }
          | .ends s chunkIndex pageChars =>
            -- the character of the line before, if there is none in this one
            if s.c ≠ 0x0A then { s with returned := some (.result .error) }
            else
              let s := { s with pageOffset := s.pageOffset + (pageChars / 2 : Nat) }
              if callback line then readLines opened callback chunkBuffer left (line + 1) s chunkIndex
              else { s with returned := some (.result .cancelled) }
      | _, _, _ => { s with returned := some .fault }

namespace Verify

variable (image : Image)

/-- The bytes that a pass asks for. -/
def readCount (s : Verify) : Int := min (min flashPageSize image.verifySize) (flashPageSize - s.pageOffset)

/-- The room for them and for the heads and ends of their lines, of 255 bytes at most. -/
def requested (s : Verify) : Nat :=
  (7 * ((s.readCount image + 254) / 255) + s.readCount image * 2).toNat

/-- A pass of the loop over a page. -/
def pass (s : Verify) (input : Input) : Verify :=
  if input.answer then
    let chunkBuffer := input.bytes.take (s.requested image)
    readLines image.opened input.callback chunkBuffer chunkBuffer.length 0 s 0
  else { s with returned := some (.result .error) }

/-- The function goes on by a pass, to the page, or to the next one. -/
def step (s : Verify) (input : Input) : Verify × Unit :=
  (if s.returned.isSome then s
    else if s.selected then
      if s.pageOffset < flashPageSize then s.pass image input
      else { s with i := s.i + 1, selected := false }
    else if s.i ≤ image.currentPage then
      if input.answer then
        { s with selected := true, pageOffset := if s.i = 0 then image.appOffset else 0 }
      else { s with returned := some (.result .error) }
    else
      { s with
        returned := some (.result (if s.realCheckSum = image.verifyCheckSum then .ok else .error)) },
    ())

/-- The variables at first. -/
def start : Verify where
  i := 0
  selected := false
  pageOffset := 0
  totalCharCount := image.appOffset * 2
  realCheckSum := 5381
  verifyByte := none
  written := []
  c := 0
  returned := none

/-- Where the function is after so many inputs. -/
def after (inputs : Nat → Input) (n : Nat) : Verify :=
  (run (step image) (start image) ((List.range n).map inputs)).1

theorem after_succ (inputs : Nat → Input) (n : Nat) :
    after image inputs (n + 1) = (step image (after image inputs n) (inputs n)).1 := by
  unfold after
  rw [List.range_succ, List.map_append, run_append]
  rfl

end Verify

end InertialSense.Bootloader.Isb
