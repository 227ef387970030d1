import InertialSense.Foundation.Run
import InertialSense.Foundation.Strtol

/-! `cISBootloaderISB::process_hex_file` of `ISBootloaderISB.cpp`, with the lines as they are read.
The serial port and the callback answer with success or not. -/

namespace InertialSense.Bootloader.Isb

open Foundation

/-- `is_operation_result`. -/
inductive OperationResult where
  | ok
  | cancelled
  | error
deriving DecidableEq

def flashPageSize : Int := 65536

def maxSendCount : Nat := 510

def hexBufferSize : Nat := 1024

/-- What `upload_hex_page` sends: a length and an offset, and the characters behind them. -/
structure Frame where
  byteCount : Int
  offset : Int
  hexData : List UInt8

/-- The variables of `process_hex_file`. The answers that were used are counted, and how far
`outputPtr` came is noted. -/
structure Upload where
  currentPage : Int
  currentOffset : Int
  lastSubOffset : Int
  totalBytes : Int
  verifyCheckSum : UInt32
  -- what is in the buffer before `outputPtr`
  output : List UInt8
  furthest : Nat
  frames : List Frame
  answers : Nat
  returned : Option OperationResult

/-- The hash over the characters that are sent. -/
def hashed (checkSum : UInt32) (hexData : List UInt8) : UInt32 :=
  hexData.foldl (fun checkSum c => (checkSum <<< 5) + checkSum + c.toUInt32) checkSum

namespace Upload

variable (port : Nat → Bool)

def ask (s : Upload) : Upload × Bool := ({ s with answers := s.answers + 1 }, port s.answers)

def uploadHexPage (s : Upload) (hexData : List UInt8) (byteCount : Int) : Upload × Bool :=
  if byteCount = 0 then (s, true)
  else
    let hexData := hexData.take (2 * byteCount).toNat
    let frame : Frame := { byteCount, offset := s.currentOffset, hexData }
    match { s with frames := s.frames ++ [frame] }.ask port with
    | (s, false) => (s, false)
    | (s, true) =>
      ({ s with
          totalBytes := s.totalBytes + byteCount
          currentOffset := s.currentOffset + byteCount
          verifyCheckSum := hashed s.verifyCheckSum hexData }, true)

def uploadHex (s : Upload) (hexData : List UInt8) (charCount : Int) : Upload × Bool :=
  if maxSendCount < charCount then (s, false)
  else if charCount = 0 then (s, true)
  else if flashPageSize < s.currentOffset + charCount / 2 then
    -- the part of the page, and the rest behind its end
    let pageByteCount := flashPageSize - s.currentOffset
    match s.uploadHexPage port hexData pageByteCount with
    | (s, false) => (s, false)
    | (s, true) =>
      let rest := charCount - 2 * pageByteCount
      if rest ≠ 0 then
        s.uploadHexPage port (hexData.drop (2 * pageByteCount).toNat) (rest.tdiv 2)
      else (s, true)
  else s.uploadHexPage port hexData (charCount / 2)

/-- The loop of `fill_current_page`, with so many passes at most. It leaves a page that is not
filled as it is. -/
def fillCurrentPage (s : Upload) : Nat → Upload
  | 0 => s
  | passes + 1 =>
    if s.currentOffset < flashPageSize then
      let byteCount := min ((flashPageSize - s.currentOffset) * 2) 256
      match s.uploadHexPage port (List.replicate byteCount.toNat 0x46) (byteCount / 2) with
      | (s, false) => s
      | (s, true) => s.fillCurrentPage passes
    else s

/-- `fill_current_page`: each pass goes on by a byte at least. -/
def fillPage (s : Upload) : Upload :=
  s.fillCurrentPage port (flashPageSize - s.currentOffset).toNat

/-- Characters behind `outputPtr`. -/
def append (s : Upload) (chars : List UInt8) : Upload :=
  { s with
    output := s.output ++ chars
    furthest := max s.furthest (s.output.length + chars.length) }

/-- The bytes that are left out between two lines are set to `FF`. -/
def padTo (s : Upload) (subOffset : Int) : Upload × Bool :=
  if s.lastSubOffset < subOffset then
    let pad := Int.bmod (subOffset - s.lastSubOffset) (2 ^ 32)
    if (2 * hexBufferSize : Int) ≤ s.output.length + pad then (s, false)
    else (s.append (List.replicate (2 * (pad % 2 ^ 32).toNat) 0x46), true)
  else (s, true)

/-- The characters of a line between its head and its checksum. -/
def addLine (s : Upload) (line : List UInt8) (subOffset : Int) : Upload × Bool :=
  let pad := line.length - 11
  if 2 * hexBufferSize ≤ s.output.length + pad then (s, false)
  else
    ({ s.append ((line.drop 9).take pad) with
        lastSubOffset := subOffset + (pad / 2 : Nat) }, true)

end Upload

/-- The line has a type of 00. -/
def isData (line : List UInt8) : Bool :=
  12 < line.length ∧ line.getD 7 0 = 0x30 ∧ line.getD 8 0 = 0x30

/-- The line starts with `:020000040`. -/
def isSegment (line : List UInt8) : Bool :=
  line.take 10 = [0x3A, 0x30, 0x32, 0x30, 0x30, 0x30, 0x30, 0x30, 0x34, 0x30] ∧
    13 ≤ (line.takeWhile (· ≠ 0)).length

/-- The line has a type of 01. -/
def isLast (line : List UInt8) : Bool :=
  10 < line.length ∧ line.getD 7 0 = 0x30 ∧ line.getD 8 0 = 0x31

def subOffsetOf (line : List UInt8) : Int :=
  (strtol 16 (((line.drop 3).take 4).map Char.ofUInt8)).1

/-- The page of a line of type 04: a single digit. -/
def pageOf (line : List UInt8) : Int := (strtol 16 [Char.ofUInt8 (line.getD 12 0)]).1

/-- How a line leaves the body of the loop: without the callback, with it, or with an error. -/
inductive Pass where
  | next
  | report
  | failed

namespace Upload

variable (port : Nat → Bool)

/-- A chunk is sent once there are characters enough for it. -/
def sendChunk (s : Upload) : Upload × Pass :=
  if s.output.length < maxSendCount then (s, .next)
  else
    match s.uploadHex port s.output (min maxSendCount s.output.length : Nat) with
    | (s, false) => (s, .failed)
    | (s, true) =>
      if hexBufferSize < s.output.length - maxSendCount then (s, .failed)
      else ({ s with output := s.output.drop maxSendCount }, .report)

/-- A line of type 00. -/
def dataLine (s : Upload) (line : List UInt8) : Upload × Pass :=
  if hexBufferSize * 4 < line.length then (s, .failed)
  else
    match s.padTo (subOffsetOf line) with
    | (s, false) => (s, .failed)
    | (s, true) =>
      match s.addLine line (subOffsetOf line) with
      | (s, false) => (s, .failed)
      | (s, true) => s.sendChunk port

/-- The next page is selected, and programming begins. -/
def nextPage (s : Upload) : Upload × Pass :=
  match { s with currentOffset := 0 }.ask port with
  | (s, false) => (s, .failed)
  | (s, true) =>
    match s.ask port with
    | (s, false) => (s, .failed)
    | (s, true) => ({ s with output := [] }, .report)

/-- A line of type 04: the rest of the page is filled, and the next page selected. -/
def segmentLine (s : Upload) (line : List UInt8) : Upload × Pass :=
  let currentPage := pageOf line
  if currentPage = 0 then ({ s with currentPage, lastSubOffset := s.currentOffset }, .next)
  else if hexBufferSize < s.output.length then
    ({ s with currentPage, lastSubOffset := 0 }, .failed)
  else
    match { s with currentPage, lastSubOffset := 0 }.uploadHex port s.output s.output.length with
    | (s, false) => (s, .failed)
    | (s, true) => (s.fillPage port).nextPage port

/-- A line of type 01. -/
def lastLine (s : Upload) : Upload × Pass :=
  match s.uploadHex port s.output s.output.length with
  | (s, false) => (s, .failed)
  | (s, true) =>
    if s.currentOffset ≠ 0 then ({ s.fillPage port with output := [] }, .report)
    else ({ s with output := [] }, .report)

def lineBody (s : Upload) (line : List UInt8) : Upload × Pass :=
  if isData line then s.dataLine port line
  else if isSegment line then s.segmentLine port line
  else if isLast line then s.lastLine port
  else (s, .report)

/-- A pass of the loop of `process_hex_file`. -/
def processLine (s : Upload) (line : List UInt8) : Upload × Unit :=
  (match s.returned with
    | some _ => s
    | none =>
      match s.lineBody port line with
      | (s, .next) => s
      | (s, .failed) => { s with returned := some .error }
      | (s, .report) =>
        match s.ask port with
        | (s, true) => s
        | (s, false) => { s with returned := some .cancelled }, ())

/-- The variables before the first line. -/
def start (appOffset : UInt32) : Upload where
  currentPage := -1
  currentOffset := Int.bmod appOffset.toNat (2 ^ 32)
  lastSubOffset := Int.bmod appOffset.toNat (2 ^ 32)
  totalBytes := Int.bmod appOffset.toNat (2 ^ 32)
  verifyCheckSum := 5381
  output := []
  furthest := 0
  frames := []
  answers := 0
  returned := none

end Upload

/-- `is_isb_read_line`, with room for so many characters. -/
def isIsbReadLine : Nat → List UInt8 → List UInt8 × List UInt8
  | 0, file => ([], file)
  | _ + 1, [] => ([], [])
  | room + 1, c :: file =>
    if c = 0x0D then isIsbReadLine (room + 1) file
    -- the character of `EOF` as well
    else if c = 0x0A ∨ c = 0xFF then ([], file)
    else (c :: (isIsbReadLine room file).1, (isIsbReadLine room file).2)

def isbLines : Nat → List UInt8 → List (List UInt8)
  | 0, _ => []
  | count + 1, file =>
    let (line, rest) := isIsbReadLine 1023 file
    if line.length = 0 ∨ line.length = 1023 then [] else line :: isbLines count rest

/-- `process_hex_file`: every line that is read has a character of the file at least. -/
def processHexFile (port : Nat → Bool) (appOffset : UInt32) (file : List UInt8) : Upload :=
  (run (Upload.processLine port) (.start appOffset) (isbLines file.length file)).1

/-! ### The lines of a file -/

private theorem isIsbReadLine_length (room : Nat) (file : List UInt8) :
    (isIsbReadLine room file).1.length + (isIsbReadLine room file).2.length ≤ file.length := by
  induction file generalizing room with
  | nil => cases room <;> exact Nat.le_refl _
  | cons c file ih =>
    cases room with
    | zero => simp [isIsbReadLine]
    | succ room =>
      have same := ih (room + 1)
      have less := ih room
      unfold isIsbReadLine
      split
      case isTrue eaten =>
        rw [List.length_cons]
        omega
      split
      case isTrue ended => simp
      case isFalse char =>
        dsimp only
        rw [List.length_cons, List.length_cons]
        omega

/-- There are no more lines than characters. -/
theorem isbLines_enough {count count' : Nat} {file : List UInt8} (enough : file.length ≤ count)
    (enough' : file.length ≤ count') : isbLines count file = isbLines count' file := by
  have none (count : Nat) : isbLines count [] = [] := by
    cases count <;> rfl
  induction count generalizing count' file with
  | zero =>
    rw [List.length_eq_zero_iff.mp (Nat.le_zero.mp enough), none, none]
  | succ count ih =>
    cases count' with
    | zero => rw [List.length_eq_zero_iff.mp (Nat.le_zero.mp enough'), none, none]
    | succ count' =>
      have taken := isIsbReadLine_length 1023 file
      unfold isbLines
      dsimp only
      split
      case isTrue ended => rfl
      case isFalse more => rw [@ih count' (isIsbReadLine 1023 file).2 (by omega) (by omega)]

end InertialSense.Bootloader.Isb
