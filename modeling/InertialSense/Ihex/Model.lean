import InertialSense.Foundation.Hex
import InertialSense.Foundation.Memory

/-! `ihex.c`: the sections of an Intel HEX file. What a variable holds that was never written, and
which sizes `malloc` can serve, are parameters. -/

namespace InertialSense.Ihex

open Foundation

def maxIhexSectionLen : Nat := 0x020000

/-- `ihex_image_section_t`. -/
@[ext] structure ImageSection where
  address : UInt32
  len : UInt32
  image : List UInt8
  sized : image.length = len.toNat
deriving DecidableEq

/-- A `FILE*`: what is read from its position on, and its end-of-file indicator. -/
structure HexFile where
  rest : List Char
  atEnd : Bool

def takeLine : Nat → List Char → List Char
  | 0, _ => []
  | _, [] => []
  | count + 1, c :: rest => if c = '\n' then [c] else c :: takeLine count rest

def HexFile.fgets (file : HexFile) (size : Nat) : HexFile × List Char :=
  let line := takeLine (size - 1) file.rest
  ({ rest := file.rest.drop line.length
     atEnd := line.length < size - 1 ∧ line.getLast? ≠ some '\n' }, line)

/-- A character at the end of a string is cut off. -/
def chomp (last : Char) (line : List Char) : List Char :=
  if line.getLast? = some last then line.dropLast else line

/-- A line as a string, without its end. -/
def stringOf (line : List Char) : List Char :=
  chomp '\r' (chomp '\n' (line.takeWhile (· ≠ '\x00')))

/-- The variables that `parse_hex_line` writes to. -/
structure Scanned where
  addr : Int
  n : Nat
  status : Int
  bytes : Nat → UInt8

/-- What is in variables before anything was written to them. -/
structure Leftover where
  scanned : Scanned
  len : Int
  cksum : Int

/-- The loop over the data bytes. -/
def scanBytes (line : List Char) (old : Nat → UInt8) : Nat → Option (List UInt8)
  | 0 => some []
  | count + 1 => do
    let bytes ← scanBytes line old count
    let value ← (scanHex 2 (line.drop (9 + 2 * count))).stored (old count).toNat
    pure (bytes ++ [UInt8.ofInt value])

/-- `parse_hex_line`: nothing if it returns 0. -/
def parseHexLine (leftover : Leftover) (old : Scanned) (line : List Char) : Option Scanned := do
  if line.head? ≠ some ':' ∨ line.length < 11 then none
  let len ← (scanHex 2 (line.drop 1)).stored leftover.len
  -- `size_t` has 64 bits
  if (line.length : Int) < (11 + 2 * len) % 2 ^ 64 then none
  let addr ← (scanHex 4 (line.drop 3)).stored old.addr
  let code ← (scanHex 2 (line.drop 7)).stored old.status
  -- the loop ends at 256 bytes, also for a negative length
  if len < 0 ∨ 256 ≤ len then none
  let bytes ← scanBytes line old.bytes len.toNat
  let sum := len % 256 + addr / 256 % 256 + addr % 256 + code % 256 +
    (bytes.map fun byte => (byte.toNat : Int)).sum
  let cksum ← (scanHex 2 (line.drop (9 + 2 * len.toNat))).stored leftover.cksum
  if (sum % 256 + cksum % 256) % 256 ≠ 0 then none
  pure { addr, n := len.toNat, status := code, bytes := store old.bytes 0 bytes }

/-- The variables of `ihex_load_section`. -/
structure Loading where
  imageLocal : Int → UInt8
  minaddr : Int
  maxaddr : Int
  alreadysetaddr : Bool
  address : UInt32
  scanned : Scanned

def Loading.write (l : Loading) (addr : Int) (byte : UInt8) : Loading :=
  { l with
    imageLocal := fun place => if place = addr then byte else l.imageLocal place
    minaddr := min l.minaddr addr
    maxaddr := max l.maxaddr addr
    -- the variable that the next line is scanned into
    scanned := { l.scanned with addr := addr + 1 } }

/-- The loop that copies the bytes of a record: nothing if the buffer is exceeded. -/
def Loading.copyBytes (l : Loading) (addr : Int) : List UInt8 → Option Loading
  | [] => some l
  | byte :: rest =>
    if addr + 1 > maxIhexSectionLen then none else (l.write addr byte).copyBytes (addr + 1) rest

/-- How the loop over the lines ends. -/
inductive LoopEnd where
  | ended (l : Loading) (eof : Bool) (file : HexFile)
  | error

theorem takeLine_ne_nil {count : Nat} {text : List Char} (some : takeLine count text ≠ []) :
    text ≠ [] := by
  rintro rfl
  cases count <;> exact some rfl

theorem parseHexLine_some {leftover : Leftover} {old : Scanned} {line : List Char}
    (parsed : (parseHexLine leftover old (stringOf line)).isSome) : line ≠ [] := by
  rintro rfl
  cases parsed

def loadLines (leftover : Leftover) (l : Loading) (file : HexFile) : LoopEnd :=
  if file.atEnd then .ended l false file
  else
    let read := file.fgets 512
    match _ : parseHexLine leftover l.scanned (stringOf read.2) with
    | none => .error
    | some scanned =>
      let l := { l with scanned }
      if scanned.status = 0 then
        match l.copyBytes scanned.addr (window scanned.bytes 0 scanned.n) with
        | none => .error
        | some l => loadLines leftover l read.1
      else if scanned.status = 1 then .ended l true read.1
      else if scanned.status = 4 then
        -- back by one line, so that the next call gets this address
        if l.alreadysetaddr then .ended l false { rest := file.rest, atEnd := false }
        else
          let address := (scanned.bytes 1).toUInt32 <<< 16 ||| (scanned.bytes 0).toUInt32 <<< 24
          loadLines leftover { l with address, alreadysetaddr := true } read.1
      else loadLines leftover l read.1
termination_by file.rest.length
decreasing_by
  all_goals
    have some := parseHexLine_some (Option.isSome_iff_exists.mpr ⟨_, ‹_›⟩)
    have text := takeLine_ne_nil some
    have shorter := List.length_pos_iff.mpr some
    have longer := List.length_pos_iff.mpr text
    show (file.rest.drop (takeLine 511 file.rest).length).length < file.rest.length
    rw [List.length_drop]
    change 0 < (takeLine 511 file.rest).length at shorter
    omega

/-- What `ihex_load_section` comes to; it may read behind its buffer. -/
inductive LoadResult where
  | loaded (eof : Bool) (file : HexFile) (result : ImageSection)
  | error
  | undefined

/-- The end of `ihex_load_section`. -/
def finishSection (malloc : Nat → Bool) (l : Loading) (eof : Bool) (file : HexFile) : LoadResult :=
  let len := UInt32.ofNat ((l.maxaddr - l.minaddr + 1) % 2 ^ 32).toNat
  if malloc len.toNat ∧ len ≠ 0 then
    if 0 ≤ l.minaddr ∧ l.minaddr + len.toNat ≤ maxIhexSectionLen then
      .loaded eof file
        { address := l.address
          len
          image := window (fun k => l.imageLocal (l.minaddr + k)) 0 len.toNat
          sized := window_length .. }
    else .undefined
  else .error

/-- The variables of `ihex_load_section` as they start. -/
def Loading.fresh (leftover : Leftover) : Loading where
  imageLocal := fun _ => 0xFF
  minaddr := 65536
  maxaddr := 0
  alreadysetaddr := false
  address := 0
  scanned := leftover.scanned

def ihexLoadSection (malloc : Nat → Bool) (leftover : Leftover) (file : HexFile) : LoadResult :=
  if malloc maxIhexSectionLen then
    match loadLines leftover (.fresh leftover) file with
    | .error => .error
    | .ended l eof file => finishSection malloc l eof file
  else .undefined

/-- The loop of `ihex_load_sections`, with so many slots left: nothing if it does what C does not
define, such as to write a section where there is no slot. -/
def loadSections (malloc : Nat → Bool) (leftover : Leftover) : Nat → HexFile →
    Option (List ImageSection)
  | 0, _ => none
  | slots + 1, file =>
    match ihexLoadSection malloc leftover file with
    | .undefined => none
    | .error => some []
    | .loaded eof file result =>
      if eof ∨ slots = 0 then some [result]
      else (loadSections malloc leftover slots file).map (result :: ·)

/-- `ihex_load_sections` on a file that can be opened, with the sections it has counted. -/
def ihexLoadSections (malloc : Nat → Bool) (leftover : Leftover) (text : List Char)
    (numSlots : Nat) : Option (List ImageSection) :=
  loadSections malloc leftover numSlots { rest := text, atEnd := false }

end InertialSense.Ihex
