import InertialSense.Comm.Instance

/-! What the parser needs of NMEA: `strtol` for the checksum field and the message id of
`data_sets.c`. -/

namespace InertialSense.Comm

/-- `isspace` in the C locale. -/
def isSpace (byte : UInt8) : Bool := byte = 0x20 ∨ (0x09 ≤ byte ∧ byte ≤ 0x0D)

/-- The value of a hexadecimal digit. -/
def hexDigit? (byte : UInt8) : Option Nat :=
  if 0x30 ≤ byte ∧ byte ≤ 0x39 then some (byte.toNat - 0x30)
  else if 0x41 ≤ byte ∧ byte ≤ 0x46 then some (byte.toNat - 0x41 + 10)
  else if 0x61 ≤ byte ∧ byte ≤ 0x66 then some (byte.toNat - 0x61 + 10)
  else none

/-- The digits `strtol` reads, up to the first byte that is none. -/
def hexDigits (value : Nat) : List UInt8 → Nat
  | [] => value
  | byte :: rest =>
    match hexDigit? byte with
    | some digit => hexDigits (16 * value + digit) rest
    | none => value

/-- The number without its sign; a prefix 0x counts only before a digit. -/
def hexMagnitude : List UInt8 → Nat
  | zero :: x :: digit :: rest =>
    if zero = 0x30 ∧ (x = 0x78 ∨ x = 0x58) ∧ (hexDigit? digit).isSome then
      hexDigits 0 (digit :: rest)
    else hexDigits 0 (zero :: x :: digit :: rest)
  | text => hexDigits 0 text

/-- `strtol(text, NULL, 16)` of a terminated string. -/
def strtol16 (text : List UInt8) : Int :=
  match text.dropWhile isSpace with
  | 0x2D :: rest => -(hexMagnitude rest : Int)
  | 0x2B :: rest => hexMagnitude rest
  | rest => hexMagnitude rest

/-- `UINT32_MATCH` of four bytes of the message with a text of four characters. -/
def matchesAt (msg : Nat → UInt8) (start : Nat) (text : String) : Bool :=
  (List.range 4).map (fun k => msg (start + k)) = text.toList.map fun c => UInt8.ofNat c.toNat

/-- The frequency bits after `GSV_`, up to the first character that is none. -/
def gsvFrequencies (bits : Nat) : List UInt8 → Nat
  | [] => bits
  | byte :: rest =>
    if byte = 0x5F then gsvFrequencies bits rest
    else if byte = 0x31 then gsvFrequencies (bits ||| 0x01) rest
    else if byte = 0x32 then gsvFrequencies (bits ||| 0x02) rest
    else if byte = 0x33 then gsvFrequencies (bits ||| 0x04) rest
    else if byte = 0x35 then gsvFrequencies (bits ||| 0x08) rest
    else bits

/-- The constellation `decodeGSV` reads from the second talker character. -/
def gsvConstellation? (byte : UInt8) : Option Nat :=
  if byte = 0x78 ∨ byte = 0x58 ∨ byte = 0x4E then some 0
  else if byte = 0x50 then some (1 <<< 4)
  else if byte = 0x41 then some (3 <<< 4)
  else if byte = 0x42 then some (4 <<< 4)
  else if byte = 0x51 then some (5 <<< 4)
  else if byte = 0x4C then some (6 <<< 4)
  else none

/-- `decodeGSV` of a text of `aSize` characters. -/
def decodeGSV (a : Nat → UInt8) (aSize : Nat) : Int :=
  if aSize < 6 then -2
  else
    match gsvConstellation? (a 1) with
    | none => -3
    | some offset =>
      let msgNum := 15 * 256 + offset
      if a 5 = 0x2C ∨ a 5 = 0x2A then (msgNum ||| 0x0F : Nat)
      else gsvFrequencies msgNum ((List.range (aSize - 5)).map fun k => a (5 + k))

def getNmeaMsgId (msg : Nat → UInt8) (msgSize : Nat) : Int :=
  if msgSize < 5 then -2
  else if matchesAt msg 1 "ASCE" then 19
  else if matchesAt msg 1 "BLEN" then 20
  else if matchesAt msg 1 "EBLE" then 21
  else if msg 1 = 0x47 then
    if matchesAt msg 3 "GGA," then 7
    else if matchesAt msg 3 "GLL," then 8
    else if matchesAt msg 3 "GSA," then 9
    else if matchesAt msg 3 "GSV," ∨ matchesAt msg 3 "GSV_" then
      decodeGSV (fun k => msg (1 + k)) (msgSize - 1)
    else if matchesAt msg 3 "RMC," then 10
    else if matchesAt msg 3 "VTG," then 16
    else if matchesAt msg 3 "ZDA," then 11
    else -1
  else if matchesAt msg 1 "INFO" then 14
  else if matchesAt msg 1 "INTE" then 17
  else if matchesAt msg 1 "PIMU" then 1
  else if matchesAt msg 1 "PINS" then if msg 5 = 0x31 then 4 else 5
  else if matchesAt msg 1 "PERS" then 23
  else if matchesAt msg 1 "PGPS" then 6
  else if matchesAt msg 1 "PPIM" then 2
  else if matchesAt msg 1 "PRIM" then 3
  else if matchesAt msg 1 "PASH" then 12
  else if matchesAt msg 1 "STPB" then 25
  else if matchesAt msg 1 "STPC" then 26
  else if matchesAt msg 1 "SRST" then 24
  else -1

private theorem matchesAt_congr {msg msg' : Nat → UInt8} {start : Nat}
    (same : ∀ k < 4, msg (start + k) = msg' (start + k)) (text : String) :
    matchesAt msg start text = matchesAt msg' start text := by
  have bytes : (List.range 4).map (fun k => msg (start + k)) =
      (List.range 4).map fun k => msg' (start + k) := by
    apply List.map_congr_left
    intro k member
    exact same k (List.mem_range.mp member)
  unfold matchesAt
  rw [bytes]

private theorem decodeGSV_congr {a a' : Nat → UInt8} {aSize : Nat}
    (same : ∀ k < aSize, a k = a' k) : decodeGSV a aSize = decodeGSV a' aSize := by
  unfold decodeGSV
  refine ite_congr rfl (fun _ => rfl) (fun long => ?_)
  have bytes : (List.range (aSize - 5)).map (fun k => a (5 + k)) =
      (List.range (aSize - 5)).map fun k => a' (5 + k) := by
    apply List.map_congr_left
    intro k member
    exact same _ (by have := List.mem_range.mp member; omega)
  rw [same 1 (by omega), same 5 (by omega), bytes]

/-- The message id depends on the bytes of the message only. -/
theorem getNmeaMsgId_congr {msg msg' : Nat → UInt8} {msgSize : Nat} (long : 8 ≤ msgSize)
    (same : ∀ k < msgSize, msg k = msg' k) :
    getNmeaMsgId msg msgSize = getNmeaMsgId msg' msgSize := by
  have talker := @matchesAt_congr msg msg' 1 fun k small => same _ (by omega)
  have sentence := @matchesAt_congr msg msg' 3 fun k small => same _ (by omega)
  have gsv : decodeGSV (fun k => msg (1 + k)) (msgSize - 1) =
      decodeGSV (fun k => msg' (1 + k)) (msgSize - 1) :=
    decodeGSV_congr fun k small => same _ (by omega)
  unfold getNmeaMsgId
  simp only [talker, sentence, gsv, same 1 (by omega), same 5 (by omega)]

end InertialSense.Comm
