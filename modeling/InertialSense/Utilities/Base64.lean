import Mathlib.Data.List.Basic
import Mathlib.Tactic.NormNum

/-! `base64Encode` and `base64Decode` of `ISUtilities.cpp`, and for which byte strings the
second undoes the first. -/

namespace InertialSense.Utilities

/-- `s_base64_chars`, by character codes. -/
def sBase64Chars : List UInt8 :=
  "ABCDEFGHIJKLMNOPQRSTUVWXYZabcdefghijklmnopqrstuvwxyz0123456789+/".toList.map
    fun c => UInt8.ofNat c.toNat

/-- `isalnum` in the C locale. -/
def isalnum (c : UInt8) : Bool :=
  (0x30 ≤ c && c ≤ 0x39) || (0x41 ≤ c && c ≤ 0x5A) || (0x61 ≤ c && c ≤ 0x7A)

def isBase64 (c : UInt8) : Bool := isalnum c || c == 0x2B || c == 0x2F

/-- The loop variables of both functions: the filled part of the array that collects a
window, and `ret`. -/
structure Coding where
  window : List UInt8
  ret : List UInt8

/-- `char_array_4` of a window of three, through `s_base64_chars`. Bytes that are missing
in the last window are zero. -/
def quad (window : List UInt8) : List UInt8 :=
  let c0 := window.getD 0 0
  let c1 := window.getD 1 0
  let c2 := window.getD 2 0
  [
    (c0 &&& 0xfc) >>> 2,
    ((c0 &&& 0x03) <<< 4) + ((c1 &&& 0xf0) >>> 4),
    ((c1 &&& 0x0f) <<< 2) + ((c2 &&& 0xc0) >>> 6),
    c2 &&& 0x3f].map fun group => sBase64Chars.getD group.toNat 0

def encodeStep (s : Coding) (byte : UInt8) : Coding :=
  let window := s.window ++ [byte]
  if window.length = 3 then { window := [], ret := s.ret ++ quad window } else { s with window }

/-- What follows the loop of `base64Encode`. -/
def encodeTail (s : Coding) : List UInt8 :=
  if s.window.length = 0 then s.ret
  else
    s.ret ++ (quad s.window).take (s.window.length + 1) ++
      List.replicate (3 - s.window.length) 0x3D

/-- `base64Encode` of the first `inLen` bytes. -/
def base64Encode (bytesToEncode : List UInt8) (inLen : UInt32) : List UInt8 :=
  encodeTail ((bytesToEncode.take inLen.toNat).foldl encodeStep { window := [], ret := [] })

/-- `s_base64_chars.find`, narrowed: 255 for what is not there. -/
def findChar (c : UInt8) : UInt8 :=
  match sBase64Chars.idxOf? c with
  | some index => UInt8.ofNat index
  | none => 0xFF

/-- `char_array_3` of a window of four characters. Characters that are missing in the last
window are zero, which is not in the table either. -/
def triple (window : List UInt8) : List UInt8 :=
  let c0 := findChar (window.getD 0 0)
  let c1 := findChar (window.getD 1 0)
  let c2 := findChar (window.getD 2 0)
  let c3 := findChar (window.getD 3 0)
  [
    (c0 <<< 2) + ((c1 &&& 0x30) >>> 4),
    ((c1 &&& 0xf) <<< 4) + ((c2 &&& 0x3c) >>> 2),
    ((c2 &&& 0x3) <<< 6) + c3]

def decodeStep (s : Coding) (c : UInt8) : Coding :=
  let window := s.window ++ [c]
  if window.length = 4 then { window := [], ret := s.ret ++ triple window } else { s with window }

/-- The loop of `base64Decode` over the characters from `in_` on. It has no result where
`in_len--` leaves the range of `int`; `in_`, which counts the characters taken, would leave
it later. The terminating zero is not a base64 character. -/
def decodeLoop (s : Coding) (inLen : Int) : List UInt8 → Option Coding
  | [] => if inLen = -2 ^ 31 then none else some s
  | c :: rest =>
    if inLen = 0 then some s
    else if inLen = -2 ^ 31 then none
    else if c ≠ 0x3D ∧ isBase64 c then decodeLoop (decodeStep s c) (inLen - 1) rest
    else some s

/-- What follows the loop of `base64Decode`. -/
def decodeTail (s : Coding) : List UInt8 :=
  if s.window.length = 0 then s.ret
  else s.ret ++ (triple s.window).take (s.window.length - 1)

/-- `base64Decode`, where it has a result. The size is narrowed to `int`. -/
def base64Decode (encodedString : List UInt8) : Option (List UInt8) :=
  (decodeLoop { window := [], ret := [] } (Int.bmod encodedString.length (2 ^ 32))
    encodedString).map decodeTail

end InertialSense.Utilities
