import InertialSense.Comm.Nmea
import InertialSense.Foundation.Strtol

/-! `$ASCE`: the periods of the NMEA messages on each port, as `nmea_parse_asce` and its copy
`nmea_parse_asce_grmci` set them. A write behind an array is a write to a place of its own. -/

namespace InertialSense.Nmea

open Foundation

def nmeaMsgIdCount : Nat := 18

def numComPorts : Nat := 4

/-- A sentence, and up to where the memory it is in can be read. -/
structure Sentence where
  a : Nat → UInt8
  aSize : Nat
  size : Nat

/-- A byte where `ASCII_find_next_field` stops: the null character, a comma or a star. -/
def endsField (byte : UInt8) : Bool := byte = 0 ∨ byte = 0x2C ∨ byte = 0x2A

/-- A field with so many bytes left to read, and where the next one starts. -/
def scanField (a : Nat → UInt8) : Nat → Nat → Option (List UInt8 × Nat)
  | 0, _ => none
  | count + 1, ptr =>
    if endsField (a ptr) then some ([], if a ptr = 0x2C then ptr + 1 else ptr)
    else (scanField a count (ptr + 1)).map fun (field, next) => (a ptr :: field, next)

/-- `ASCII_find_next_field`, with the field it moves over: nothing if the memory ends before. -/
def Sentence.findNextField (s : Sentence) (ptr : Nat) : Option (List UInt8 × Nat) :=
  scanField s.a (s.size - ptr) ptr

def atoi (field : List UInt8) : Int := Int.bmod (strtol 10 (field.map Char.ofUInt8)).1 (2 ^ 32)

def isDigit (byte : UInt8) : Bool := 0x30 ≤ byte ∧ byte ≤ 0x39

/-- The id in the field at a place: a number, or the name of a message. -/
def Sentence.msgId (s : Sentence) (ptr : Nat) (field : List UInt8) : UInt32 :=
  if isDigit (s.a ptr) then UInt32.ofInt (atoi field)
  else UInt32.ofInt (Comm.getNmeaMsgId (fun k => s.a (ptr - 1 + k)) (s.aSize + 1 - ptr))

/-- What a pass of the loop reads. -/
inductive Pass where
  | fault
  | ended
  | pair (id : UInt32) (period : UInt8) (next : Nat)

/-- The fields that a pass of the loop reads. -/
def Sentence.readPair (s : Sentence) (ptr : Nat) : Pass :=
  if s.size ≤ ptr then .fault
  else if s.a ptr = 0x2A then .ended
  else
    match s.findNextField ptr with
    | none => .fault
    | some (field, next) =>
      if s.size ≤ next then .fault
      else if s.a next = 0x2A then .ended
      else
        match s.findNextField next with
        | none => .fault
        | some (period, last) => .pair (s.msgId ptr field) (UInt8.ofInt (atoi period)) last

/-- `rmcNmea_t`, with what is in memory behind its array. -/
@[ext] structure RmcNmea where
  nmeaBits : UInt32
  nmeaPeriod : Nat → UInt8

/-- The part of `rmci_t` and `grmci_t` that is used. -/
@[ext] structure Rmci where
  options : UInt32
  rmcNmea : RmcNmea

/-- The array of the ports, with what is beside it, and `s_gsvMask`. -/
@[ext] structure Streams where
  rmci : Int → Rmci
  constMask : Nat → UInt8

/-- `1 << nmeaId`. What a shift by 32 or more comes to depends on the processor. -/
def nmeaBit (wide : UInt32 → UInt32) (nmeaId : UInt32) : UInt32 :=
  if nmeaId < 32 then 1 <<< nmeaId else wide nmeaId

def RmcNmea.enableStream (wide : UInt32 → UInt32) (rmc : RmcNmea) (nmeaId : UInt32)
    (periodMultiple : UInt8) : RmcNmea where
  nmeaBits :=
    if periodMultiple ≠ 0 then rmc.nmeaBits ||| nmeaBit wide nmeaId
    else rmc.nmeaBits &&& ~~~nmeaBit wide nmeaId
  nmeaPeriod := fun place => if place = nmeaId.toNat then periodMultiple else rmc.nmeaPeriod place

/-- `parseASCE_GSV`: the masks of the constellations, and the id. -/
def parseAsceGsv (constMask : Nat → UInt8) (inId : UInt32) (period : UInt8) :
    (Nat → UInt8) × UInt32 :=
  let constTarget := ((inId &&& 0xF0) >>> 4).toNat
  let freqMask := (inId &&& 0x0F).toUInt8
  if inId < 3840 ∨ 3951 < inId then (constMask, 0)
  else if period = 0 then (constMask, 15)
  else if constTarget = 0 then (fun k => if k ≤ 6 then freqMask else constMask k, 15)
  else if constTarget ∈ [1, 3, 4, 5, 6] then
    (fun k => if k = constTarget then freqMask else constMask k, 15)
  else (constMask, 0)

/-- Whether a stream is set on a port. -/
def selects (pHandle : Int) (options : UInt32) (port : Int) : Bool :=
  let ports := options &&& 0xFF
  if ports = 0 then port = pHandle
  else if ports = 0xFF then 0 ≤ port ∧ port < numComPorts
  else
    port = 0 ∧ ports &&& 1 ≠ 0 ∨ port = 1 ∧ ports &&& 2 ≠ 0 ∨ port = 2 ∧ ports &&& 4 ≠ 0 ∨
      port = 3 ∧ ports &&& 8 ≠ 0

/-- The cases of the ports, with an id and the masks that come with it. -/
def Streams.assign (streams : Streams) (pHandle : Int) (options : UInt32)
    (enable : Rmci → UInt32 → Rmci) (period : UInt8) (found : (Nat → UInt8) × UInt32) : Streams where
  rmci port :=
    if selects pHandle options port then enable (streams.rmci port) found.2 else streams.rmci port
  constMask k :=
    if options &&& 0xFF = 0xFF ∧ found.2 = 15 ∧ period = 0 ∧ k < 9 then 0 else found.1 k

/-- The cases of GSV in `nmea_parse_asce`. -/
def asceId (constMask : Nat → UInt8) (id : UInt32) (period : UInt8) : (Nat → UInt8) × UInt32 :=
  if id = 15 then ((parseAsceGsv constMask 3855 period).1, id)
  else if 3840 ≤ id ∧ id ≤ 3951 then parseAsceGsv constMask id period
  else (constMask, id)

/-- The cases of GSV in `nmea_parse_asce_grmci`. -/
def grmciId (constMask : Nat → UInt8) (id : UInt32) (period : UInt8) : (Nat → UInt8) × UInt32 :=
  if id = 15 then ((parseAsceGsv constMask 15 period).1, id)
  else if 256 ≤ id then parseAsceGsv constMask id period
  else (constMask, id)

section Handlers

variable (wide : UInt32 → UInt32) (pHandle : Int) (options : UInt32)

/-- What `nmea_parse_asce` does with a pair. -/
def ascePair (streams : Streams) (id : UInt32) (period : UInt8) : Streams :=
  streams.assign pHandle options
    (fun rmci id => { rmci with rmcNmea := rmci.rmcNmea.enableStream wide id period })
    period (asceId streams.constMask id period)

/-- What `nmea_parse_asce_grmci` does with a pair. -/
def grmciPair (streams : Streams) (id : UInt32) (period : UInt8) : Streams :=
  streams.assign pHandle options
    (fun rmci id =>
      -- `RMC_OPTIONS_PERSISTENT`
      { options := rmci.options ||| (options &&& 0x200)
        rmcNmea := rmci.rmcNmea.enableStream wide id period })
    period (grmciId streams.constMask id period)

end Handlers

/-- The loop over the pairs: nothing if the memory ends. -/
def Sentence.loop (s : Sentence) (pair : Streams → UInt32 → UInt8 → Streams) :
    Nat → Nat → Streams → Option Streams
  | 0, _, streams => some streams
  | count + 1, ptr, streams =>
    match s.readPair ptr with
    | .fault => none
    | .ended => some streams
    | .pair id period next => s.loop pair count next (pair streams id period)

/-- `nmea_parse_asce`, with what a pair does: the options, and the streams. -/
def Sentence.parse (s : Sentence) (pHandle : Int)
    (pair : UInt32 → Streams → UInt32 → UInt8 → Streams) (streams : Streams) :
    Option (UInt32 × Streams) :=
  if numComPorts ≤ pHandle then some (0, streams)
  else do
    -- the options that are set before, without a comma, are overwritten
    let (field, ptr) ← s.findNextField 6
    let options := UInt32.ofInt (atoi field)
    let streams ← s.loop (pair options) 20 ptr streams
    pure (options, streams)

def nmeaParseAsce (wide : UInt32 → UInt32) (pHandle : Int) (s : Sentence) (rmci : Streams) :
    Option (UInt32 × Streams) :=
  s.parse pHandle (ascePair wide pHandle) rmci

def nmeaParseAsceGrmci (wide : UInt32 → UInt32) (pHandle : Int) (s : Sentence) (rmci : Streams) :
    Option (UInt32 × Streams) :=
  s.parse pHandle (grmciPair wide pHandle) rmci

end InertialSense.Nmea
