import InertialSense.Nmea.Fields
import InertialSense.Nmea.Printing

/-! `$INFO`: `nmea_dev_info` prints what a device is, and `nmea_parse_info` reads it back. -/

namespace InertialSense.Nmea

open Foundation

/-! ### The device -/

/-- A version of four numbers. -/
structure Ver4u8 where
  v0 : UInt8
  v1 : UInt8
  v2 : UInt8
  v3 : UInt8
deriving DecidableEq

def devinfoManufacturerStrlen : Nat := 24

def devinfoAddinfoStrlen : Nat := 24

/-- `dev_info_t`. -/
structure DevInfo where
  reserved : UInt16
  hardwareType : UInt8
  serialNumber : UInt32
  hardwareVer : Ver4u8
  firmwareVer : Ver4u8
  buildNumber : UInt32
  protocolVer : Ver4u8
  repoRevision : UInt32
  manufacturer : Nat → UInt8
  buildType : UInt8
  buildYear : UInt8
  buildMonth : UInt8
  buildDay : UInt8
  buildHour : UInt8
  buildMinute : UInt8
  buildSecond : UInt8
  buildMillisecond : UInt8
  addInfo : Nat → UInt8

/-- The string in an array. -/
def cString (size : Nat) (chars : Nat → UInt8) : List UInt8 := (window chars 0 size).takeWhile (· ≠ 0)

def isHardwareTypeUnknown : UInt8 := 0

def DevInfo.populateMissingHardware (info : DevInfo) : DevInfo :=
  if info.hardwareType ≠ isHardwareTypeUnknown then info
  else if info.buildYear.toNat + 2000 ≤ 2024 then
    match info.hardwareVer.v0 with
    | 2 => { info with hardwareType := 2 }
    | 3 => { info with hardwareType := 1 }
    | 5 => { info with hardwareType := 3 }
    | _ => info
  else info

/-! ### The sentence -/

/-- `%d.%d.%d.%d`. -/
def Ver4u8.text (v : Ver4u8) : List Char :=
  decimal v.v0.toNat ++ '.' :: (decimal v.v1.toNat ++ '.' :: (decimal v.v2.toNat ++ '.' :: decimal v.v3.toNat))

/-- `%d` of a `uint32_t` that is made an `int`. -/
def intText (value : UInt32) : List Char := decimal (Int.bmod value.toNat (2 ^ 32))

/-- `%04d-%02d-%02d`. -/
def DevInfo.dateText (info : DevInfo) : List Char :=
  padded 4 10 (info.buildYear.toNat + 2000) ++ '-' :: (padded 2 10 info.buildMonth.toNat ++
    '-' :: padded 2 10 info.buildDay.toNat)

/-- `%02d:%02d:%02d.%02d`. -/
def DevInfo.timeText (info : DevInfo) : List Char :=
  padded 2 10 info.buildHour.toNat ++ ':' :: (padded 2 10 info.buildMinute.toNat ++
    ':' :: (padded 2 10 info.buildSecond.toNat ++ '.' :: padded 2 10 info.buildMillisecond.toNat))

/-- The fields of `$INFO` before the build type. -/
def DevInfo.fields (info : DevInfo) : List (List Char) :=
  [intText info.serialNumber, info.hardwareVer.text, info.firmwareVer.text,
    intText info.buildNumber, info.protocolVer.text, intText info.repoRevision,
    (cString devinfoManufacturerStrlen info.manufacturer).map Char.ofUInt8, info.dateText, info.timeText,
    (cString devinfoAddinfoStrlen info.addInfo).map Char.ofUInt8, decimal info.hardwareType.toNat,
    decimal info.reserved.toNat]

/-- What `nmea_dev_info` prints before the footer. -/
def DevInfo.text (info : DevInfo) : List Char :=
  ['$', 'I', 'N', 'F', 'O'] ++ info.fields.flatMap (',' :: ·) ++
    [',', Char.ofUInt8 (if info.buildType ≠ 0 then info.buildType else 0x20)]

/-- `nmea_dev_info`: the buffer, and the length that is returned. -/
def nmeaDevInfo (a : Nat → UInt8) (aSize : Nat) (info : DevInfo) : (Nat → UInt8) × Nat :=
  let (a, n) := ssnprintf a 0 aSize info.text
  nmeaSprintFooter a aSize n

/-- The sentence of a device. -/
def DevInfo.draft (info : DevInfo) : Draft := ⟨.named info.text, []⟩

theorem nmeaDevInfo_eq (a : Nat → UInt8) (aSize : Nat) (info : DevInfo) :
    nmeaDevInfo a aSize info =
      ((printDrafts aSize a [info.draft]).a, (printDrafts aSize a [info.draft]).n) := by
  let printed := Printer.text aSize ⟨a, 0, 0, []⟩ info.text
  have length : printed.n = (ssnprintf a 0 aSize info.text).2 := Nat.zero_add _
  calc nmeaDevInfo a aSize info
      = nmeaSprintFooter printed.a aSize (ssnprintf a 0 aSize info.text).2 := rfl
    _ = nmeaSprintFooter printed.a aSize printed.n := by rw [length]
    _ = _ := (footer_eq aSize rfl).symm

/-! ### Reading it -/

/-- What a variable holds after `sscanf`, which may not have assigned it. -/
def assigned (stale : Nat → Int) (values : List Int) (k : Nat) : Int := values[k]?.getD (stale k)

def asciiToVer4u8 (stale : Nat → Int) (field : List UInt8) : Ver4u8 :=
  let v := assigned stale (sscanf
    [.unsigned none, .character '.', .unsigned none, .character '.', .unsigned none, .character '.',
      .unsigned none] (field.map Char.ofUInt8))
  ⟨UInt8.ofInt (v 0), UInt8.ofInt (v 1), UInt8.ofInt (v 2), UInt8.ofInt (v 3)⟩

def asciiToCharArray (dst : Nat → UInt8) (field : List UInt8) (span maxLen : Nat) : Nat → UInt8 :=
  store dst 0 (field.take (min maxLen span - 1) ++ [0])

/-- `nmea_parse_info`: what it leaves, or nothing if it reads behind the sentence. -/
def nmeaParseInfo (stale : Nat → Int) (s : Sentence) (info : DevInfo) : Option DevInfo :=
  match s.readFields 12 6 with
  | some ([(serial, _), (hardware, _), (firmware, _), (build, _), (protocol, _), (revision, _),
      (maker, makerSpan), (date, _), (time, _), (added, addedSpan), (type, _), (reserved, _)], ptr) =>
    if s.size ≤ ptr then none
    else
      let day := assigned stale (sscanf
        [.signed (some 4), .character '-', .unsigned (some 2), .character '-', .unsigned (some 2)]
        (date.map Char.ofUInt8))
      let year := (day 0 % 2 ^ 32).toNat
      let clock := assigned stale (sscanf
        [.unsigned (some 2), .character ':', .unsigned (some 2), .character ':', .unsigned (some 3),
          .character '.', .unsigned (some 2)] (time.map Char.ofUInt8))
      some (DevInfo.populateMissingHardware
        { serialNumber := UInt32.ofInt (atoi serial)
          hardwareVer := asciiToVer4u8 stale hardware
          firmwareVer := asciiToVer4u8 stale firmware
          buildNumber := UInt32.ofInt (atoi build)
          protocolVer := asciiToVer4u8 stale protocol
          repoRevision := UInt32.ofInt (atoi revision)
          manufacturer := asciiToCharArray info.manufacturer maker makerSpan devinfoManufacturerStrlen
          buildYear := UInt8.ofNat (if year ≥ 2000 then year - 2000 else year)
          buildMonth := UInt8.ofInt (day 1)
          buildDay := UInt8.ofInt (day 2)
          buildHour := UInt8.ofInt (clock 0)
          buildMinute := UInt8.ofInt (clock 1)
          buildSecond := UInt8.ofInt (clock 2)
          buildMillisecond := UInt8.ofInt (clock 3)
          addInfo := asciiToCharArray info.addInfo added addedSpan devinfoAddinfoStrlen
          hardwareType := UInt8.ofInt (atoi type)
          reserved := UInt16.ofInt (atoi reserved)
          buildType := if s.a ptr = 0 then 0x20 else s.a ptr })
  | _ => none

end InertialSense.Nmea
