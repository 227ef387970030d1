import InertialSense.Bootloader.DfuUpdate
import InertialSense.FirmwareUpdate.Commands
import InertialSense.Foundation.Strtol

/-! The memory segments of a DFU device, which `DFUDevice::fetchDeviceInfo` decodes from the names of its
alternate settings. -/

namespace InertialSense.Bootloader.MemoryPages

open Foundation
open FirmwareUpdate (pieces)

/-- What is not there when it is read or written. -/
inductive Missing where
  | descriptorByte
  | segment
  | field
  | character
  | end
deriving DecidableEq

/-- The rest of `dfu_memory_t`. -/
structure Segment extends DfuMemory where
  pages : UInt16
  pageType : UInt8

/-- An alternate setting, and what the device answers when it is asked for the functional descriptor, for
the languages and for the name. There is no answer if that fails. -/
structure AltSetting where
  bInterfaceClass : UInt8
  bInterfaceSubClass : UInt8
  bInterfaceProtocol : UInt8
  iInterface : UInt8
  extra : List UInt8
  functional : Option (List UInt8)
  languages : Option (List UInt8)
  name : Option (List UInt8)

def usbDescriptorDfu : UInt8 := 0x21

def libusbDtString : UInt8 := 3

def maxDescStrLen : Nat := 253

/-- The loop of `findDescriptor`, which has no more than so many passes left. -/
def findDescriptorLoop (descList : List UInt8) (descType : UInt8) (resSize : Nat) :
    Nat → Nat → Except Missing (Option (List UInt8))
  | 0, _ => .error .end
  | passes + 1, p =>
    if p + 1 < descList.length then
      match descList[p]?, descList[p + 1]? with
      | some first, some type =>
        if first = 0 then .ok none
        else if type = descType then
          let desclen := if resSize < first.toNat then resSize else first.toNat
          let desclen := if descList.length < p + desclen then descList.length - p else desclen
          if descList.length < p + desclen then .error .descriptorByte
          else .ok (some ((descList.drop p).take desclen))
        else findDescriptorLoop descList descType resSize passes (p + first.toNat)
      | _, _ => .error .descriptorByte
    else .ok none

/-- `findDescriptor`, with what it copies to `res_buf`, or nothing if it returns -1. -/
def findDescriptor (descList : List UInt8) (descType : UInt8) (resSize : Nat) :
    Except Missing (Option (List UInt8)) :=
  if descList.length < 2 then .ok none
  else findDescriptorLoop descList descType resSize (descList.length + 1) 0

def written (bytes memory : List UInt8) : List UInt8 := bytes ++ memory.drop bytes.length

def bLength (funcDescriptor : List UInt8) : UInt8 := funcDescriptor.getD 0 0

def bcdDfuVersion (funcDescriptor : List UInt8) : Nat :=
  (funcDescriptor.getD 7 0).toNat + 256 * (funcDescriptor.getD 8 0).toNat

/-- `funcDescriptor` of a setting, before its version is looked at. -/
def AltSetting.funcDescriptor (intf : AltSetting) : Except Missing (List UInt8) :=
  let cleared := List.replicate 9 0
  match findDescriptor intf.extra usbDescriptorDfu 9 with
  | .error missing => .error missing
  | .ok (some found) => .ok (written found cleared)
  | .ok none =>
    match intf.functional with
    | some answer => .ok (written (answer.take 9) cleared)
    -- a fake version 1.0
    | none => .ok [7, 0, 0, 0, 0, 0, 0, 0x00, 0x01]

/-- The version that is used: that of a short descriptor is 1.0. -/
def versionOf (funcDescriptor : List UInt8) : Nat :=
  if bLength funcDescriptor < 9 then 0x0100 else bcdDfuVersion funcDescriptor

def AltSetting.dfuMode (intf : AltSetting) (idVendor idProduct : UInt16) (version : Nat) : Bool :=
  intf.bInterfaceProtocol = 2 ∨ (version = 0x011a ∧ intf.bInterfaceProtocol = 0) ∨
    (idVendor = 0x1fc9 ∧ idProduct = 0x000c ∧ intf.bInterfaceProtocol = 1)

/-- Characters of 16 bits as characters of 8 bits, up to an incomplete one. -/
def narrowed : List UInt8 → List UInt8
  | low :: high :: rest => (if high ≠ 0 then 63 else low) :: narrowed rest
  | _ => []

/-- `get_string_descriptor_ascii`, with what it leaves in `data`, or nothing if it returns an error. -/
def AltSetting.getStringDescriptorAscii (intf : AltSetting) (length : Nat) : Option (List UInt8) :=
  match intf.languages with
  | none => none
  | some languages =>
    if languages.length < 4 ∨ languages.getD 0 0 < 4 ∨ languages.getD 1 0 ≠ libusbDtString then none
    else
      match intf.name with
      | none => none
      | some answer =>
        let tbuf := written answer languages
        if tbuf.getD 1 0 ≠ libusbDtString then none
        else
          let count := min (tbuf.getD 0 0).toNat answer.length
          some ((narrowed ((tbuf.take count).drop 2)).take length)

/-- A C string that begins here. -/
def textOf (data : List UInt8) : List Char := (data.takeWhile (· ≠ 0)).map Char.ofUInt8

/-- What `strtol` leaves in `endptr`, with base 10. -/
def decimalEnd (text : List Char) : List Char :=
  let field := (signOf (text.dropWhile isSpace)).2
  if field.takeWhile (isDigitOf 10) = [] then text else field.dropWhile (isDigitOf 10)

/-- `pageSize` in its unit. -/
def scaled (unit : Char) (pageSize : UInt32) : UInt32 :=
  if unit = 'M' then pageSize * (1024 * 1024) else if unit = 'K' then pageSize * 1024 else pageSize

/-- The part of `decodeMemoryPageDescriptor` that stores an address and pages. -/
def decodePair (address pair : List Char) : Except Missing Segment :=
  match pieces '*' pair with
  | pages :: pageSize :: _ =>
    match decimalEnd pageSize with
    -- `pageFlags[1]` is behind the end of the text
    | [] => .error .character
    | unit :: pageFlags =>
      .ok
        { address := UInt64.ofInt (strtol 16 address).1
          pages := UInt16.ofInt (strtol 10 pages).1
          pageSize := scaled unit (UInt32.ofInt (strtol 10 pageSize).1)
          pageType := UInt8.ofNat (pageFlags.headD '\x00').toNat }
  | _ => .error .field

/-- `decodeMemoryPageDescriptor`, with the segment and what it returns. There may be no such segment. -/
def decodeMemoryPageDescriptor (altSetting : List Char) (segment : Option Segment) :
    Except Missing (Option Segment × Int) :=
  if altSetting.headD '\x00' ≠ '@' then .ok (segment, -1)
  else
    match pieces '/' altSetting, segment with
    | [], _ => .error .field
    | [_], _ => .ok (segment, 0)
    -- the address is stored before the second field of the pair is looked for
    | _ :: _ :: _, none => .error .segment
    | [_, _], some _ => .error .field
    | _ :: address :: pair :: _, some _ => (decodePair address pair).map fun decoded => (some decoded, 0)

/-- `dfuDescriptors` and `segments`. -/
structure DeviceInfo where
  dfuDescriptors : List (List Char)
  segments : Vector Segment 4

/-- What `fetchDeviceInfo` does with an alternate setting. -/
def fetchSetting (idVendor idProduct : UInt16) (info : DeviceInfo) (intf : AltSetting) :
    Except Missing DeviceInfo :=
  if intf.bInterfaceClass ≠ 0xfe ∨ intf.bInterfaceSubClass ≠ 1 then .ok info
  else
    match intf.funcDescriptor with
    | .error missing => .error missing
    | .ok funcDescriptor =>
      if intf.dfuMode idVendor idProduct (versionOf funcDescriptor) ∧ intf.iInterface ≠ 0 then
        match intf.getStringDescriptorAscii maxDescStrLen with
        | none | some [] => .ok { info with dfuDescriptors := info.dfuDescriptors ++ [[]] }
        | some altName =>
          let lastPos := info.dfuDescriptors.length
          match decodeMemoryPageDescriptor (textOf altName) info.segments[lastPos]? with
          | .error missing => .error missing
          | .ok (segment, _) =>
            .ok
              { dfuDescriptors := info.dfuDescriptors ++ [textOf altName]
                segments := segment.elim info.segments (info.segments.setIfInBounds lastPos) }
      else .ok info

/-- The loops of `fetchDeviceInfo` over the alternate settings of all interfaces and configurations. -/
def fetchDeviceInfo (idVendor idProduct : UInt16) (settings : List AltSetting) (info : DeviceInfo) :
    Except Missing DeviceInfo :=
  settings.foldlM (fetchSetting idVendor idProduct) info

end InertialSense.Bootloader.MemoryPages
