import InertialSense.Bootloader.DfuSe
import InertialSense.Foundation.Loop
import InertialSense.Ihex.Model

/-! `cISBootloaderDFU::download_image` of `ISBootloaderDFU.cpp`, on the sections that
`ihex_load_sections` has returned. Transfers themselves do not fail; the device may stall. -/

namespace InertialSense.Bootloader

open Foundation Ihex

/-- `is_operation_result`. -/
inductive OperationResult where
  | ok
  | error
deriving DecidableEq

def stm32PageSize : UInt32 := 0x800

def stm32PageErrorMask : UInt32 := 0x7FF

def maxNumIhexSections : Nat := 1024

namespace Device

/-- The loop of `dfu_wait_for_state`, which gives up after so many more answers. -/
def dfuWaitLoop (required : DfuState) : Nat → Device → Device × Bool
  | left, d =>
    if d.failed = false ∧ d.state = required then (d, true)
    else
      match left with
      | 0 => ((if d.failed then d.clrStatus else d).getStatus, false)
      | left + 1 => dfuWaitLoop required left (if d.failed then d.clrStatus else d).getStatus

/-- `dfu_wait_for_state`, and whether it returns `DFU_ERROR_NONE`. -/
def dfuWaitForState (d : Device) (required : DfuState) : Device × Bool :=
  dfuWaitLoop required 5 d.getStatus

/-- `dfu_DNLOAD`, and `dfu_wait_for_state` for the end of the operation. The block number is a
`uint8_t`. -/
def dfuDnload (d : Device) (wValue : UInt8) (data : List UInt8) : Device × Bool :=
  let sent := d.dnload wValue.toNat data
  if sent.2 then sent.1.dfuWaitForState .dnloadIdle else sent

def dfuSetAddressPointer (d : Device) (address : UInt32) : Device × Bool :=
  d.dfuDnload 0 (0x21 :: toBytes 4 address.toNat)

end Device

def payloadAt (part : ImageSection) (byteInSection payloadLen : UInt32) : List UInt8 :=
  (part.image.drop byteInSection.toNat).take payloadLen.toNat ++
    List.replicate (stm32PageSize.toNat - payloadLen.toNat) 0xFF

namespace Dfu

/-- Where `download_image` is: before the next section of its loop that erases, or within it at a
byte, and the same of the loop that writes. -/
inductive Phase where
  | eraseFrom (todo : List ImageSection)
  | erasing (part : ImageSection) (byteInSection : UInt32) (todo : List ImageSection)
  | writeFrom (todo : List ImageSection)
  | writing (part : ImageSection) (byteInSection : UInt32) (todo : List ImageSection)

/-- One pass of a loop of `download_image`, or its end. -/
def step (image : List ImageSection) :
    Phase × Device → (Phase × Device) ⊕ (OperationResult × Device)
  | (.eraseFrom [], d) => .inl (.writeFrom image, d)
  | (.eraseFrom (part :: todo), d) =>
    -- the page is not aligned, or the image is null
    if part.address &&& stm32PageErrorMask ≠ 0 then .inl (.eraseFrom todo, d)
    else if part.len = 0 then .inl (.eraseFrom todo, d)
    else .inl (.erasing part 0 todo, d)
  | (.erasing part byteInSection todo, d) =>
    let pageAddress := byteInSection + part.address
    let erased := d.dfuDnload 0 (0x41 :: toBytes 4 pageAddress.toNat)
    if erased.2 then
      if byteInSection + stm32PageSize < part.len - 1 then
        .inl (.erasing part (byteInSection + stm32PageSize) todo, erased.1)
      else .inl (.eraseFrom todo, erased.1)
    else .inr (.error, erased.1)
  | (.writeFrom [], d) =>
    let aborted := d.abort
    if aborted.2 then
      let waited := aborted.1.dfuWaitForState .idle
      .inr (if waited.2 then .ok else .error, waited.1)
    else .inr (.error, aborted.1)
  | (.writeFrom (part :: todo), d) =>
    -- whether this wait succeeds is not looked at
    let waited := d.dfuWaitForState .dnloadIdle
    let pointed := waited.1.dfuSetAddressPointer part.address
    if pointed.2 then .inl (.writing part 0 todo, pointed.1) else .inr (.error, pointed.1)
  | (.writing part byteInSection todo, d) =>
    let payloadLen := min stm32PageSize (part.len - byteInSection)
    let blockNum := (byteInSection / stm32PageSize).toUInt8
    let written := d.dfuDnload (blockNum + 2) (payloadAt part byteInSection payloadLen)
    if written.2 then
      if byteInSection + payloadLen < part.len - 1 then
        .inl (.writing part (byteInSection + payloadLen) todo, written.1)
      else .inl (.writeFrom todo, written.1)
    else .inr (.error, written.1)

/-- The sections where they are written: a first address of 0 means the start of the flash
memory. -/
def placed (sections : List ImageSection) : List ImageSection :=
  match sections with
  | [] => []
  | first :: _ =>
    if first.address = 0 then
      sections.map fun part => { part with address := part.address + 0x08000000 }
    else sections

/-- `download_image` up to its loops. -/
def prepare (sections : List ImageSection) (d : Device) :
    (Phase × Device) ⊕ (OperationResult × Device) :=
  let aborted := d.abort
  if aborted.2 then
    let waited := aborted.1.dfuWaitForState .idle
    if waited.2 then
      if sections = [] then .inr (.error, waited.1)
      else .inl (.eraseFrom (placed sections), waited.1)
    else .inr (.error, waited.1)
  else .inr (.error, aborted.1)

/-- `download_image` returns this. -/
def DownloadImage (sections : List ImageSection) (d : Device)
    (answer : OperationResult × Device) : Prop :=
  match prepare sections d with
  | .inl state => Ends (fun state next => next = step (placed sections) state) state answer
  | .inr answer' => answer = answer'

end Dfu

end InertialSense.Bootloader
