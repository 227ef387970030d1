import InertialSense.Bootloader.Dfu

/-! `DFUDevice::updateFirmware` of `ISDFUFirmwareUpdater.cpp`, for a HEX file whose sections
`ihex_load_sections` has returned. Transfers themselves do not fail; the device may stall. What
`ret_dfu` holds before anything is assigned to it is a parameter. -/

namespace InertialSense.Bootloader

open Foundation Ihex

/-- `dfu_error`, as far as an update of a device that answers comes to it. -/
inductive DfuError where
  | none
  | libusb
  | status
  | invalidArg
  | fileNotFound
deriving DecidableEq

/-- `dfu_memory_t`. -/
structure DfuMemory where
  address : UInt64
  pageSize : UInt32

namespace Device

/-- The loop of `waitForState`, which gives up after so many more answers. -/
def waitLoop (required : DfuState) : Nat → Device → Device
  | left, d =>
    let asked := d.getStatus
    let cleared := if asked.failed then asked.clrStatus else asked
    -- the status of a device in the required state is `DFU_STATUS_OK`
    if asked.state = required then cleared
    else
      match left with
      | 0 => cleared
      | left + 1 => waitLoop required left cleared

/-- `waitForState`. It returns what the last `getStatus` has returned, which is no error. -/
def waitForState (d : Device) (required : DfuState) : Device := waitLoop required 6 d

/-- `getState`, with the number of bytes that it returns. -/
def getState (d : Device) : Int × DfuState := (1, d.state)

theorem transfer_pos (d : Device) : 0 < d.transferSize :=
  Nat.lt_of_lt_of_le (by decide) d.commandFits

/-- `download`: the block number after it, and whether all has been sent. -/
def download (d : Device) (wValue : UInt16) (buf : List UInt8) : Device × UInt16 × Bool :=
  let sent := d.dnload wValue.toNat (buf.take d.transferSize)
  if sent.2 then
    let waited := if buf = [] then sent.1 else sent.1.waitForState .dnloadIdle
    if buf.length ≤ d.transferSize then (waited, wValue + 1, true)
    else waited.download (wValue + 1) (buf.drop d.transferSize)
  else (sent.1, wValue, false)
termination_by buf.length
decreasing_by
  have pos := d.transfer_pos
  rw [List.length_drop]
  omega

/-- `setAddress`: the block number after it, and whether it succeeds. -/
def setAddress (d : Device) (address : UInt32) : Device × UInt16 × Bool :=
  let sent := d.download 0 (0x21 :: toBytes 4 address.toNat)
  if sent.2.2 then
    -- 1 is reserved
    let wValue := if sent.2.1 = 1 then sent.2.1 + 1 else sent.2.1
    let asked := sent.1.getStatus
    if asked.failed = false ∧ asked.state = .dnbusy then
      let again := asked.getStatus
      if again.failed = false then
        let aborted := again.abort
        if aborted.2 then (aborted.1.waitForState .dnloadIdle, wValue, true)
        else (aborted.1, wValue, false)
      else (again, wValue, true)
    else (asked, wValue, true)
  else (sent.1, sent.2.1, false)

/-- `prepAndValidateBeforeDownload` for a device that is connected. -/
def prepAndValidateBeforeDownload (d : Device) (address : UInt32) : Device × DfuError :=
  if address &&& stm32PageErrorMask ≠ 0 then (d, .invalidArg)
  else
    let asked := d.getState
    -- success would be 0, so that the state is not looked at
    if asked.1 = 0 ∧ asked.2 ≠ .idle ∧ asked.2 ≠ .dnloadIdle then
      (d.abort.1.waitForState .idle, .none)
    else (d, .none)

/-- `open` of a device that can be claimed. -/
def openDevice (d : Device) : Device × DfuError :=
  let aborted := d.abort
  if aborted.2 then (aborted.1.waitForState .idle, .none) else (aborted.1, .status)

end Device

namespace Update

/-- Where `updateFirmware` is: before the next section that `eraseFlash` gets, or within it at a
byte, and the same of `writeFlash`. -/
inductive Phase where
  | eraseFrom (todo : List ImageSection)
  | erasing (part : ImageSection) (byteInSection : UInt32) (todo : List ImageSection)
  | writeFrom (todo : List ImageSection)
  | writing (part : ImageSection) (byteInSection : UInt32) (todo : List ImageSection)

/-- The loops, the offset that both functions get by reference, and the device. -/
structure State where
  phase : Phase
  offset : UInt32
  device : Device

def pageAddress (mem : DfuMemory) (offset : UInt32) : UInt32 :=
  (mem.address + offset.toUInt64).toUInt32

def firstOffset (image : List ImageSection) (mem : DfuMemory) : UInt32 :=
  match image with
  | [] => 0
  | first :: _ => (first.address.toUInt64 - mem.address).toUInt32

/-- One pass of a loop of `updateFirmware`, `eraseFlash` or `writeFlash`, or its end. -/
def step (image : List ImageSection) (mem : DfuMemory) :
    State → State ⊕ (DfuError × Device)
  | ⟨.eraseFrom [], _, d⟩ => .inl ⟨.writeFrom image, firstOffset image mem, d⟩
  | ⟨.eraseFrom (part :: todo), offset, d⟩ =>
    let ready := d.prepAndValidateBeforeDownload (pageAddress mem offset)
    if ready.2 ≠ .none then .inr (ready.2, ready.1)
    else if part.len = 0 then .inl ⟨.eraseFrom todo, offset, ready.1⟩
    else .inl ⟨.erasing part 0 todo, offset, ready.1⟩
  | ⟨.erasing part byteInSection todo, offset, d⟩ =>
    let erased := d.download 0 (0x41 :: toBytes 4 (pageAddress mem offset).toNat)
    if erased.2.2 then
      let waited := erased.1.waitForState .dnloadIdle
      if byteInSection + mem.pageSize < part.len - 1 then
        .inl ⟨.erasing part (byteInSection + mem.pageSize) todo, offset + mem.pageSize, waited⟩
      else .inl ⟨.eraseFrom todo, offset + mem.pageSize, waited⟩
    else .inr (.libusb, erased.1)
  | ⟨.writeFrom [], _, d⟩ => .inr (.none, d)
  | ⟨.writeFrom (part :: todo), offset, d⟩ =>
    let ready := d.prepAndValidateBeforeDownload (pageAddress mem offset)
    if ready.2 ≠ .none then .inr (ready.2, ready.1)
    else if part.len = 0 then .inl ⟨.writeFrom todo, offset, ready.1⟩
    else .inl ⟨.writing part 0 todo, offset, ready.1⟩
  | ⟨.writing part byteInSection todo, offset, d⟩ =>
    let payloadLen := min mem.pageSize (part.len - byteInSection)
    let pointed := d.setAddress (pageAddress mem offset)
    if pointed.2.2 then
      let payload := (part.image.drop byteInSection.toNat).take payloadLen.toNat
      let written := pointed.1.download pointed.2.1 payload
      if written.2.2 then
        let waited := written.1.waitForState .dnloadIdle
        if byteInSection + payloadLen < part.len - 1 then
          .inl ⟨.writing part (byteInSection + payloadLen) todo, offset + mem.pageSize, waited⟩
        else .inl ⟨.writeFrom todo, offset + mem.pageSize, waited⟩
      else .inr (.libusb, written.1)
    else .inr (.libusb, pointed.1)

/-- The sections where they are meant to be: a base address moves the first one there, and the
others with it. -/
def shifted (sections : List ImageSection) (baseAddress : UInt64) : List ImageSection :=
  match sections with
  | [] => []
  | first :: _ =>
    if baseAddress ≠ 0 then
      let baseOffset := baseAddress - first.address.toUInt64
      sections.map fun part =>
        { part with address := (part.address.toUInt64 + baseOffset).toUInt32 }
    else sections

/-- `updateFirmware` from where the file is read, with the device as it is then and `ret_dfu`. -/
def UpdateOpened (sections : List ImageSection) (baseAddress : UInt64) (mem : DfuMemory)
    (d : Device) (result : DfuError) (answer : DfuError × Device) : Prop :=
  if sections = [] then answer = (.fileNotFound, d)
  else
    let image := shifted sections baseAddress
    let aborted := d.abort
    if aborted.2 then
      Ends (fun state next => next = step image mem state)
        ⟨.eraseFrom image, firstOffset image mem, aborted.1⟩ answer
    else answer = (result, aborted.1)

/-- `updateFirmware` returns this. -/
def UpdateFirmware (sections : List ImageSection) (baseAddress : UInt64) (mem : DfuMemory)
    (connected : Bool) (leftover : DfuError) (d : Device) (answer : DfuError × Device) : Prop :=
  if connected then UpdateOpened sections baseAddress mem d leftover answer
  else
    let opened := d.openDevice
    if opened.2 ≠ .none then answer = (opened.2, opened.1)
    else UpdateOpened sections baseAddress mem opened.1 opened.2 answer

end Update

end InertialSense.Bootloader
