import InertialSense.DataLog.DeviceLog
import InertialSense.FlashConfig.IoConfig

/-! The flash configuration of a device in `InertialSense.cpp`: its local copy, the checksum that
the device reports, and the calls that change and compare them. -/

namespace InertialSense.FlashConfig

open Foundation DataLog

def didSysParams : UInt8 := 10

def didFlashConfig : UInt8 := 12

/-- `sizeof(sys_params_t)`. -/
def sysParamsSize : Nat := 64

/-- `offsetof(sys_params_t, flashCfgChecksum)`. -/
def flashCfgChecksumOffset : Nat := 44

/-- `sizeof(nvm_flash_cfg_t)`. -/
def flashCfgSize : Nat := 288

/-- `offsetof(nvm_flash_cfg_t, checksum)`. -/
def checksumOffset : Nat := 4

/-- `offsetof(nvm_flash_cfg_t, ioConfig)`. -/
def ioConfigOffset : Nat := 132

/-- `offsetof(nvm_flash_cfg_t, platformConfig)`. -/
def platformConfigOffset : Nat := 136

def platformCfgUpdateIoConfig : UInt32 := 0x01000000

def syncFlashCfgCheckPeriodMs : UInt32 := 200

/-- A structure as it lies in memory. -/
abbrev Struct : Type := Nat → UInt8

/-- A `uint32_t` field is set. -/
def setWord (struct : Struct) (place : Nat) (value : UInt32) : Struct :=
  store struct place (toBytes 4 value.toNat)

/-- `checksum32`, from this address on. -/
def checksum32 (mem : Nat → UInt8) (start : Nat) (count : Int) : UInt32 :=
  if count < 1 ∨ count % 4 ≠ 0 then 0
  else
    let words := (List.range (count / 4).toNat).map fun k => wordAt mem (start + 4 * k)
    words.foldl (· ^^^ ·) 0

/-- `flashChecksum32`: the size and the checksum are left out. -/
def flashChecksum32 (mem : Nat → UInt8) (size : Int) : UInt32 := checksum32 mem 8 (size - 8)

/-- `copyDataPToStructP`: nothing if the data does not fit. -/
def copyDataPToStructP (struct : Struct) (data : Record) (maxsize : Nat) : Option Struct :=
  if data.hdr.size.toNat + data.hdr.offset.toNat ≤ maxsize then
    some (store struct data.hdr.offset.toNat data.data)
  else none

def dataOverlap (dstOffset dstSize : Nat) (src : Record) : Bool :=
  max dstOffset src.hdr.offset.toNat <
    min (dstOffset + dstSize) (src.hdr.offset.toNat + src.hdr.size.toNat)

/-- What an `ISDevice` keeps of its flash configuration, and `m_syncCheckTimeMs`. -/
structure Sync where
  sysParams : Struct
  flashCfg : Struct
  flashCfgUploadTimeMs : UInt32
  flashCfgUploadChecksum : UInt32
  syncCheckTimeMs : UInt32

/-- `ISDevice()`. -/
def freshDevice : Sync :=
  { sysParams := fun _ => 0
    flashCfg := fun _ => 0
    flashCfgUploadTimeMs := 0
    flashCfgUploadChecksum := 0
    syncCheckTimeMs := 0 }

/-- A message to the device: `comManagerGetData` for the flash configuration, or
`comManagerSendData` with a part of it. -/
inductive Request where
  | getData
  | sendData (offset : Nat) (data : List UInt8)
deriving DecidableEq

/-- The clock and the port while `SetFlashConfig` sends the part that starts at a word. -/
structure Upload where
  currentTimeMs : Nat → UInt32
  fails : Nat → Bool

namespace Sync

/-- `sysParams.flashCfgChecksum`. -/
def reported (s : Sync) : UInt32 := wordAt s.sysParams flashCfgChecksumOffset

def checksum (s : Sync) : UInt32 := wordAt s.flashCfg checksumOffset

/-- `sysParams.flashCfgChecksum = ..`. -/
def setReported (s : Sync) (value : UInt32) : Sync :=
  { s with sysParams := setWord s.sysParams flashCfgChecksumOffset value }

def flashConfigUploadFailure (s : Sync) : Bool :=
  s.flashCfgUploadChecksum ≠ 0 ∧ s.flashCfgUploadChecksum ≠ s.reported

def flashConfigSynced (s : Sync) : Bool :=
  s.checksum = s.reported ∧ s.flashCfgUploadTimeMs = 0 ∧ ¬s.flashConfigUploadFailure

/-- The upload in progress is given time: the reported checksum does not count. -/
def pauseSync (s : Sync) (timeMs : UInt32) : Sync :=
  if s.flashCfgUploadTimeMs ≠ 0 ∧ timeMs - s.flashCfgUploadTimeMs < syncFlashCfgCheckPeriodMs then
    s.setReported 0
  else s

/-- `SyncFlashConfig` for one device. -/
def syncFlashConfig (s : Sync) (timeMs : UInt32) : Sync × List Request :=
  if timeMs - s.syncCheckTimeMs < syncFlashCfgCheckPeriodMs then (s, [])
  else
    let s := { s with syncCheckTimeMs := timeMs }.pauseSync timeMs
    if s.reported ≠ 0 then
      if s.reported = s.checksum then ({ s with flashCfgUploadTimeMs := 0 }, [])
      else (s, [.getData])
    else (s, [])

end Sync

def updateFlashConfigChecksum (flashCfg : Struct) : Struct :=
  let platformConfig := wordAt flashCfg platformConfigOffset
  let plain := platformConfig &&& ~~~platformCfgUpdateIoConfig
  let flashCfg := setWord flashCfg platformConfigOffset plain
  let flashCfg :=
    if platformConfig &&& platformCfgUpdateIoConfig ≠ 0 then
      setWord flashCfg ioConfigOffset
        (imxPlatformConfigToFlashCfgIoConfig (wordAt flashCfg ioConfigOffset) plain)
    else flashCfg
  setWord flashCfg checksumOffset (flashChecksum32 flashCfg flashCfgSize)

/-- How many words a configuration has. -/
def flashCfgWords : Nat := flashCfgSize / 4

def mismatchEnd (newCfg curCfg : Struct) (i : Nat) : Nat :=
  if i < flashCfgWords ∧ wordAt newCfg (4 * i) ≠ wordAt curCfg (4 * i) then
    mismatchEnd newCfg curCfg (i + 1)
  else i
termination_by flashCfgWords - i

theorem le_mismatchEnd (newCfg curCfg : Struct) (i : Nat) : i ≤ mismatchEnd newCfg curCfg i := by
  induction more : flashCfgWords - i generalizing i with
  | zero =>
    rw [mismatchEnd, if_neg (by omega)]
  | succ more ih =>
    rw [mismatchEnd]
    split
    · exact (Nat.le_succ i).trans (ih (i + 1) (by omega))
    · exact Nat.le_refl i

/-- What the loop of `SetFlashConfig` has done so far. -/
structure Uploading where
  flashCfg : Struct
  uploadTimeMs : UInt32
  failure : Bool
  sent : List Request

/-- One part is sent, with the bit that was taken off the platform configuration. -/
def Uploading.send (u : Uploading) (upload : Upload) (updateIoConfig : Bool) (head tail : Nat) :
    Uploading :=
  let platformConfig := wordAt u.flashCfg platformConfigOffset
  let flashCfg :=
    if updateIoConfig ∧ 4 * head ≤ platformConfigOffset ∧ platformConfigOffset < 4 * tail then
      setWord u.flashCfg platformConfigOffset (platformConfig ||| platformCfgUpdateIoConfig)
    else u.flashCfg
  { flashCfg
    uploadTimeMs := upload.currentTimeMs head
    failure := u.failure || upload.fails head
    sent := u.sent ++ [.sendData (4 * head) (window flashCfg (4 * head) (4 * tail - 4 * head))] }

/-- The loop of `SetFlashConfig`, from this word on. -/
def uploadMismatches (upload : Upload) (updateIoConfig : Bool) (curCfg : Struct) (u : Uploading)
    (i : Nat) : Uploading :=
  if i < flashCfgWords then
    if wordAt u.flashCfg (4 * i) ≠ wordAt curCfg (4 * i) then
      let tail := mismatchEnd u.flashCfg curCfg i
      uploadMismatches upload updateIoConfig curCfg (u.send upload updateIoConfig i tail) (tail + 1)
    else uploadMismatches upload updateIoConfig curCfg u (i + 1)
  else u
termination_by flashCfgWords - i
decreasing_by
  · have behind := le_mismatchEnd u.flashCfg curCfg i
    omega
  · omega

namespace Sync

/-- `SetFlashConfig`: the configuration of the caller, which is changed too, becomes the local
copy. -/
def setFlashConfig (s : Sync) (upload : Upload) (flashCfg : Struct) :
    Sync × Struct × Bool × List Request :=
  let curCfg := setWord s.flashCfg checksumOffset (flashChecksum32 s.flashCfg flashCfgSize)
  let platformConfig := wordAt flashCfg platformConfigOffset
  let updateIoConfig := platformConfig &&& platformCfgUpdateIoConfig ≠ 0
  let u := uploadMismatches upload updateIoConfig curCfg
    { flashCfg := setWord flashCfg platformConfigOffset
        (platformConfig &&& ~~~platformCfgUpdateIoConfig)
      uploadTimeMs := s.flashCfgUploadTimeMs
      failure := false
      sent := [] } 2
  let flashCfg := updateFlashConfigChecksum u.flashCfg
  ({ s with
      flashCfg
      flashCfgUploadTimeMs := u.uploadTimeMs
      flashCfgUploadChecksum :=
        if u.uploadTimeMs ≠ 0 then wordAt flashCfg checksumOffset else s.flashCfgUploadChecksum },
    flashCfg, !u.failure, u.sent)

/-- `ProcessRxData`, as far as the flash configuration is concerned. -/
def processRxData (s : Sync) (data : Record) : Sync :=
  if data.hdr.size = 0 then s
  else if data.hdr.id = didSysParams then
    { s with sysParams := (copyDataPToStructP s.sysParams data sysParamsSize).getD s.sysParams }
  else if data.hdr.id = didFlashConfig then
    let s := { s with
      flashCfg := (copyDataPToStructP s.flashCfg data flashCfgSize).getD s.flashCfg }
    if dataOverlap checksumOffset 4 data then s.setReported s.checksum else s
  else s

end Sync

/-- What happens to a device. -/
inductive Event where
  | setFlashConfig (upload : Upload) (flashCfg : Struct)
  | syncFlashConfig (timeMs : UInt32)
  | processRxData (data : Record)

namespace Sync

def step (s : Sync) : Event → Sync × List Request
  | .setFlashConfig upload flashCfg =>
    let set := s.setFlashConfig upload flashCfg
    (set.1, set.2.2.2)
  | .syncFlashConfig timeMs => s.syncFlashConfig timeMs
  | .processRxData data => (s.processRxData data, [])

end Sync

end InertialSense.FlashConfig
