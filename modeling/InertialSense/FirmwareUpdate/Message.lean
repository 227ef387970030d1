import InertialSense.Md5.Model

/-! The messages of `protocol/FirmwareUpdate.h`. -/

namespace InertialSense.FirmwareUpdate

open Md5 (Hash)

/-- `update_status_e`. -/
inductive UpdateStatus where
  | finished
  | finalizing
  | inProgress
  | ready
  | initializing
  | notStarted
  | errInvalidSession
  | errInvalidSlot
  | errNotAllowed
  | errNotEnoughMemory
  | errOlderFirmware
  | errMaxChunkSize
  | errTimeout
  | errChecksumMismatch
  | errComms
  | errNotSupported
  | errFlashWriteFailure
  | errFlashOpenFailure
  | errFlashInvalid
  | errUpdaterClosed
  | errInvalidImage
  | errInvalidChunk
  | errInvalidTarget
  | errUnknown
deriving DecidableEq

/-- The number the enumeration gives a status; the code compares statuses by it. -/
def UpdateStatus.value : UpdateStatus → Int
  | .finished => 5
  | .finalizing => 4
  | .inProgress => 3
  | .ready => 2
  | .initializing => 1
  | .notStarted => 0
  | .errInvalidSession => -1
  | .errInvalidSlot => -2
  | .errNotAllowed => -3
  | .errNotEnoughMemory => -4
  | .errOlderFirmware => -5
  | .errMaxChunkSize => -6
  | .errTimeout => -7
  | .errChecksumMismatch => -8
  | .errComms => -9
  | .errNotSupported => -10
  | .errFlashWriteFailure => -11
  | .errFlashOpenFailure => -12
  | .errFlashInvalid => -13
  | .errUpdaterClosed => -14
  | .errInvalidImage => -15
  | .errInvalidChunk => -16
  | .errInvalidTarget => -17
  | .errUnknown => -18

/-- `resend_reason_e`. -/
inductive ResendReason where
  | none
  | invalidSeqId
  | writeError
  | invalidSize
deriving DecidableEq

/-- The fields of `dev_info_t` that a version response carries. -/
structure DevInfo where
  serialNumber : UInt32
  hardwareType : UInt8
  hardwareVer : UInt32
  firmwareVer : UInt32
  buildNumber : UInt32
  buildType : UInt8
  buildYear : UInt8
  buildMonth : UInt8
  buildDay : UInt8
  buildHour : UInt8
  buildMinute : UInt8
  buildSecond : UInt8
  buildMillisecond : UInt8
deriving DecidableEq

/-- `req_update`. -/
structure UpdateRequest where
  sessionId : UInt16
  imageSlot : UInt8
  imageFlags : UInt8
  fileSize : UInt32
  chunkSize : UInt16
  progressRate : UInt16
  md5Hash : Hash
deriving DecidableEq

/-- `chunk`, with the `data_len` bytes that follow it. -/
structure Chunk where
  sessionId : UInt16
  chunkId : UInt16
  data : List UInt8
  fits : data.length < 2 ^ 16
deriving DecidableEq

def Chunk.dataLen (chunk : Chunk) : UInt16 := UInt16.ofNat chunk.data.length

/-- `msg_data_t` under its `msg_type`. -/
inductive Message where
  | unknown
  | reqReset (resetFlags : UInt16)
  | resetResp
  | reqUpdate (request : UpdateRequest)
  | updateResp (sessionId totlChunks : UInt16) (status : UpdateStatus)
  | updateChunk (chunk : Chunk)
  | updateProgress (sessionId : UInt16) (status : UpdateStatus) (numChunks totlChunks : UInt16)
      (msgLevel : UInt8)
  | reqResendChunk (sessionId chunkId : UInt16) (reason : ResendReason)
  | updateDone (sessionId : UInt16) (status : UpdateStatus)
  | reqVersionInfo
  | versionInfoResp (resTarget : UInt32) (info : DevInfo)
deriving DecidableEq

/-- `payload_t`: the target a message is meant for, and the message. -/
structure Payload where
  targetDevice : UInt32
  message : Message
deriving DecidableEq

def targetHost : UInt32 := 0

@[simp] theorem Chunk.dataLen_toNat (chunk : Chunk) : chunk.dataLen.toNat = chunk.data.length := by
  rw [dataLen, UInt16.toNat_ofNat']
  exact Nat.mod_eq_of_lt chunk.fits

end InertialSense.FirmwareUpdate
