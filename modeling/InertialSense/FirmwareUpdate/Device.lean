import InertialSense.FirmwareUpdate.Message
import InertialSense.Foundation.Binary32

/-! `FirmwareUpdateDevice`: the receiving side of a firmware update. -/

namespace InertialSense.FirmwareUpdate

open Foundation
open Md5 (Hash Context)

/-- The session fields of `FirmwareUpdateBase`, with `last_chunk_id` of the device. -/
structure Session where
  resendCount : UInt32
  sessionTarget : UInt32
  sessionStatus : UpdateStatus
  sessionId : UInt16
  sessionChunkSize : UInt16
  sessionTotalChunks : UInt16
  sessionImageSize : UInt32
  sessionImageSlot : UInt8
  sessionImageFlags : UInt8
  sessionMd5 : Hash
  md5Context : Context
  lastChunkId : Int

/-- A device: its session and the fields that only time its reports. -/
structure Device extends Session where
  lastMessage : UInt32
  progressInterval : UInt32
  nextProgressReport : UInt32

/-- What the environment answers while one message is processed: the clock, the
virtual functions of the implementing class and the wire. -/
structure Answers where
  currentTimeMs : UInt32
  startUpdate : UpdateStatus
  writeImageChunk : UpdateStatus
  finishUpdate : UpdateStatus
  performReset : Bool
  queryVersionInfo : Option DevInfo
  writeToWire : Bool
  /-- The value of a conversion to `uint16_t` that is out of range: any value. -/
  outOfRange : UInt16

/-- An environment that grants everything. -/
def Answers.granting : Answers :=
  { currentTimeMs := 0
    startUpdate := .ready
    writeImageChunk := .inProgress
    finishUpdate := .finished
    performReset := true
    queryVersionInfo := none
    writeToWire := true
    outOfRange := 0 }

/-- A request for an image of one-byte chunks, granted. -/
def sampleRequest (sessionId : UInt16) (fileSize : UInt32) (md5Hash : Hash) : Answers × Payload :=
  (.granting,
    { targetDevice := 0x10
      message := .reqUpdate
        { sessionId, imageSlot := 0, imageFlags := 0, fileSize, chunkSize := 1, progressRate := 0,
          md5Hash } })

def sampleChunk (sessionId chunkId : UInt16) (byte : UInt8) : Answers × Payload :=
  (.granting,
    { targetDevice := 0x10
      message := .updateChunk
        { sessionId, chunkId, data := [byte], fits := by simp } })

/-- One call of `fwUpdate_writeImageChunk` and the status it returned. -/
structure ImageWrite where
  targetId : UInt32
  slotId : UInt8
  offset : UInt32
  data : List UInt8
  status : UpdateStatus
deriving DecidableEq

/-- What the device does to the outside. -/
inductive Effect where
  | send (payload : Payload)
  | startUpdate (request : UpdateRequest)
  | writeImageChunk (write : ImageWrite)
  | finishUpdate (targetId : UInt32) (slotId flags : UInt8)
  | performReset (targetId : UInt32) (resetFlags : UInt16)
  | remainderByZero
deriving DecidableEq

def Effect.toHost (message : Message) : Effect := .send { targetDevice := targetHost, message }

/-- What a handler leaves behind: the device, its return value and the effects in order. -/
structure Outcome where
  device : Device
  result : Bool
  effects : List Effect

namespace Session

def resetEngine (s : Session) : Session :=
  { s with
    resendCount := 0
    sessionId := 0
    lastChunkId := -1
    sessionStatus := .notStarted
    md5Context := Md5.md5Init s.md5Context }

def isUpdating (s : Session) : Bool :=
  s.sessionId ≠ 0 ∧ UpdateStatus.value .notStarted < s.sessionStatus.value

def sendDone (s : Session) (reason : UpdateStatus) (clearSession resetDevice : Bool) :
    Session × List Effect :=
  let s := { s with sessionStatus := reason }
  let sent := [Effect.toHost (.updateDone s.sessionId reason)]
  let s := if clearSession then s.resetEngine else s
  (s, sent ++ if resetDevice then [.performReset s.sessionTarget 0] else [])

def sendRetry (s : Session) (reason : ResendReason) : List Effect :=
  [.toHost (.reqResendChunk s.sessionId (UInt16.ofNat (s.lastChunkId + 1).toNat) reason)]

/-- `(uint16_t) ceil((float)session_image_size / (float)session_chunk_size)`. -/
def totalChunks (imageSize : UInt32) (chunkSize outOfRange : UInt16) : UInt16 :=
  if chunkSize = 0 then outOfRange
  else
    let chunks := ((Binary32.ofNat imageSize.toNat).div (Binary32.ofNat chunkSize.toNat)).ceil
    if chunks < 2 ^ 16 then UInt16.ofNat chunks else outOfRange

/-- The session `fwUpdate_handleInitialize` sets up. The status it sets for a zero
session id is overwritten before anything reads it, and a refused request keeps the
slot, the number of chunks and the hash of the request before. -/
def startSession (s : Session) (answers : Answers) (request : UpdateRequest) : Session :=
  let s := if request.sessionId = 0 then { s with sessionStatus := .errInvalidSession } else s
  let s := s.resetEngine
  let s :=
    { s with
      sessionStatus := answers.startUpdate
      sessionId := request.sessionId
      sessionImageSize := request.fileSize
      sessionChunkSize := request.chunkSize }
  if UpdateStatus.value .notStarted < s.sessionStatus.value then
    { s with
      sessionImageSlot := request.imageSlot
      sessionImageFlags := request.imageFlags
      sessionTotalChunks := totalChunks request.fileSize request.chunkSize answers.outOfRange
      sessionMd5 := request.md5Hash }
  else s

/-- The number of data bytes `fwUpdate_handleChunk` requires of a chunk. -/
def expectedSize (s : Session) (chunkId : UInt16) : UInt16 :=
  let modSize := UInt16.ofNat (s.sessionImageSize.toNat % s.sessionChunkSize.toNat)
  if (chunkId.toNat : Int) = (s.sessionTotalChunks.toNat : Int) - 1 ∧ modSize ≠ 0 then modSize
  else s.sessionChunkSize

/-- `chnk_offset`; the callback gets the same 32 bits as an `int`. -/
def chunkOffset (s : Session) (chunkId : UInt16) : UInt32 :=
  chunkId.toUInt32 * s.sessionChunkSize.toUInt32

/-- The session once a chunk is written: `md5_final` has not run yet. -/
def storeChunk (s : Session) (chunk : Chunk) : Session :=
  { s with
    sessionStatus := .inProgress
    lastChunkId := chunk.chunkId.toNat
    md5Context := Md5.md5Update s.md5Context chunk.data }

/-- The last chunk has been received: confirm the checksum and report. -/
def verifyImage (s : Session) (answers : Answers) : Session × List Effect :=
  let (md5Context, md5) := Md5.md5Final s.md5Context
  let s := { s with md5Context }
  let (s, finish) :=
    if s.sessionMd5 ≠ md5 then ({ s with sessionStatus := .errChecksumMismatch }, [])
    else
      ({ s with sessionStatus := answers.finishUpdate },
        [.finishUpdate s.sessionTarget s.sessionImageSlot s.sessionImageFlags])
  let (s, done) :=
    if s.sessionStatus ≠ .finalizing then s.sendDone s.sessionStatus false false else (s, [])
  (s, finish ++ done)

end Session

namespace Device

/-- The constructor of `FirmwareUpdateDevice`. -/
def create (target : UInt32) : Device :=
  { Session.resetEngine
      { resendCount := 0
        sessionTarget := target
        sessionStatus := .notStarted
        sessionId := 0
        sessionChunkSize := 0
        sessionTotalChunks := 0
        sessionImageSize := 0
        sessionImageSlot := 0
        sessionImageFlags := 0
        sessionMd5 := { a := 0, b := 0, c := 0, d := 0 }
        md5Context :=
          { state := { a := 0, b := 0, c := 0, d := 0 }, count0 := 0, count1 := 0,
            buffer := fun _ => 0 }
        lastChunkId := -1 } with
    lastMessage := 0
    progressInterval := 500
    nextProgressReport := 0 }

/-- `fwUpdate_sendProgress`: nothing is sent without a started session. -/
def sendProgress (d : Device) (answers : Answers) : Device × List Effect :=
  let d := { d with nextProgressReport := answers.currentTimeMs + d.progressInterval }
  if d.sessionId = 0 ∨ d.sessionStatus = .notStarted then (d, [])
  else
    let numChunks := max 0 (min (d.sessionTotalChunks.toNat : Int) (d.lastChunkId + 1))
    (d, [.toHost (.updateProgress d.sessionId d.sessionStatus (UInt16.ofNat numChunks.toNat)
      d.sessionTotalChunks 99)])

def handleInitialize (d : Device) (answers : Answers) (request : UpdateRequest) : Outcome :=
  let s := d.toSession.startSession answers request
  { device := { d with toSession := s }
    result := answers.writeToWire
    effects :=
      [.startUpdate request,
        .toHost (.updateResp s.sessionId s.sessionTotalChunks s.sessionStatus)] }

/-- `fwUpdate_handleChunk` for a message addressed to `target`. -/
def handleChunk (d : Device) (answers : Answers) (target : UInt32) (chunk : Chunk) : Outcome :=
  if chunk.sessionId ≠ d.sessionId then { device := d, result := false, effects := [] }
  else if chunk.chunkId ≠ UInt16.ofNat (d.lastChunkId + 1).toNat then
    { device := d, result := false, effects := d.sendRetry .invalidSeqId }
  else if d.sessionChunkSize = 0 then
    -- `session_image_size % session_chunk_size` traps
    { device := d, result := false, effects := [.remainderByZero] }
  else if chunk.dataLen ≠ d.expectedSize chunk.chunkId then
    { device := d, result := false, effects := d.sendRetry .invalidSize }
  else
    let write : Effect := .writeImageChunk
      { targetId := target
        slotId := d.sessionImageSlot
        offset := d.chunkOffset chunk.chunkId
        data := chunk.data
        status := answers.writeImageChunk }
    if answers.writeImageChunk.value < UpdateStatus.value .notStarted then
      { device := d, result := false, effects := write :: d.sendRetry .writeError }
    else
      let d := { d with toSession := d.toSession.storeChunk chunk }
      if (d.sessionTotalChunks.toNat : Int) - 1 ≤ d.lastChunkId then
        let (d, progress) := d.sendProgress answers
        let (s, final) := d.toSession.verifyImage answers
        { device := { d with toSession := s }, result := true, effects := write :: progress ++ final }
      else { device := d, result := true, effects := [write] }

def handleReset (d : Device) (answers : Answers) (resetFlags : UInt16) : Outcome :=
  { device := d
    result := answers.performReset
    effects := [.toHost .resetResp, .performReset d.sessionTarget resetFlags] }

/-- The information sent when the target has none: every byte 0xFF. -/
def unsupportedInfo : DevInfo :=
  { serialNumber := 0xFFFFFFFF
    hardwareType := 0xFF
    hardwareVer := 0xFFFFFFFF
    firmwareVer := 0xFFFFFFFF
    buildNumber := 0xFFFFFFFF
    buildType := 0xFF
    buildYear := 0xFF
    buildMonth := 0xFF
    buildDay := 0xFF
    buildHour := 0xFF
    buildMinute := 0xFF
    buildSecond := 0xFF
    buildMillisecond := 0xFF }

def handleVersionInfo (d : Device) (answers : Answers) (target : UInt32) : Outcome :=
  let info := answers.queryVersionInfo.getD unsupportedInfo
  { device := d
    result := answers.writeToWire
    effects := [.toHost (.versionInfoResp target info)] }

/-- The `switch` of `fwUpdate_processMessage`. -/
def dispatch (d : Device) (answers : Answers) (payload : Payload) : Outcome :=
  match payload.message with
  | .reqUpdate request => d.handleInitialize answers request
  | .updateChunk chunk => d.handleChunk answers payload.targetDevice chunk
  | .reqReset resetFlags => d.handleReset answers resetFlags
  | .reqVersionInfo => d.handleVersionInfo answers payload.targetDevice
  | _ => { device := d, result := false, effects := [] }

/-- `fwUpdate_processMessage`. The final call of `fwUpdate_step` belongs to the
implementing class and is taken not to touch the session. -/
def processMessage (d : Device) (answers : Answers) (payload : Payload) : Outcome :=
  if payload.targetDevice ≠ d.sessionTarget then { device := d, result := false, effects := [] }
  else
    let outcome := dispatch { d with lastMessage := answers.currentTimeMs } answers payload
    if 0 < outcome.device.progressInterval ∧
        outcome.device.nextProgressReport < answers.currentTimeMs then
      let (d, progress) := outcome.device.sendProgress answers
      { outcome with device := d, effects := outcome.effects ++ progress }
    else outcome

/-- A device as a machine that reads messages with the answers of its environment. -/
def step (d : Device) (input : Answers × Payload) : Device × List Effect :=
  ((d.processMessage input.1 input.2).device, (d.processMessage input.1 input.2).effects)

end Device

end InertialSense.FirmwareUpdate
