import InertialSense.FirmwareUpdate.Message

/-! `FirmwareUpdateHost`, the sending side of a firmware update, with the message
handlers of `ISFirmwareUpdater`. -/

namespace InertialSense.FirmwareUpdate

open Md5 (Hash)

/-- The session fields of the host, its resend bookkeeping and the opened image file. -/
structure Host where
  lastMessage : UInt32
  resendCount : UInt32
  sessionTarget : UInt32
  sessionStatus : UpdateStatus
  sessionId : UInt16
  sessionChunkSize : UInt16
  sessionTotalChunks : UInt16
  sessionImageSize : UInt32
  sessionProgressRate : UInt16
  sessionImageSlot : UInt8
  sessionImageFlags : UInt8
  sessionMd5 : Hash
  nextChunkId : UInt16
  chunksSent : UInt16
  lastResentChunk : UInt16
  resentChunkidCount : UInt16
  resentChunkidTime : UInt32
  image : List UInt8

/-- The clock, the random number and the wire, as one call of the host finds them. -/
structure HostAnswers where
  currentTimeMs : UInt32
  rand : UInt16
  writeToWire : Bool

/-- The arguments of `fwUpdate_requestUpdate`. -/
structure RequestArguments where
  target : UInt32
  imageSlot : UInt8
  imageFlags : UInt8
  chunkSize : UInt16
  imageSize : UInt32
  imageMd5 : Hash
  progressRate : UInt16

namespace Host

def create : Host :=
  { lastMessage := 0
    resendCount := 0
    sessionTarget := targetHost
    sessionStatus := .notStarted
    sessionId := 0
    sessionChunkSize := 0
    sessionTotalChunks := 0
    sessionImageSize := 0
    sessionProgressRate := 250
    sessionImageSlot := 0
    sessionImageFlags := 0
    sessionMd5 := { a := 0, b := 0, c := 0, d := 0 }
    nextChunkId := 0
    chunksSent := 0
    lastResentChunk := 0
    resentChunkidCount := 0
    resentChunkidTime := 0
    image := [] }

/-- `fwUpdate_resetEngine`; the number of chunks of the session before stays. -/
def resetEngine (h : Host) : Host :=
  { h with
    resendCount := 0
    sessionStatus := .notStarted
    sessionId := 0
    sessionChunkSize := 512
    sessionImageSize := 0
    sessionImageSlot := 0
    nextChunkId := 0 }

/-- The request both forms of `fwUpdate_requestUpdate` send. -/
def request (h : Host) : Payload :=
  { targetDevice := h.sessionTarget
    message := .reqUpdate
      { sessionId := h.sessionId
        imageSlot := h.sessionImageSlot
        imageFlags := h.sessionImageFlags
        fileSize := h.sessionImageSize
        chunkSize := h.sessionChunkSize
        progressRate := h.sessionProgressRate
        md5Hash := h.sessionMd5 } }

/-- A message reaches the wire or is lost at once. -/
def transmit (answers : HostAnswers) (payload : Payload) : List Payload :=
  if answers.writeToWire then [payload] else []

/-- `fwUpdate_requestUpdate` with its arguments: a new session. -/
def requestUpdate (h : Host) (answers : HostAnswers) (arguments : RequestArguments) :
    Host × List Payload :=
  let h := h.resetEngine
  let h :=
    { h with
      lastMessage := answers.currentTimeMs
      sessionId := answers.rand
      sessionStatus := .notStarted
      sessionTarget := arguments.target
      sessionImageSlot := arguments.imageSlot
      sessionImageFlags := arguments.imageFlags
      sessionChunkSize := arguments.chunkSize
      sessionImageSize := arguments.imageSize
      sessionProgressRate := arguments.progressRate
      sessionMd5 := arguments.imageMd5 }
  (h, transmit answers h.request)

/-- `fwUpdate_requestUpdate` without arguments: the same request again. -/
def repeatRequest (h : Host) (answers : HostAnswers) : List Payload :=
  if UpdateStatus.value .ready ≤ h.sessionStatus.value ∨ h.sessionId = 0 then []
  else transmit answers h.request

/-- `fwUpdate_getImageChunk`: the requested bytes, as far as the image has them. -/
def getImageChunk (h : Host) (offset length : Nat) : List UInt8 :=
  (h.image.drop offset).take length

/-- `data_len` of the next chunk. -/
def nextDataLen (h : Host) : UInt16 :=
  let modSize := h.sessionImageSize.toNat % h.sessionChunkSize.toNat
  if (h.nextChunkId.toNat : Int) = (h.sessionTotalChunks.toNat : Int) - 1 ∧ modSize ≠ 0 then
    UInt16.ofNat modSize
  else h.sessionChunkSize

/-- `fwUpdate_sendNextChunk`. A chunk the image does not have in full is not sent. -/
def sendNextChunk (h : Host) (answers : HostAnswers) : Host × List Payload :=
  if h.sessionTotalChunks ≤ h.nextChunkId then (h, [])
  else
    let data := h.getImageChunk (h.nextChunkId.toNat * h.sessionChunkSize.toNat)
      h.nextDataLen.toNat
    if whole : data.length = h.nextDataLen.toNat then
      let chunk : Chunk :=
        { sessionId := h.sessionId, chunkId := h.nextChunkId, data
          fits := whole ▸ UInt16.toNat_lt _ }
      ({ h with
          chunksSent := h.chunksSent + 1
          nextChunkId := if answers.writeToWire then h.nextChunkId + 1 else h.nextChunkId },
        transmit answers { targetDevice := h.sessionTarget, message := .updateChunk chunk })
    else (h, [])

/-- `fwUpdate_handleUpdateResponse` of `ISFirmwareUpdater`. A chunk size that is too large
for the device is halved, in a new session. -/
def handleUpdateResponse (h : Host) (answers : HostAnswers) (totlChunks : UInt16)
    (status : UpdateStatus) : Host × List Payload :=
  if h.sessionStatus = status ∧ h.sessionStatus ≠ .initializing then (h, [])
  else
    let h := { h with sessionStatus := status, sessionTotalChunks := totlChunks }
    match status with
    | .errMaxChunkSize =>
      h.requestUpdate answers
        { target := h.sessionTarget
          imageSlot := h.sessionImageSlot
          imageFlags := h.sessionImageFlags
          chunkSize := h.sessionChunkSize / 2
          imageSize := h.sessionImageSize
          imageMd5 := h.sessionMd5
          progressRate := 500 }
    | .ready => ({ h with nextChunkId := 0 }, [])
    | _ => (h, [])

/-- `fwUpdate_handleResendChunk` of `ISFirmwareUpdater`: it gives up or sends a chunk. -/
def handleResendChunk (h : Host) (answers : HostAnswers) (chunkId : UInt16)
    (reason : ResendReason) : Host × List Payload :=
  if chunkId = h.lastResentChunk then
    let h := { h with resentChunkidCount := h.resentChunkidCount + 1 }
    if 10 < h.resentChunkidCount ∧ 5000 < answers.currentTimeMs - h.resentChunkidTime then
      match reason with
      | .writeError => ({ h with sessionStatus := .errFlashWriteFailure }, [])
      | .invalidSeqId | .invalidSize => ({ h with sessionStatus := .errInvalidChunk }, [])
      | .none => (h, [])
    else h.sendNextChunk answers
  else
    sendNextChunk
      { h with resentChunkidCount := 0, resentChunkidTime := answers.currentTimeMs } answers

def processMessage (h : Host) (answers : HostAnswers) (payload : Payload) :
    Host × List Payload :=
  if payload.targetDevice ≠ targetHost then (h, [])
  else
    let h := { h with lastMessage := answers.currentTimeMs }
    match payload.message with
    | .updateResp sessionId totlChunks status =>
      if sessionId = h.sessionId then h.handleUpdateResponse answers totlChunks status else (h, [])
    | .updateProgress sessionId status _ _ _ =>
      if sessionId = h.sessionId ∧ UpdateStatus.value .notStarted ≤ h.sessionStatus.value then
        ({ h with sessionStatus := status }, [])
      else (h, [])
    | .reqResendChunk sessionId chunkId reason =>
      if sessionId = h.sessionId then
        handleResendChunk
          { h with
            resendCount := h.resendCount + (h.nextChunkId.toUInt32 - chunkId.toUInt32)
            nextChunkId := chunkId } answers chunkId reason
      else (h, [])
    | .updateDone sessionId status =>
      if sessionId = h.sessionId then ({ h with sessionStatus := status }, []) else (h, [])
    | _ => (h, [])

/-- The message makes the host request the update again, with smaller chunks. -/
def Renegotiates (h : Host) (payload : Payload) : Prop :=
  payload.targetDevice = targetHost ∧ h.sessionStatus ≠ .errMaxChunkSize ∧
    ∃ totlChunks, payload.message = .updateResp h.sessionId totlChunks .errMaxChunkSize

/-- What a host sends in its session: requests with the session's parameters and pieces
of the image at their place. -/
def Sends (h : Host) (payload : Payload) : Prop :=
  match payload.message with
  | .reqUpdate request => request.sessionId = h.sessionId ∧ request.chunkSize = h.sessionChunkSize
  | .updateChunk chunk =>
    chunk.sessionId = h.sessionId ∧
      chunk.data = h.getImageChunk (chunk.chunkId.toNat * h.sessionChunkSize.toNat)
        chunk.data.length
  | _ => False

/-- The host went on with its session, and a host without one stayed silent. -/
structure Continues (h : Host) (acted : Host × List Payload) : Prop where
  sessionId : acted.1.sessionId = h.sessionId
  chunkSize : acted.1.sessionChunkSize = h.sessionChunkSize
  image : acted.1.image = h.image
  sends : ∀ payload ∈ acted.2, h.Sends payload
  silent : h.sessionId = 0 → h.sessionTotalChunks = 0 →
    acted.1.sessionTotalChunks = 0 ∧ acted.2 = []

theorem mem_transmit {answers : HostAnswers} {payload sent : Payload}
    (member : sent ∈ transmit answers payload) : sent = payload := by
  unfold transmit at member
  split at member
  · exact List.mem_singleton.mp member
  · cases member

theorem repeatRequest_continues (h : Host) (answers : HostAnswers) :
    h.Continues (h, h.repeatRequest answers) := by
  refine ⟨rfl, rfl, rfl, ?_, fun zero none => ⟨none, by simp [repeatRequest, zero]⟩⟩
  intro payload member
  unfold repeatRequest at member
  dsimp only at member
  split at member
  · cases member
  · rw [mem_transmit member]
    exact ⟨rfl, rfl⟩

/-- Only the place in the image moves. -/
theorem sendNextChunk_frame (h : Host) (answers : HostAnswers) : ∃ chunksSent nextChunkId,
    (h.sendNextChunk answers).1 = { h with chunksSent, nextChunkId } := by
  unfold sendNextChunk
  split
  · exact ⟨_, _, rfl⟩
  · dsimp only
    split
    · exact ⟨_, _, rfl⟩
    · exact ⟨_, _, rfl⟩

theorem sendNextChunk_continues (h : Host) (answers : HostAnswers) :
    h.Continues (h.sendNextChunk answers) := by
  have short (zero : h.sessionTotalChunks = 0) : h.sessionTotalChunks ≤ h.nextChunkId := by
    rw [zero, UInt16.le_iff_toNat_le]
    exact Nat.zero_le _
  unfold sendNextChunk
  split
  · exact ⟨rfl, rfl, rfl, by simp, fun _ none => ⟨none, rfl⟩⟩
  · rename_i long
    dsimp only
    split
    · rename_i whole
      refine ⟨rfl, rfl, rfl, ?_, fun _ none => absurd (short none) long⟩
      intro payload member
      rw [mem_transmit member]
      refine ⟨rfl, ?_⟩
      simp only [whole]
    · exact ⟨rfl, rfl, rfl, by simp, fun _ none => ⟨none, rfl⟩⟩

/-- The host opened a session of its own: the id it drew, and only messages of that session. -/
structure Starts (h : Host) (answers : HostAnswers) (chunkSize : UInt16)
    (acted : Host × List Payload) : Prop where
  sessionId : acted.1.sessionId = answers.rand
  chunkSize : acted.1.sessionChunkSize = chunkSize
  image : acted.1.image = h.image
  sends : ∀ payload ∈ acted.2, acted.1.Sends payload

theorem requestUpdate_starts (h : Host) (answers : HostAnswers) (arguments : RequestArguments) :
    h.Starts answers arguments.chunkSize (h.requestUpdate answers arguments) := by
  refine ⟨rfl, rfl, rfl, ?_⟩
  intro payload member
  rw [mem_transmit member]
  exact ⟨rfl, rfl⟩

private theorem continues_silently {h h' : Host} (sessionId : h'.sessionId = h.sessionId)
    (chunkSize : h'.sessionChunkSize = h.sessionChunkSize) (image : h'.image = h.image)
    (total : h.sessionId = 0 → h'.sessionTotalChunks = h.sessionTotalChunks) :
    h.Continues (h', []) :=
  ⟨sessionId, chunkSize, image, by simp, fun zero none => ⟨(total zero).trans none, rfl⟩⟩

private theorem handleUpdateResponse_acts (h : Host) (answers : HostAnswers) (totlChunks : UInt16)
    (status : UpdateStatus) (nonzero : h.sessionId ≠ 0) :
    h.Continues (h.handleUpdateResponse answers totlChunks status) ∨
      (h.sessionStatus ≠ .errMaxChunkSize ∧ status = .errMaxChunkSize ∧
        h.Starts answers (h.sessionChunkSize / 2)
          (h.handleUpdateResponse answers totlChunks status)) := by
  unfold handleUpdateResponse
  split
  · exact .inl (continues_silently rfl rfl rfl fun _ => rfl)
  · rename_i fresh
    dsimp only
    split
    · refine .inr ⟨fun same => fresh ⟨same, ?_⟩, rfl, ?_⟩
      · rw [same]
        decide
      · exact ⟨rfl, rfl, rfl, (requestUpdate_starts _ _ _).sends⟩
    · exact .inl (continues_silently rfl rfl rfl fun zero => absurd zero nonzero)
    · exact .inl (continues_silently rfl rfl rfl fun zero => absurd zero nonzero)

theorem handleResendChunk_continues (h : Host) (answers : HostAnswers) (chunkId : UInt16)
    (reason : ResendReason) : h.Continues (h.handleResendChunk answers chunkId reason) := by
  unfold handleResendChunk
  dsimp only
  split
  · split
    · cases reason <;> exact continues_silently rfl rfl rfl fun _ => rfl
    · obtain ⟨sessionId, chunkSize, image, sends, silent⟩ := sendNextChunk_continues
        { h with resentChunkidCount := h.resentChunkidCount + 1 } answers
      exact ⟨sessionId, chunkSize, image, sends, silent⟩
  · obtain ⟨sessionId, chunkSize, image, sends, silent⟩ := sendNextChunk_continues
      { h with resentChunkidCount := 0, resentChunkidTime := answers.currentTimeMs } answers
    exact ⟨sessionId, chunkSize, image, sends, silent⟩

theorem processMessage_acts (h : Host) (answers : HostAnswers) (payload : Payload)
    (answered : ∀ sessionId totlChunks status,
      payload.message = .updateResp sessionId totlChunks status → sessionId ≠ 0) :
    h.Continues (h.processMessage answers payload) ∨
      (h.Renegotiates payload ∧
        h.Starts answers (h.sessionChunkSize / 2) (h.processMessage answers payload)) := by
  obtain ⟨target, message⟩ := payload
  unfold processMessage
  split
  · exact .inl (continues_silently rfl rfl rfl fun _ => rfl)
  · rename_i host
    dsimp only
    split
    · rename_i sessionId totlChunks status
      split
      · rename_i own
        obtain ⟨c1, c2, c3, c4, c5⟩ | ⟨fresh, refused, c1, c2, c3, c4⟩ :=
          handleUpdateResponse_acts { h with lastMessage := answers.currentTimeMs } answers
            totlChunks status (own ▸ answered sessionId totlChunks status rfl)
        · exact .inl ⟨c1, c2, c3, c4, c5⟩
        · refine .inr ⟨⟨not_not.mp host, fresh, totlChunks, ?_⟩, c1, c2, c3, c4⟩
          rw [own, refused]
      · exact .inl (continues_silently rfl rfl rfl fun _ => rfl)
    · split <;> exact .inl (continues_silently rfl rfl rfl fun _ => rfl)
    · split
      · rename_i chunkId reason _
        obtain ⟨c1, c2, c3, c4, c5⟩ := handleResendChunk_continues
          { h with
            lastMessage := answers.currentTimeMs
            resendCount := h.resendCount + (h.nextChunkId.toUInt32 - chunkId.toUInt32)
            nextChunkId := chunkId } answers chunkId reason
        exact .inl ⟨c1, c2, c3, c4, c5⟩
      · exact .inl (continues_silently rfl rfl rfl fun _ => rfl)
    · split <;> exact .inl (continues_silently rfl rfl rfl fun _ => rfl)
    · exact .inl (continues_silently rfl rfl rfl fun _ => rfl)

end Host

end InertialSense.FirmwareUpdate
