import InertialSense.FirmwareUpdate.BufferForm
import InertialSense.FirmwareUpdate.BuildBuffer

/-! The messages of an upload as the bytes that are sent, and what the other party makes of them. -/

namespace InertialSense.FirmwareUpdate

open Foundation

/-- The statuses that have a name. -/
def UpdateStatus.all : List UpdateStatus :=
  [.finished, .finalizing, .inProgress, .ready, .initializing, .notStarted, .errInvalidSession,
    .errInvalidSlot, .errNotAllowed, .errNotEnoughMemory, .errOlderFirmware, .errMaxChunkSize,
    .errTimeout, .errChecksumMismatch, .errComms, .errNotSupported, .errFlashWriteFailure,
    .errFlashOpenFailure, .errFlashInvalid, .errUpdaterClosed, .errInvalidImage, .errInvalidChunk,
    .errInvalidTarget, .errUnknown]

/-- A status in the two bytes of its type. -/
def UpdateStatus.number (status : UpdateStatus) : UInt16 := UInt16.ofNat (status.value % 2 ^ 16).toNat

def UpdateStatus.ofNumber? (number : UInt16) : Option UpdateStatus :=
  UpdateStatus.all.find? fun status => status.number = number

def ResendReason.number : ResendReason → UInt16
  | .none => 0
  | .invalidSeqId => 1
  | .writeError => 2
  | .invalidSize => 3

def ResendReason.ofNumber? (number : UInt16) : Option ResendReason :=
  [ResendReason.none, .invalidSeqId, .writeError, .invalidSize].find? fun reason =>
    reason.number = number

theorem UpdateStatus.ofNumber?_number (status : UpdateStatus) :
    UpdateStatus.ofNumber? status.number = some status := by
  cases status <;> rfl

theorem ResendReason.ofNumber?_number (reason : ResendReason) :
    ResendReason.ofNumber? reason.number = some reason := by
  cases reason <;> rfl

/-! ### What is sent -/

/-- What is packed behind the header: the fields of the type, and auxiliary data. -/
structure Layout where
  type : MsgType
  fields : List UInt8
  aux : List UInt8

/-- What the parties set of a `payload_t`, where they set all of it. A progress report is one without a
text. -/
def Message.layout? : Message → Option Layout
  | .reqReset resetFlags => some ⟨.reqReset, toBytes 2 resetFlags.toNat, []⟩
  | .reqUpdate request => some
    { type := .reqUpdate
      fields := toBytes 2 request.sessionId.toNat ++ ([request.imageSlot, request.imageFlags] ++
        (toBytes 4 request.fileSize.toNat ++ (toBytes 2 request.chunkSize.toNat ++
          (toBytes 2 request.progressRate.toNat ++ (toBytes 4 request.md5Hash.a.toNat ++
            (toBytes 4 request.md5Hash.b.toNat ++ (toBytes 4 request.md5Hash.c.toNat ++
              toBytes 4 request.md5Hash.d.toNat)))))))
      aux := [] }
  | .updateResp sessionId totlChunks status => some
    { type := .updateResp
      fields := toBytes 2 sessionId.toNat ++ (toBytes 2 totlChunks.toNat ++
        toBytes 2 status.number.toNat)
      aux := [] }
  | .updateChunk chunk => some
    { type := .updateChunk
      fields := toBytes 2 chunk.sessionId.toNat ++ (toBytes 2 chunk.chunkId.toNat ++
        toBytes 2 chunk.dataLen.toNat)
      aux := chunk.data }
  | .updateProgress sessionId status numChunks totlChunks msgLevel => some
    { type := .updateProgress
      fields := toBytes 2 sessionId.toNat ++ (toBytes 2 status.number.toNat ++
        (toBytes 2 numChunks.toNat ++ (toBytes 2 totlChunks.toNat ++ [msgLevel, 0])))
      aux := [] }
  | .reqResendChunk sessionId chunkId reason => some
    { type := .reqResendChunk
      fields := toBytes 2 sessionId.toNat ++ (toBytes 2 chunkId.toNat ++
        toBytes 2 reason.number.toNat)
      aux := [] }
  | .updateDone sessionId status => some
    { type := .updateDone
      fields := toBytes 2 sessionId.toNat ++ toBytes 2 status.number.toNat
      aux := [] }
  | .unknown | .resetResp | .reqVersionInfo | .versionInfoResp .. => none

/-- The header and the fields, as `payload_t` has them. -/
def Layout.fixed (layout : Layout) (targetDevice : UInt32) : List UInt8 :=
  toBytes 4 targetDevice.toNat ++ (toBytes 4 layout.type.value.toNat ++ layout.fields)

/-- The bytes that `fwUpdate_writeToWire` gets. -/
def Payload.bytes? (payload : Payload) : Option (List UInt8) :=
  payload.message.layout?.map fun layout => layout.fixed payload.targetDevice ++ layout.aux

/-! ### What is made of it -/

/-- The message as the host processes it; it reads nothing of the messages of a host. A number that
has no name is no status. -/
def hostMessage : MsgData → Message
  | .updateResp sessionId totlChunks status =>
    (UpdateStatus.ofNumber? status).elim .unknown (.updateResp sessionId totlChunks)
  | .progress sessionId status numChunks totlChunks msgLevel _ =>
    (UpdateStatus.ofNumber? status).elim .unknown
      (.updateProgress sessionId · numChunks totlChunks msgLevel)
  | .reqResend sessionId chunkId reason =>
    (ResendReason.ofNumber? reason).elim .unknown (.reqResendChunk sessionId chunkId)
  | .respDone sessionId status =>
    (UpdateStatus.ofNumber? status).elim .unknown (.updateDone sessionId)
  | _ => .unknown

/-- `FirmwareUpdateHost::fwUpdate_processMessage` of a buffer, for `ISFirmwareUpdater`; nothing reads
its length. -/
def Host.processBuffer (h : Host) (answers : HostAnswers) (buffer : Nat → UInt8) (_bufLen : Int) :
    Host × List Payload :=
  let mapped := fwUpdateMapBufferToPayload buffer none
  if mapped.count ≤ 0 then (h, [])
  else
    h.processMessage answers
      { targetDevice := (msgHeader mapped.buffer).targetDevice
        message := ((msgData mapped.buffer).map hostMessage).getD .unknown }

section Reading

variable {mem : Nat → UInt8} {bytes : List UInt8} {start : Nat}

private theorem window_received {length : Nat} (inside : start + length ≤ bytes.length) :
    window (store mem 0 bytes) start length = (bytes.drop start).take length := by
  have whole := window_store mem 0 bytes
  have dropped := @drop_window _ (store mem 0 bytes) 0 _ start (show start ≤ bytes.length by omega)
  have taken := @take_window _ (store mem 0 bytes) (0 + start) _ length
    (show length ≤ bytes.length - start by omega)
  rw [← dropped, whole, Nat.zero_add] at taken
  exact taken.symm

private theorem halfAt_received {value : UInt16} (inside : start + 2 ≤ bytes.length)
    (here : (bytes.drop start).take 2 = toBytes 2 value.toNat) :
    halfAt (store mem 0 bytes) start = value := by
  unfold halfAt
  rw [window_received inside, here, fromBytes_toBytes value.toNat_lt, UInt16.ofNat_toNat]

private theorem wordAt_received {value : UInt32} (inside : start + 4 ≤ bytes.length)
    (here : (bytes.drop start).take 4 = toBytes 4 value.toNat) :
    wordAt (store mem 0 bytes) start = value := by
  unfold wordAt
  rw [window_received inside, here, fromBytes_toBytes value.toNat_lt, UInt32.ofNat_toNat]

private theorem byteAt_received {value : UInt8} (here : bytes[start]? = some value) :
    store mem 0 bytes start = value := by
  unfold store
  rw [if_pos (Nat.zero_le _), Nat.sub_zero, here, Option.getD_some]

end Reading

/-- The fields that belong to a message, with the size of its auxiliary data. -/
def Message.data? : Message → Option MsgData
  | .reqReset resetFlags => some (.reqReset resetFlags)
  | .reqUpdate request => some (.reqUpdate request)
  | .updateResp sessionId totlChunks status => some (.updateResp sessionId totlChunks status.number)
  | .updateChunk chunk => some (.chunk chunk.sessionId chunk.chunkId chunk.dataLen)
  | .updateProgress sessionId status numChunks totlChunks msgLevel =>
    some (.progress sessionId status.number numChunks totlChunks msgLevel 0)
  | .reqResendChunk sessionId chunkId reason => some (.reqResend sessionId chunkId reason.number)
  | .updateDone sessionId status => some (.respDone sessionId status.number)
  | .unknown | .resetResp | .reqVersionInfo | .versionInfoResp .. => none

section Received

variable {payload : Payload} {bytes : List UInt8} {layout : Layout}

theorem Message.fields_length {message : Message} (sent : message.layout? = some layout) :
    8 + layout.fields.length = layout.type.fixedSize := by
  cases message <;> cases sent <;> rfl

theorem MsgType.ofValue?_value (type : MsgType) : MsgType.ofValue? type.value = some type := by
  cases type <;> rfl

theorem Layout.fixed_length {message : Message} (sent : message.layout? = some layout)
    (targetDevice : UInt32) : (layout.fixed targetDevice).length = layout.type.fixedSize := by
  rw [← Message.fields_length sent]
  unfold Layout.fixed
  rw [List.length_append, List.length_append, toBytes_length, toBytes_length]
  omega

/-- The message as it lies in the memory of the other party. -/
structure Received (payload : Payload) (layout : Layout) (buffer : Nat → UInt8) : Prop where
  header : msgHeader buffer = { targetDevice := payload.targetDevice, msgType := layout.type.value }
  fields : payload.message.data? = some (fieldsOf buffer layout.type)
  aux : window buffer layout.type.fixedSize layout.aux.length = layout.aux

theorem received_store (sent : payload.message.layout? = some layout) (behind : Nat → UInt8) :
    Received payload layout (store behind 0 (layout.fixed payload.targetDevice ++ layout.aux)) := by
  obtain ⟨targetDevice, message⟩ := payload
  have length := Layout.fixed_length sent targetDevice
  have size : layout.type.fixedSize ≤ (layout.fixed targetDevice ++ layout.aux).length := by
    rw [List.length_append, length]
    exact Nat.le_add_right ..
  have header := layout.type.header_le_fixedSize
  have byte (start : Nat) (value : UInt8)
      (here : (layout.fixed targetDevice ++ layout.aux)[start]? = some value) :
      store behind 0 (layout.fixed targetDevice ++ layout.aux) start = value := byteAt_received here
  have half (start : Nat) (value : UInt16) (inside : Nat.ble (start + 2) layout.type.fixedSize)
      (here : ((layout.fixed targetDevice ++ layout.aux).drop start).take 2 = toBytes 2 value.toNat) :
      halfAt (store behind 0 (layout.fixed targetDevice ++ layout.aux)) start = value :=
    halfAt_received (Nat.le_trans (Nat.le_of_ble_eq_true inside) size) here
  have word (start : Nat) (value : UInt32) (inside : Nat.ble (start + 4) layout.type.fixedSize)
      (here : ((layout.fixed targetDevice ++ layout.aux).drop start).take 4 = toBytes 4 value.toNat) :
      wordAt (store behind 0 (layout.fixed targetDevice ++ layout.aux)) start = value :=
    wordAt_received (Nat.le_trans (Nat.le_of_ble_eq_true inside) size) here
  refine ⟨?_, ?_, ?_⟩
  · unfold msgHeader
    rw [word 0 targetDevice (Nat.ble_eq.mpr (by omega)) rfl,
      word 4 layout.type.value (Nat.ble_eq.mpr (by omega)) rfl]
  · cases message with
    | unknown => cases sent
    | resetResp => cases sent
    | reqVersionInfo => cases sent
    | versionInfoResp => cases sent
    | reqReset resetFlags =>
      cases sent
      exact congrArg (fun flags => some (MsgData.reqReset flags)) (half _ _ rfl rfl).symm
    | reqUpdate request =>
      cases sent
      have session := half 8 request.sessionId rfl rfl
      have slot := byte 10 request.imageSlot rfl
      have flags := byte 11 request.imageFlags rfl
      have file := word 12 request.fileSize rfl rfl
      have chunk := half 16 request.chunkSize rfl rfl
      have rate := half 18 request.progressRate rfl rfl
      have a := word 20 request.md5Hash.a rfl rfl
      have b := word 24 request.md5Hash.b rfl rfl
      have c := word 28 request.md5Hash.c rfl rfl
      have d := word 32 request.md5Hash.d rfl rfl
      unfold fieldsOf
      dsimp only
      rw [session, slot, flags, file, chunk, rate, a, b, c, d]
      rfl
    | updateResp sessionId totlChunks status =>
      cases sent
      have session := half 8 sessionId rfl rfl
      have total := half 10 totlChunks rfl rfl
      have answer := half 12 status.number rfl rfl
      unfold fieldsOf
      dsimp only
      rw [session, total, answer]
      rfl
    | updateChunk chunk =>
      cases sent
      have session := half 8 chunk.sessionId rfl rfl
      have id := half 10 chunk.chunkId rfl rfl
      have size := half 12 chunk.dataLen rfl rfl
      unfold fieldsOf chunkDataLen
      dsimp only
      rw [session, id, size]
      rfl
    | updateProgress sessionId status numChunks totlChunks msgLevel =>
      cases sent
      have session := half 8 sessionId rfl rfl
      have answer := half 10 status.number rfl rfl
      have done := half 12 numChunks rfl rfl
      have total := half 14 totlChunks rfl rfl
      have level := byte 16 msgLevel rfl
      have text := byte 17 0 rfl
      unfold fieldsOf progressMsgLen
      dsimp only
      rw [session, answer, done, total, level, text]
      rfl
    | reqResendChunk sessionId chunkId reason =>
      cases sent
      have session := half 8 sessionId rfl rfl
      have id := half 10 chunkId rfl rfl
      have why := half 12 reason.number rfl rfl
      unfold fieldsOf
      dsimp only
      rw [session, id, why]
      rfl
    | updateDone sessionId status =>
      cases sent
      have session := half 8 sessionId rfl rfl
      have answer := half 10 status.number rfl rfl
      unfold fieldsOf
      dsimp only
      rw [session, answer]
      rfl
  · rw [window_received (Nat.le_of_eq (by rw [List.length_append, length])), ← length, List.drop_left,
      List.take_length]

variable {buffer : Nat → UInt8}

private theorem Received.kind (received : Received payload layout buffer) :
    msgType? buffer = some layout.type := by
  unfold msgType?
  rw [received.header]
  exact layout.type.ofValue?_value

private theorem Received.mapped (received : Received payload layout buffer) :
    fwUpdateMapBufferToPayload buffer none =
      { count := layout.type.fixedSize + (auxLen buffer : Int)
        buffer
        payload := 0
        auxData := (auxPtr buffer).or none } :=
  HoldsPacked.map ⟨received.kind, fun _ _ => rfl, rfl⟩ none

private theorem Received.counted (received : Received payload layout buffer) :
    ¬(fwUpdateMapBufferToPayload buffer none).count ≤ 0 := by
  have header := layout.type.header_le_fixedSize
  rw [received.mapped]
  dsimp only
  omega

private theorem Received.data (received : Received payload layout buffer) :
    msgData buffer = payload.message.data? := by
  rw [msgData_of_msgType? received.kind, received.fields]

/-- The auxiliary data has the length that the fields say. -/
private theorem Received.auxLen (received : Received payload layout buffer)
    (laid : payload.message.layout? = some layout) : auxLen buffer = layout.aux.length := by
  have kind := received.kind
  have fields := received.fields
  unfold FirmwareUpdate.auxLen
  rw [kind]
  obtain ⟨targetDevice, message⟩ := payload
  cases message with
  | unknown => cases laid
  | resetResp => cases laid
  | reqVersionInfo => cases laid
  | versionInfoResp => cases laid
  | updateChunk chunk =>
    cases laid
    exact (congrArg UInt16.toNat (MsgData.chunk.inj (Option.some.inj fields)).2.2).symm.trans
      chunk.dataLen_toNat
  | updateProgress =>
    cases laid
    exact (congrArg UInt8.toNat (MsgData.progress.inj (Option.some.inj fields)).2.2.2.2.2).symm
  | reqReset => cases laid; rfl
  | reqUpdate => cases laid; rfl
  | updateResp => cases laid; rfl
  | reqResendChunk => cases laid; rfl
  | updateDone => cases laid; rfl

theorem packPayload_bytes (laid : payload.message.layout? = some layout)
    (buffer memory data : Nat → UInt8) {maxLen : Int}
    (fits : (layout.fixed payload.targetDevice ++ layout.aux).length ≤ maxLen) :
    (fwUpdatePackPayload buffer maxLen
        (store memory 0 (layout.fixed payload.targetDevice ++ layout.aux))
        (some (store data 0 layout.aux))).1 =
        (layout.fixed payload.targetDevice ++ layout.aux).length ∧
      window (fwUpdatePackPayload buffer maxLen
          (store memory 0 (layout.fixed payload.targetDevice ++ layout.aux))
          (some (store data 0 layout.aux))).2 0
        (layout.fixed payload.targetDevice ++ layout.aux).length =
          layout.fixed payload.targetDevice ++ layout.aux := by
  have received := received_store laid memory
  have aux := received.auxLen laid
  have length := Layout.fixed_length laid payload.targetDevice
  have size : (layout.fixed payload.targetDevice ++ layout.aux).length =
      layout.type.fixedSize + layout.aux.length := by
    rw [List.length_append, length]
  have fixed : window (store memory 0 (layout.fixed payload.targetDevice ++ layout.aux)) 0
      layout.type.fixedSize = layout.fixed payload.targetDevice := by
    rw [window_received (by rw [size]; omega), List.drop_zero, ← length, List.take_left]
  obtain ⟨count, holds⟩ := @packPayload_holds _ (some (store data 0 layout.aux)) _ received.kind nofun
    buffer maxLen (by rw [aux]; omega)
  rw [aux] at count
  have auxiliary := holds.aux
  unfold auxBytes at auxiliary
  dsimp only at auxiliary
  rw [aux, window_store] at auxiliary
  refine ⟨by rw [count, size]; rfl, ?_⟩
  rw [size, window_add, Nat.zero_add, auxiliary, holds.fields.window (Nat.le_of_eq (Nat.zero_add _)),
    fixed]

theorem processBuffer_device (sent : payload.bytes? = some bytes) (d : Device) (answers : Answers)
    (behind : Nat → UInt8) (bufLen : Int) :
    d.processBuffer answers (store behind 0 bytes) bufLen = d.processMessage answers payload := by
  obtain ⟨layout, laid, rfl⟩ := Option.map_eq_some_iff.mp sent
  have received := received_store laid behind
  have data := received.data
  have aux := received.aux
  generalize store behind 0 (layout.fixed payload.targetDevice ++ layout.aux) = buffer
    at received data aux ⊢
  unfold Device.processBuffer
  dsimp only
  rw [if_neg received.counted, received.mapped]
  dsimp only
  rw [received.header, data]
  obtain ⟨targetDevice, message⟩ := payload
  cases message with
  | unknown => cases laid
  | resetResp => cases laid
  | reqVersionInfo => cases laid
  | versionInfoResp => cases laid
  | updateChunk chunk =>
    cases laid
    have same : deviceMessage buffer (.chunk chunk.sessionId chunk.chunkId chunk.dataLen) =
        .updateChunk chunk := by
      refine congrArg Message.updateChunk ((Chunk.mk.injEq ..).mpr ⟨rfl, rfl, ?_⟩)
      rw [chunk.dataLen_toNat]
      exact aux
    exact congrArg (fun message => d.processMessage answers ⟨targetDevice, message⟩) same
  | reqReset => rfl
  | reqUpdate => rfl
  | updateResp => rfl
  | updateProgress => rfl
  | reqResendChunk => rfl
  | updateDone => rfl

theorem processBuffer_host (sent : payload.bytes? = some bytes) (h : Host) (answers : HostAnswers)
    (behind : Nat → UInt8) (bufLen : Int) :
    h.processBuffer answers (store behind 0 bytes) bufLen = h.processMessage answers payload := by
  obtain ⟨layout, laid, rfl⟩ := Option.map_eq_some_iff.mp sent
  have received := received_store laid behind
  have data := received.data
  unfold Host.processBuffer
  dsimp only
  rw [if_neg received.counted, received.mapped]
  dsimp only
  rw [received.header, data]
  obtain ⟨targetDevice, message⟩ := payload
  cases message with
  | unknown => cases laid
  | resetResp => cases laid
  | reqVersionInfo => cases laid
  | versionInfoResp => cases laid
  | reqReset => rfl
  | reqUpdate => rfl
  | updateChunk => rfl
  | updateResp sessionId totlChunks status =>
    show h.processMessage answers ⟨targetDevice, (UpdateStatus.ofNumber? status.number).elim _ _⟩ = _
    rw [status.ofNumber?_number]
    rfl
  | updateProgress sessionId status =>
    show h.processMessage answers ⟨targetDevice, (UpdateStatus.ofNumber? status.number).elim _ _⟩ = _
    rw [status.ofNumber?_number]
    rfl
  | reqResendChunk sessionId chunkId reason =>
    show h.processMessage answers ⟨targetDevice, (ResendReason.ofNumber? reason.number).elim _ _⟩ = _
    rw [reason.ofNumber?_number]
    rfl
  | updateDone sessionId status =>
    show h.processMessage answers ⟨targetDevice, (UpdateStatus.ofNumber? status.number).elim _ _⟩ = _
    rw [status.ofNumber?_number]
    rfl

end Received

theorem buildNextChunk_bytes {h : Host} {answers : HostAnswers} {payload : Payload}
    (sent : payload ∈ (h.sendNextChunk answers).2)
    (divisible : h.AtLastChunk → h.sessionChunkSize ≠ 0)
    (inside : h.nextChunkId.toNat * h.sessionChunkSize.toNat + h.nextDataLen.toNat ≤
      h.sessionImageSize.toNat) (memory : Nat → UInt8) :
    ∃ built bytes, h.buildNextChunk memory = some built ∧ payload.bytes? = some bytes ∧
      window built 0 bytes.length = bytes := by
  unfold Host.sendNextChunk at sent
  split at sent
  · cases sent
  case isFalse missing =>
    dsimp only at sent
    split at sent
    · rename_i whole
      rw [Host.mem_transmit sent]
      refine ⟨_, h.nextChunkFields ++ h.getImageChunk
        (h.nextChunkId.toNat * h.sessionChunkSize.toNat) h.nextDataLen.toNat,
        buildNextChunk_eq (UInt16.not_le.mp missing) divisible, ?_, ?_⟩
      · show some ((toBytes 4 h.sessionTarget.toNat ++ (toBytes 4 MsgType.updateChunk.value.toNat ++
          (toBytes 2 h.sessionId.toNat ++ (toBytes 2 h.nextChunkId.toNat ++
            toBytes 2 (UInt16.ofNat (List.length _)).toNat)))) ++ _) = _
        rw [whole, UInt16.ofNat_toNat]
        rfl
      · have appended := store_append memory 0 h.nextChunkFields
          (h.getImageChunk (h.nextChunkId.toNat * h.sessionChunkSize.toNat) h.nextDataLen.toNat)
        rw [show 0 + h.nextChunkFields.length = 14 from rfl] at appended
        rw [readImageChunk_eq inside, appended]
        exact window_store ..
    · cases sent

end InertialSense.FirmwareUpdate
