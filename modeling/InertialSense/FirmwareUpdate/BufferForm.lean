import InertialSense.FirmwareUpdate.Device
import InertialSense.FirmwareUpdate.Packing

/-! The forms of `fwUpdate_processMessage` that get a buffer and its length. The buffer is mapped
to a `payload_t`, which is processed. The host is an abstract class, and what it calls for a
message belongs to the class that implements it. -/

namespace InertialSense.FirmwareUpdate

open Foundation

/-- A message in memory once the high-order bits of its type are cleared. -/
def clearedType (buffer : Nat → UInt8) : Nat → UInt8 :=
  store buffer 4 (toBytes 4 ((msgHeader buffer).msgType &&& 0xFFFF).toNat)

/-- The message as the device processes it. It reads nothing of the messages of a device. -/
def deviceMessage (payload : Nat → UInt8) : MsgData → Message
  | .reqReset resetFlags => .reqReset resetFlags
  | .reqUpdate request => .reqUpdate request
  | .chunk sessionId chunkId dataLen =>
    .updateChunk
      { sessionId
        chunkId
        data := window payload 14 dataLen.toNat
        fits := by rw [window_length]; exact dataLen.toNat_lt }
  | .reqVersion => .reqVersionInfo
  | _ => .unknown

/-- `FirmwareUpdateDevice::fwUpdate_processMessage` of a buffer; nothing reads its length. -/
def Device.processBuffer (d : Device) (answers : Answers) (buffer : Nat → UInt8) (_bufLen : Int) :
    Outcome :=
  let mapped := fwUpdateMapBufferToPayload buffer none
  if mapped.count ≤ 0 then { device := d, result := false, effects := [] }
  else
    d.processMessage answers
      { targetDevice := (msgHeader mapped.buffer).targetDevice
        message := ((msgData mapped.buffer).map (deviceMessage mapped.buffer)).getD .unknown }

/-- A `FirmwareUpdateHost`: the members that it works on, and the rest of the object, which has
also what its handlers have done. A status is any number. -/
structure HostObject (σ : Type) where
  lastMessage : UInt32
  resendCount : UInt32
  sessionId : UInt16
  sessionStatus : UInt16
  nextChunkId : UInt16
  rest : σ

/-- The virtual functions of the host, with what they read of their message. The text of a report
is passed on as a string. -/
structure HostHandlers (σ : Type) where
  handleUpdateResponse : HostObject σ → (sessionId totlChunks status : UInt16) → HostObject σ × Bool
  handleUpdateProgress : HostObject σ → (sessionId status numChunks totlChunks : UInt16) →
    (msgLevel : UInt8) → (message : Nat → UInt8) → HostObject σ × Bool
  handleResendChunk : HostObject σ → (sessionId chunkId reason : UInt16) → HostObject σ × Bool
  handleDone : HostObject σ → (sessionId status : UInt16) → HostObject σ × Bool
  handleVersionResponse : HostObject σ → VersionResp → HostObject σ × Bool

/-- The string that `ISFirmwareUpdater` makes of a progress report. -/
def progressText (payload : Nat → UInt8) (msgLen : UInt8) : Nat → UInt8 :=
  if msgLen = 0 then fun _ => 0 else stringAt 0 payload 18

namespace HostObject

variable {σ : Type}

/-- `FirmwareUpdateHost::fwUpdate_processMessage` of a message of known type. -/
def processMessage (h : HostObject σ) (handlers : HostHandlers σ) (currentTimeMs : UInt32)
    (payload : Nat → UInt8) (fields : MsgData) : HostObject σ × Bool :=
  if (msgHeader payload).targetDevice ≠ targetHost then (h, false)
  else
    let h := { h with lastMessage := currentTimeMs }
    match fields with
    | .updateResp sessionId totlChunks status =>
      if sessionId = h.sessionId then handlers.handleUpdateResponse h sessionId totlChunks status
      else (h, false)
    | .progress sessionId status numChunks totlChunks msgLevel msgLen =>
      if sessionId = h.sessionId then
        handlers.handleUpdateProgress h sessionId status numChunks totlChunks msgLevel
          (progressText payload msgLen)
      else (h, false)
    | .reqResend sessionId chunkId reason =>
      if sessionId = h.sessionId then
        handlers.handleResendChunk
          { h with
            resendCount := h.resendCount + (h.nextChunkId.toUInt32 - chunkId.toUInt32)
            nextChunkId := chunkId } sessionId chunkId reason
      else (h, false)
    | .respDone sessionId status =>
      if sessionId = h.sessionId then
        handlers.handleDone { h with sessionStatus := status } sessionId status
      else (h, false)
    | .versionResp response => handlers.handleVersionResponse h response
    | _ => (h, false)

/-- `FirmwareUpdateHost::fwUpdate_processMessage` of a buffer; nothing reads its length. -/
def processBuffer (h : HostObject σ) (handlers : HostHandlers σ) (currentTimeMs : UInt32)
    (buffer : Nat → UInt8) (_bufLen : Int) : HostObject σ × Bool :=
  let mapped := fwUpdateMapBufferToPayload buffer none
  if mapped.count ≤ 0 then (h, false)
  else
    match msgData mapped.buffer with
    | some fields => h.processMessage handlers currentTimeMs mapped.buffer fields
    | none => (h, false)

end HostObject

/-! ### Which bytes are read -/

/-- The message has a known type, and lies with its auxiliary data before the end. -/
def WholeMessage (buffer : Nat → UInt8) (bufLen : Int) : Prop :=
  msgType? (clearedType buffer) ≠ none ∧ packedSize (clearedType buffer) ≤ bufLen

/-- The message has a known type, and its fixed part or its auxiliary data goes past the end. -/
def Truncated (buffer : Nat → UInt8) (bufLen : Int) : Prop :=
  msgType? (clearedType buffer) ≠ none ∧ bufLen < packedSize (clearedType buffer)

/-- Only the bytes before the end matter, and a message that goes past it is rejected. -/
structure ReadsWithin {ρ : Type} (process : (Nat → UInt8) → Int → ρ) (rejected : ρ → Prop)
    (buffer : Nat → UInt8) (bufLen : Int) : Prop where
  same : ∀ buffer', SameBelow bufLen.toNat buffer buffer' →
    process buffer' bufLen = process buffer bufLen
  rejects : Truncated buffer bufLen → rejected (process buffer bufLen)

/-- Nothing has happened to the device, and no chunk is written. -/
structure Device.Rejects (d : Device) (outcome : Outcome) : Prop where
  result : outcome.result = false
  device : outcome.device = d
  chunks : ∀ write, .writeImageChunk write ∉ outcome.effects

/-- Every device reads within the message. -/
def DeviceReadsWithin (buffer : Nat → UInt8) (bufLen : Int) : Prop :=
  ∀ (d : Device) (answers : Answers),
    ReadsWithin (d.processBuffer answers) d.Rejects buffer bufLen

/-- Every host reads within the message. -/
def HostReadsWithin (buffer : Nat → UInt8) (bufLen : Int) : Prop :=
  ∀ (σ : Type) (handlers : HostHandlers σ) (h : HostObject σ) (currentTimeMs : UInt32),
    ReadsWithin (h.processBuffer handlers currentTimeMs) (· = (h, false)) buffer bufLen

/-- The bytes of the type before the end are of none. -/
def UnknownType (buffer : Nat → UInt8) (bufLen : Int) : Prop :=
  4 < bufLen ∧ (∀ type : MsgType, type.value ≠ (buffer 4).toUInt32) ∨ 5 < bufLen ∧ buffer 5 ≠ 0

/-- A byte of the target before the end is not of the host. -/
def ForeignTarget (buffer : Nat → UInt8) (bufLen : Int) : Prop :=
  ∃ k : Nat, k < 4 ∧ (k : Int) < bufLen ∧ buffer k ≠ 0

/-- The text of a progress report ends before the end. -/
def TextWithin (buffer : Nat → UInt8) (bufLen : Int) : Prop :=
  msgType? (clearedType buffer) = some .updateProgress → progressMsgLen buffer = 0 ∨
    ∃ k : Nat, 18 ≤ k ∧ (k : Int) < bufLen ∧ buffer k = 0

/-! ### The cleared type -/

section Cleared

variable {buffer buffer' : Nat → UInt8} {bufLen : Int} {type : MsgType}

private theorem clearedBytes (buffer : Nat → UInt8) :
    toBytes 4 ((msgHeader buffer).msgType &&& 0xFFFF).toNat = [buffer 4, buffer 5, 0, 0] := by
  have kept : ((msgHeader buffer).msgType &&& 0xFFFF).toNat =
      fromBytes [buffer 4, buffer 5, 0, 0] := by
    have low := (buffer 4).toNat_lt
    have high := (buffer 5).toNat_lt
    have whole : (msgHeader buffer).msgType.toNat = (buffer 4).toNat + 256 * ((buffer 5).toNat +
        256 * ((buffer 6).toNat + 256 * ((buffer 7).toNat + 256 * 0))) := by
      have bound := fromBytes_lt (window buffer 4 4)
      rw [window_length] at bound
      exact UInt32.toNat_ofNat_of_lt' bound
    have mask : (msgHeader buffer).msgType.toNat &&& 0xFFFF =
        (msgHeader buffer).msgType.toNat % 2 ^ 16 := Nat.and_two_pow_sub_one_eq_mod _ 16
    rw [UInt32.toNat_and]
    refine mask.trans ?_
    rw [whole]
    show _ = (buffer 4).toNat + 256 * ((buffer 5).toNat + 256 * (0 + 256 * (0 + 256 * 0)))
    omega
  rw [kept]
  exact toBytes_fromBytes [buffer 4, buffer 5, 0, 0]

theorem clearedType_apply (k : Nat) :
    clearedType buffer k = if k = 6 ∨ k = 7 then 0 else buffer k := by
  unfold clearedType
  rw [clearedBytes]
  by_cases inside : 4 ≤ k ∧ k < 8
  · obtain rfl | rfl | rfl | rfl : k = 4 ∨ k = 5 ∨ k = 6 ∨ k = 7 := by omega
    · rfl
    · rfl
    · rfl
    · rfl
  · rw [store_outside _ (by simp only [List.length_cons, List.length_nil]; omega),
      if_neg (by omega)]

private theorem clearedType_sameBelow {count : Nat} (same : SameBelow count buffer buffer') :
    SameBelow count (clearedType buffer') (clearedType buffer) := by
  intro k inside
  rw [clearedType_apply, clearedType_apply, same k inside]

private theorem cleared_msgType (buffer : Nat → UInt8) :
    (msgHeader (clearedType buffer)).msgType.toNat = (buffer 4).toNat + 256 * (buffer 5).toNat := by
  have low := (buffer 4).toNat_lt
  have high := (buffer 5).toNat_lt
  have bytes : window (clearedType buffer) 4 4 = [buffer 4, buffer 5, 0, 0] := by
    rw [← clearedBytes]
    have stored := window_store buffer 4 (toBytes 4 ((msgHeader buffer).msgType &&& 0xFFFF).toNat)
    rwa [toBytes_length] at stored
  show (wordAt (clearedType buffer) 4).toNat = _
  unfold wordAt
  rw [bytes]
  show (UInt32.ofNat ((buffer 4).toNat + 256 * ((buffer 5).toNat + 256 * (0 + 256 * (0 + 256 * 0))))).toNat = _
  rw [UInt32.toNat_ofNat_of_lt' (Nat.lt_of_le_of_lt (by omega : _ ≤ 2 ^ 16) (by decide))]
  omega

private theorem WholeMessage.congr (whole : WholeMessage buffer bufLen)
    (same : SameBelow bufLen.toNat buffer buffer') :
    ∃ type, msgType? (clearedType buffer) = some type ∧ msgType? (clearedType buffer') = some type ∧
      SameBelow (type.fixedSize + auxLen (clearedType buffer)) (clearedType buffer')
        (clearedType buffer) := by
  obtain ⟨known, inside⟩ := whole
  obtain ⟨type, kind⟩ := Option.ne_none_iff_exists'.mp known
  rw [packedSize_of_msgType? kind] at inside
  have message : SameBelow (type.fixedSize + auxLen (clearedType buffer)) (clearedType buffer')
      (clearedType buffer) := (clearedType_sameBelow same).mono (by omega)
  have header := type.header_le_fixedSize
  exact ⟨type, kind, (msgType?_congr (message.mono (by omega))).trans kind, message⟩

theorem MsgType.ofValue?_eq_none {number : UInt32} :
    MsgType.ofValue? number = none ↔ ∀ type : MsgType, type.value ≠ number := by
  unfold MsgType.ofValue?
  rw [List.find?_eq_none]
  constructor
  · intro none type same
    have listed : type ∈ [reqReset, resetResp, reqUpdate, updateResp, updateChunk, updateProgress,
        reqResendChunk, updateDone, reqVersionInfo, versionInfoResp] := by
      cases type <;> simp
    exact none type listed (decide_eq_true same)
  · intro other type _ same
    exact other type (of_decide_eq_true same)

private theorem unknown_iff : msgType? (clearedType buffer) = none ↔
    (∀ type : MsgType, type.value ≠ (buffer 4).toUInt32) ∨ buffer 5 ≠ 0 := by
  have number := cleared_msgType buffer
  unfold msgType?
  rw [MsgType.ofValue?_eq_none]
  by_cases high : buffer 5 = 0
  · have same : (msgHeader (clearedType buffer)).msgType = (buffer 4).toUInt32 := by
      rw [← UInt32.toNat_inj, number, high, UInt8.toNat_toUInt32]
      rfl
    rw [same]
    simp only [high, ne_eq, not_true_eq_false, or_false]
  · refine iff_of_true (fun type same => ?_) (.inr high)
    have small : type.value.toNat < 256 := by
      cases type <;> decide
    have positive : 0 < (buffer 5).toNat := by
      rw [Nat.pos_iff_ne_zero, ne_eq, ← UInt8.toNat_zero, UInt8.toNat_inj]
      exact high
    rw [same, number] at small
    omega

private theorem UnknownType.all (unknown : UnknownType buffer bufLen)
    (same : SameBelow bufLen.toNat buffer buffer') : msgType? (clearedType buffer') = none := by
  rw [unknown_iff]
  rcases unknown with ⟨inside, other⟩ | ⟨inside, high⟩
  · left
    rw [← same 4 (by omega)]
    exact other
  · right
    rw [← same 5 (by omega)]
    exact high

/-- What is before the end, and behind it a request for a reset of the host. -/
private def completed (buffer : Nat → UInt8) (bufLen : Int) (k : Nat) : UInt8 :=
  if (k : Int) < bufLen then buffer k else if k = 4 then 1 else 0

private theorem completed_sameBelow (buffer : Nat → UInt8) (bufLen : Int) :
    SameBelow bufLen.toNat buffer (completed buffer bufLen) := by
  intro k inside
  exact (if_pos (by omega)).symm

private theorem completed_known (unknown : ¬UnknownType buffer bufLen) :
    ∃ type, msgType? (clearedType (completed buffer bufLen)) = some type := by
  refine Option.ne_none_iff_exists'.mp fun none => unknown ?_
  rw [unknown_iff] at none
  rcases none with other | high
  · by_cases inside : (4 : Int) < bufLen
    · refine .inl ⟨inside, fun type => ?_⟩
      have here : completed buffer bufLen 4 = buffer 4 := if_pos inside
      rw [← here]
      exact other type
    · have here : completed buffer bufLen 4 = 1 := if_neg inside
      exact absurd (congrArg UInt8.toUInt32 here).symm (other .reqReset)
  · by_cases inside : (5 : Int) < bufLen
    · have here : completed buffer bufLen 5 = buffer 5 := if_pos inside
      exact .inr ⟨inside, here ▸ high⟩
    · exact absurd (if_neg inside) high

end Cleared

section Device

variable {d : Device} {answers : Answers} {buffer buffer' : Nat → UInt8} {bufLen : Int}
  {type : MsgType}

private theorem Device.processBuffer_unknown (unknown : msgType? (clearedType buffer) = none) :
    d.processBuffer answers buffer bufLen = { device := d, result := false, effects := [] } := by
  unfold Device.processBuffer
  exact if_pos (Int.le_of_eq (packedSize_of_unknown unknown))

private theorem packedSize_pos {payload : Nat → UInt8} (kind : msgType? payload = some type) :
    0 < packedSize payload := by
  rw [packedSize_of_msgType? kind]
  have header := type.header_le_fixedSize
  omega

private theorem Device.processBuffer_known (kind : msgType? (clearedType buffer) = some type) :
    d.processBuffer answers buffer bufLen =
      d.processMessage answers
        { targetDevice := (msgHeader (clearedType buffer)).targetDevice
          message := deviceMessage (clearedType buffer) (fieldsOf (clearedType buffer) type) } := by
  unfold Device.processBuffer
  refine (if_neg (Int.not_le.mpr (packedSize_pos kind))).trans ?_
  show d.processMessage answers
    { targetDevice := (msgHeader (clearedType buffer)).targetDevice
      message := ((msgData (clearedType buffer)).map (deviceMessage (clearedType buffer))).getD
        .unknown } = _
  rw [msgData_of_msgType? kind, Option.map_some, Option.getD_some]

private theorem deviceMessage_congr {payload payload' : Nat → UInt8}
    (kind : msgType? payload = some type)
    (same : SameBelow (type.fixedSize + auxLen payload) payload' payload) :
    deviceMessage payload' (fieldsOf payload' type) = deviceMessage payload (fieldsOf payload type) := by
  have fields : fieldsOf payload' type = fieldsOf payload type :=
    fieldsOf_congr (same.mono (Nat.le_add_right ..))
  rw [fields]
  cases type with
  | updateChunk =>
    have len : auxLen payload = (chunkDataLen payload).toNat := by
      unfold auxLen
      rw [kind]
    have data : window payload' 14 (chunkDataLen payload).toNat =
        window payload 14 (chunkDataLen payload).toNat := same.window (by rw [len]; exact Nat.le_refl _)
    unfold fieldsOf deviceMessage
    simp only [data]
  | _ => rfl

theorem WholeMessage.device_same (whole : WholeMessage buffer bufLen)
    (same : SameBelow bufLen.toNat buffer buffer') :
    d.processBuffer answers buffer' bufLen = d.processBuffer answers buffer bufLen := by
  obtain ⟨type, kind, kind', message⟩ := whole.congr same
  have header := type.header_le_fixedSize
  rw [Device.processBuffer_known kind, Device.processBuffer_known kind',
    deviceMessage_congr kind message, msgHeader_congr (message.mono (by omega))]

private theorem sendProgress_lastMessage (d : Device) (answers : Answers) :
    (d.sendProgress answers).1.lastMessage = d.lastMessage := by
  unfold Device.sendProgress
  dsimp only
  split
  · rfl
  · rfl

private theorem handleChunk_lastMessage (d : Device) (answers : Answers) (target : UInt32)
    (chunk : Chunk) : (d.handleChunk answers target chunk).device.lastMessage = d.lastMessage := by
  unfold Device.handleChunk
  split
  · rfl
  split
  · rfl
  split
  · rfl
  split
  · rfl
  dsimp only
  split
  · rfl
  split
  · exact sendProgress_lastMessage _ answers
  · rfl

theorem Device.processMessage_lastMessage {payload : Payload}
    (own : payload.targetDevice = d.sessionTarget) :
    (d.processMessage answers payload).device.lastMessage = answers.currentTimeMs := by
  have dispatched (d : Device) : (d.dispatch answers payload).device.lastMessage = d.lastMessage := by
    obtain ⟨target, message⟩ := payload
    cases message with
    | updateChunk chunk => exact handleChunk_lastMessage d answers target chunk
    | _ => rfl
  unfold Device.processMessage
  rw [if_neg (not_not.mpr own)]
  dsimp only
  split
  · exact (sendProgress_lastMessage _ answers).trans (dispatched _)
  · exact dispatched _

theorem deviceReadsWithin_iff : DeviceReadsWithin buffer bufLen ↔
    WholeMessage buffer bufLen ∨ UnknownType buffer bufLen := by
  constructor
  · intro reads
    by_contra neither
    obtain ⟨part, known⟩ := not_or.mp neither
    obtain ⟨type, kind⟩ := completed_known known
    obtain ⟨same, rejects⟩ := reads
      (Device.create (msgHeader (clearedType (completed buffer bufLen))).targetDevice)
      { Answers.granting with currentTimeMs := 1 }
    have heard := same _ (completed_sameBelow buffer bufLen)
    rw [Device.processBuffer_known kind] at heard
    have time := congrArg (fun outcome : Outcome => outcome.device.lastMessage) heard
    dsimp only at time
    rw [Device.processMessage_lastMessage rfl] at time
    cases kind' : msgType? (clearedType buffer) with
    | none =>
      rw [Device.processBuffer_unknown kind'] at time
      cases time
    | some type' =>
      have some : msgType? (clearedType buffer) ≠ none := kind' ▸ Option.some_ne_none type'
      have unchanged := (rejects ⟨some, Int.not_le.mp fun inside => part ⟨some, inside⟩⟩).device
      rw [unchanged] at time
      cases time
  · rintro (whole | unknown) d answers
    · refine ⟨fun buffer' same => whole.device_same same, fun truncated => ?_⟩
      exact absurd whole.2 (Int.not_le.mpr truncated.2)
    · have none := unknown.all fun _ _ => rfl
      refine ⟨fun buffer' same => ?_, fun truncated => absurd none truncated.1⟩
      rw [Device.processBuffer_unknown none, Device.processBuffer_unknown (unknown.all same)]

end Device

section Host

variable {σ : Type} {h : HostObject σ} {handlers : HostHandlers σ} {currentTimeMs : UInt32}
  {buffer buffer' : Nat → UInt8} {bufLen : Int} {type : MsgType}

private theorem HostObject.processBuffer_unknown (unknown : msgType? (clearedType buffer) = none) :
    h.processBuffer handlers currentTimeMs buffer bufLen = (h, false) := by
  unfold HostObject.processBuffer
  exact if_pos (Int.le_of_eq (packedSize_of_unknown unknown))

private theorem HostObject.processBuffer_known (kind : msgType? (clearedType buffer) = some type) :
    h.processBuffer handlers currentTimeMs buffer bufLen =
      h.processMessage handlers currentTimeMs (clearedType buffer)
        (fieldsOf (clearedType buffer) type) := by
  unfold HostObject.processBuffer
  refine (if_neg (Int.not_le.mpr (packedSize_pos kind))).trans ?_
  have mapped : (fwUpdateMapBufferToPayload buffer none).buffer = clearedType buffer := rfl
  rw [mapped, msgData_of_msgType? kind]

private theorem target_cleared_eq_zero :
    (msgHeader (clearedType buffer)).targetDevice = targetHost ↔ ∀ k < 4, buffer k = 0 := by
  have zero : wordAt (fun _ => 0) 0 = targetHost := by decide
  unfold msgHeader
  rw [← zero, wordAt_inj, window_eq_iff]
  constructor
  · intro same k inside
    have cell := same k ⟨Nat.zero_le _, by omega⟩
    rwa [clearedType_apply, if_neg (by omega)] at cell
  · rintro same k ⟨-, inside⟩
    rw [clearedType_apply, if_neg (by omega)]
    exact same k (by omega)

private theorem ForeignTarget.all (foreign : ForeignTarget buffer bufLen)
    (same : SameBelow bufLen.toNat buffer buffer') :
    h.processBuffer handlers currentTimeMs buffer' bufLen = (h, false) := by
  obtain ⟨k, inside, before, other⟩ := foreign
  cases kind : msgType? (clearedType buffer') with
  | none => exact HostObject.processBuffer_unknown kind
  | some type =>
    rw [HostObject.processBuffer_known kind]
    unfold HostObject.processMessage
    refine if_pos fun own => other ?_
    rw [same k (by omega)]
    exact target_cleared_eq_zero.mp own k inside

private theorem cleared_msgLen : progressMsgLen (clearedType buffer) = progressMsgLen buffer := by
  unfold progressMsgLen
  rw [clearedType_apply]
  rfl

private theorem progressText_congr (text : TextWithin buffer bufLen)
    (same : SameBelow bufLen.toNat buffer buffer')
    (kind : msgType? (clearedType buffer) = some .updateProgress) :
    progressText (clearedType buffer') (progressMsgLen buffer) =
      progressText (clearedType buffer) (progressMsgLen buffer) := by
  unfold progressText
  rcases text kind with none | ⟨k, begins, inside, nul⟩
  · rw [none]
    rfl
  · have here : clearedType buffer k = 0 := by
      rwa [clearedType_apply, if_neg (by omega)]
    rw [stringAt_congr (fun place before => (clearedType_sameBelow same place before).symm)
      begins (by omega) here]

theorem WholeMessage.host_same (whole : WholeMessage buffer bufLen) (text : TextWithin buffer bufLen)
    (same : SameBelow bufLen.toNat buffer buffer') :
    h.processBuffer handlers currentTimeMs buffer' bufLen =
      h.processBuffer handlers currentTimeMs buffer bufLen := by
  obtain ⟨type, kind, kind', message⟩ := whole.congr same
  have header := type.header_le_fixedSize
  have fields : fieldsOf (clearedType buffer') type = fieldsOf (clearedType buffer) type :=
    fieldsOf_congr (message.mono (Nat.le_add_right ..))
  rw [HostObject.processBuffer_known kind, HostObject.processBuffer_known kind', fields]
  unfold HostObject.processMessage
  rw [msgHeader_congr (message.mono (by omega))]
  split
  · rfl
  cases type with
  | updateProgress =>
    unfold fieldsOf
    dsimp only
    rw [cleared_msgLen, progressText_congr text same kind]
  | _ => rfl

/-- Handlers that keep the text of a report. -/
private def recording : HostHandlers (Nat → UInt8) :=
  { handleUpdateResponse := fun h _ _ _ => (h, false)
    handleUpdateProgress := fun h _ _ _ _ _ message => ({ h with rest := message }, true)
    handleResendChunk := fun h _ _ _ => (h, false)
    handleDone := fun h _ _ => (h, false)
    handleVersionResponse := fun h _ => (h, false) }

private def blankHost : HostObject (Nat → UInt8) :=
  { lastMessage := 0
    resendCount := 0
    sessionId := 0
    sessionStatus := 0
    nextChunkId := 0
    rest := fun _ => 0 }

private theorem processMessage_lastMessage {h : HostObject (Nat → UInt8)} {payload : Nat → UInt8}
    (own : (msgHeader payload).targetDevice = targetHost) (fields : MsgData) :
    (h.processMessage recording currentTimeMs payload fields).1.lastMessage = currentTimeMs := by
  unfold HostObject.processMessage
  rw [if_neg (not_not.mpr own)]
  cases fields with
  | updateResp | progress | reqResend | respDone =>
    dsimp only
    split
    · rfl
    · rfl
  | _ => rfl

private theorem recording_text {h : HostObject (Nat → UInt8)}
    (kind : msgType? (clearedType buffer) = some .updateProgress)
    (own : (msgHeader (clearedType buffer)).targetDevice = targetHost)
    (session : h.sessionId = halfAt (clearedType buffer) 8) :
    (h.processBuffer recording currentTimeMs buffer bufLen).1.rest =
      progressText (clearedType buffer) (progressMsgLen (clearedType buffer)) := by
  rw [HostObject.processBuffer_known kind]
  unfold HostObject.processMessage
  rw [if_neg (not_not.mpr own)]
  unfold fieldsOf
  dsimp only
  rw [if_pos session.symm]
  rfl

private theorem reads_text (reads : HostReadsWithin buffer bufLen)
    (whole : WholeMessage buffer bufLen)
    (kind : msgType? (clearedType buffer) = some .updateProgress)
    (own : (msgHeader (clearedType buffer)).targetDevice = targetHost)
    (same : SameBelow bufLen.toNat buffer buffer') :
    progressText (clearedType buffer') (progressMsgLen buffer) =
      progressText (clearedType buffer) (progressMsgLen buffer) := by
  obtain ⟨type, kind', changed, message⟩ := whole.congr same
  obtain rfl : type = .updateProgress := Option.some.inj (kind'.symm.trans kind)
  have fields : MsgType.updateProgress.fixedSize = 18 := rfl
  have header := msgHeader_congr (message.mono (by omega : 8 ≤ _))
  have session : halfAt (clearedType buffer') 8 = halfAt (clearedType buffer) 8 :=
    message.halfAt (by omega)
  have len : progressMsgLen (clearedType buffer') = progressMsgLen (clearedType buffer) :=
    message 17 (by omega)
  have result := (reads _ recording
    { blankHost with sessionId := halfAt (clearedType buffer) 8 } 0).same buffer' same
  have texts := congrArg (fun acted => acted.1.rest) result
  dsimp only at texts
  rwa [recording_text changed (header ▸ own) session.symm, recording_text kind own rfl, len,
    cleared_msgLen] at texts

/-- A text that does not end is read past the end of its report. -/
private theorem textWithin_of_reads (reads : HostReadsWithin buffer bufLen)
    (whole : WholeMessage buffer bufLen) (own : ¬ForeignTarget buffer bufLen) :
    TextWithin buffer bufLen := by
  intro kind
  by_contra endless
  obtain ⟨long, noNul⟩ := not_or.mp endless
  have room : 18 ≤ bufLen.toNat := by
    have length := whole.2
    rw [packedSize_of_msgType? kind] at length
    have fields : MsgType.updateProgress.fixedSize = 18 := rfl
    omega
  have target : (msgHeader (clearedType buffer)).targetDevice = targetHost := by
    rw [target_cleared_eq_zero]
    intro k inside
    by_contra other
    exact own ⟨k, inside, by omega, other⟩
  obtain ⟨count, place⟩ := Nat.exists_eq_add_of_le room
  have same : SameBelow bufLen.toNat buffer
      (Function.update buffer bufLen.toNat (buffer bufLen.toNat + 1)) := fun k inside =>
    (Function.update_of_ne (Nat.ne_of_lt inside) _ _).symm
  have nonzero (j : Nat) (early : j < count) : clearedType buffer (18 + j) ≠ 0 := by
    rw [clearedType_apply, if_neg (by omega)]
    exact fun nul => noNul ⟨18 + j, by omega, by omega, nul⟩
  have nonzero' (j : Nat) (early : j < count) :
      clearedType (Function.update buffer bufLen.toNat (buffer bufLen.toNat + 1)) (18 + j) ≠ 0 := by
    rw [clearedType_sameBelow same (18 + j) (by omega)]
    exact nonzero j early
  have texts := congrFun (reads_text reads whole kind target same) count
  unfold progressText at texts
  rw [if_neg long, if_neg long, stringAt_eq nonzero, stringAt_eq nonzero', ← place, clearedType_apply,
    clearedType_apply, if_neg (by omega), if_neg (by omega), Function.update_self] at texts
  have byte := congrArg UInt8.toNat texts
  rw [UInt8.toNat_add, UInt8.toNat_one] at byte
  omega

/-- A message that may be for the host, and of a known type, is whole. -/
private theorem wholeMessage_of_reads (reads : HostReadsWithin buffer bufLen)
    (own : ¬ForeignTarget buffer bufLen) (known : ¬UnknownType buffer bufLen) :
    WholeMessage buffer bufLen := by
  obtain ⟨type, kind⟩ := completed_known known
  have target : (msgHeader (clearedType (completed buffer bufLen))).targetDevice = targetHost := by
    rw [target_cleared_eq_zero]
    intro k small
    unfold completed
    split
    case isTrue inside =>
      by_contra other
      exact own ⟨k, small, inside, other⟩
    case isFalse => exact if_neg (by omega)
  obtain ⟨same, rejects⟩ := reads _ recording blankHost 1
  have heard := same _ (completed_sameBelow buffer bufLen)
  rw [HostObject.processBuffer_known kind] at heard
  have time : _ = HostObject.lastMessage _ := congrArg (fun acted => acted.1.lastMessage) heard
  rw [processMessage_lastMessage target] at time
  cases kind' : msgType? (clearedType buffer) with
  | none =>
    rw [HostObject.processBuffer_unknown kind'] at time
    cases time
  | some type' =>
    have typed : msgType? (clearedType buffer) ≠ none := kind' ▸ Option.some_ne_none type'
    refine ⟨typed, ?_⟩
    by_contra past
    rw [rejects ⟨typed, Int.not_le.mp past⟩] at time
    cases time

theorem hostReadsWithin_iff : HostReadsWithin buffer bufLen ↔
    ForeignTarget buffer bufLen ∨ UnknownType buffer bufLen ∨
      WholeMessage buffer bufLen ∧ TextWithin buffer bufLen := by
  constructor
  · intro reads
    by_cases foreign : ForeignTarget buffer bufLen
    · exact .inl foreign
    by_cases unknown : UnknownType buffer bufLen
    · exact .inr (.inl unknown)
    have whole := wholeMessage_of_reads reads foreign unknown
    exact .inr (.inr ⟨whole, textWithin_of_reads reads whole foreign⟩)
  · rintro (foreign | unknown | ⟨whole, text⟩) σ handlers h currentTimeMs
    · have own := @ForeignTarget.all σ h handlers currentTimeMs buffer buffer bufLen foreign fun _ _ => rfl
      refine ⟨fun buffer' same => ?_, fun _ => own⟩
      rw [own, foreign.all same]
    · have none := unknown.all fun _ _ => rfl
      refine ⟨fun buffer' same => ?_, fun truncated => absurd none truncated.1⟩
      rw [HostObject.processBuffer_unknown none, HostObject.processBuffer_unknown (unknown.all same)]
    · refine ⟨fun buffer' same => whole.host_same text same, fun truncated => ?_⟩
      exact absurd whole.2 (Int.not_le.mpr truncated.2)

/-- Exactly when both parties read within a message. -/
theorem buffer_reads_within_iff : DeviceReadsWithin buffer bufLen ∧ HostReadsWithin buffer bufLen ↔
    UnknownType buffer bufLen ∨
      WholeMessage buffer bufLen ∧ (ForeignTarget buffer bufLen ∨ TextWithin buffer bufLen) := by
  rw [deviceReadsWithin_iff, hostReadsWithin_iff]
  constructor
  · rintro ⟨whole | unknown, foreign | unknown | ⟨whole', text⟩⟩
    · exact .inr ⟨whole, .inl foreign⟩
    · exact .inl unknown
    · exact .inr ⟨whole, .inr text⟩
    · exact .inl unknown
    · exact .inl unknown
    · exact .inl unknown
  · rintro (unknown | ⟨whole, foreign | text⟩)
    · exact ⟨.inr unknown, .inr (.inl unknown)⟩
    · exact ⟨.inl whole, .inl foreign⟩
    · exact ⟨.inl whole, .inr (.inr ⟨whole, text⟩)⟩

end Host

/-- A chunk with a byte of data behind the end of the message, which is after 14 bytes. -/
def shortChunk (k : Nat) : UInt8 := [0x10, 0, 0, 0, 5, 0, 0, 0, 7, 0, 0, 0, 1, 0, 0xAA].getD k 0

/-- The byte behind the end of the message is written. -/
theorem short_chunk_written : Truncated shortChunk 14 ∧
    (((Device.create 0x10).step (sampleRequest 7 2 Md5.initialState)).1.processBuffer .granting
      shortChunk 14).effects =
        [.writeImageChunk
          { targetId := 0x10, slotId := 0, offset := 0, data := [0xAA], status := .inProgress }] ∧
      ¬DeviceReadsWithin shortChunk 14 := by
  have past : Truncated shortChunk 14 := ⟨by decide +kernel, by decide +kernel⟩
  refine ⟨past, by decide +kernel, fun reads => ?_⟩
  have rejected := (reads ((Device.create 0x10).step (sampleRequest 7 2 Md5.initialState)).1
    .granting).rejects past
  have result := rejected.result
  revert result
  decide +kernel

end InertialSense.FirmwareUpdate
