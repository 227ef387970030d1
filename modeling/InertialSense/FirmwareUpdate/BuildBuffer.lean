import InertialSense.FirmwareUpdate.Host
import InertialSense.FirmwareUpdate.Packing
import InertialSense.Foundation.Run

/-! Where packing writes. A message that is packed goes to a buffer of the caller; the next chunk
is built in place in `build_buffer`, and its data is read from the image to where it belongs. -/

namespace InertialSense.FirmwareUpdate

open Foundation

/-- `FWUPDATE__MAX_PAYLOAD_SIZE`, the bytes of `build_buffer`. -/
def maxPayloadSize : Nat := 512 + 92

namespace Host

/-- `fwUpdate_getImageChunk` of `ISFirmwareUpdater`, which reads no further than
`session_image_size`. The subtraction wraps around. -/
def readImageChunk (h : Host) (offset length : UInt32) : List UInt8 :=
  let available := h.sessionImageSize - offset
  h.getImageChunk offset.toNat (if length < available then length else available).toNat

def nextChunkFields (h : Host) : List UInt8 :=
  toBytes 4 h.sessionTarget.toNat ++ (toBytes 4 MsgType.updateChunk.value.toNat ++
    (toBytes 2 h.sessionId.toNat ++ (toBytes 2 h.nextChunkId.toNat ++
      toBytes 2 h.nextDataLen.toNat)))

/-- The next chunk is the last one, and the size of its data a remainder. -/
def AtLastChunk (h : Host) : Prop :=
  (h.nextChunkId.toNat : Int) = (h.sessionTotalChunks.toNat : Int) - 1

instance (h : Host) : Decidable h.AtLastChunk := inferInstanceAs (Decidable (_ = _))

/-- What `fwUpdate_sendNextChunk` makes of the memory from `build_buffer` on, unless it divides by
zero. -/
def buildNextChunk (h : Host) (memory : Nat → UInt8) : Option (Nat → UInt8) :=
  if h.sessionTotalChunks ≤ h.nextChunkId then some memory
  else if h.AtLastChunk ∧ h.sessionChunkSize = 0 then none
  else
    let mapped := fwUpdateMapBufferToPayload (store memory 0 h.nextChunkFields) none
    let offset := h.nextChunkId.toUInt32 * h.sessionChunkSize.toUInt32
    let data := h.readImageChunk offset (chunkDataLen mapped.buffer).toUInt32
    match mapped.auxData with
    | some place => some (store mapped.buffer place data)
    | none => some mapped.buffer

end Host

/-! ### Packing -/

/-- Packing writes to the first `maxLen` bytes of the buffer, and refuses a message that takes more
than these. -/
structure PacksWithin (buffer : Nat → UInt8) (maxLen : Int) (payload : Nat → UInt8)
    (auxData : Option (Nat → UInt8)) : Prop where
  within : ∀ place : Nat, maxLen ≤ place →
    (fwUpdatePackPayload buffer maxLen payload auxData).2 place = buffer place
  refused : maxLen < packedSize payload →
    (fwUpdatePackPayload buffer maxLen payload auxData).1 = -1

section Packing

variable {payload buffer : Nat → UInt8} {auxData : Option (Nat → UInt8)} {maxLen : Int}

private theorem payloadSize_nonneg (payload : Nat → UInt8) :
    0 ≤ asInt (fwUpdateGetPayloadSize payload false) := by
  cases kind : msgType? payload with
  | none =>
    have unknown : fwUpdateGetPayloadSize payload false = 0 := by
      unfold fwUpdateGetPayloadSize
      rw [kind]
    rw [unknown]
    exact Int.le_refl 0
  | some type =>
    rw [payloadSize_of_msgType? kind]
    exact Int.natCast_nonneg _

/-- What is written: the fixed part, and behind it the auxiliary data. -/
private theorem packPayload_frame {place : Nat}
    (behind : packedSize payload ≤ place) :
    (fwUpdatePackPayload buffer maxLen payload auxData).2 place = buffer place := by
  have nonneg := payloadSize_nonneg payload
  unfold packedSize at behind
  unfold fwUpdatePackPayload
  dsimp only
  split
  · rfl
  split
  · rfl
  have copied : store buffer 0 (window payload 0
      (asInt (fwUpdateGetPayloadSize payload false)).toNat) place = buffer place :=
    store_outside _ (.inr (by rw [window_length]; omega))
  dsimp only
  cases auxData with
  | none => exact copied
  | some data =>
    dsimp only
    split
    case isTrue some =>
      have behind' : (asInt (fwUpdateGetPayloadSize payload false)).toNat + auxLen payload ≤ place := by
        omega
      rw [store_outside _ (.inr (by rwa [window_length]))]
      exact copied
    case isFalse none => exact copied

theorem packsWithin_iff : PacksWithin buffer maxLen payload auxData ↔
    maxLen < asInt (fwUpdateGetPayloadSize payload false) ∨ packedSize payload ≤ maxLen := by
  constructor
  · rintro ⟨-, refused⟩
    by_contra middle
    obtain ⟨room, short⟩ := not_or.mp middle
    have result := refused (Int.not_le.mp short)
    have nonneg := payloadSize_nonneg payload
    unfold fwUpdatePackPayload at result
    dsimp only at result
    rw [if_neg room] at result
    split at result
    case isTrue unknown => cases result
    case isFalse known =>
      dsimp only at result
      omega
  · rintro (short | room)
    · have untouched : fwUpdatePackPayload buffer maxLen payload auxData = (-1, buffer) := by
        unfold fwUpdatePackPayload
        exact if_pos short
      exact ⟨fun place _ => congrFun (congrArg Prod.snd untouched) place,
        fun _ => congrArg Prod.fst untouched⟩
    · refine ⟨fun place behind => packPayload_frame (Int.le_trans room behind), fun larger => ?_⟩
      exact absurd room (Int.not_le.mpr larger)

end Packing

/-! ### Building in place -/

/-- What a host is called for while its session goes on. -/
inductive HostCall where
  | sendNextChunk
  | repeatRequest
  | processMessage (payload : Payload)

namespace Host

def call (h : Host) (input : HostCall × HostAnswers) : Host × List Payload :=
  match input.1 with
  | .sendNextChunk => h.sendNextChunk input.2
  | .repeatRequest => (h, h.repeatRequest input.2)
  | .processMessage payload => h.processMessage input.2 payload

/-- The call does not begin another session. -/
def StaysInSession (h : Host) (input : HostCall × HostAnswers) : Prop :=
  ∀ payload, input.1 = .processMessage payload → ¬h.Renegotiates payload

/-- Whichever chunk is next, and the device may ask for any, it is built, and nothing behind
`build_buffer` is written. -/
def BuildsWithin (h : Host) : Prop :=
  ∀ chunkId memory, ∃ built, { h with nextChunkId := chunkId }.buildNextChunk memory = some built ∧
    ∀ place, maxPayloadSize ≤ place → built place = memory place

end Host

/-- In every state of every session with chunks of this size, the next chunk is built within
`build_buffer`. A session begins with a call of `fwUpdate_requestUpdate`, also one that
renegotiates the size. -/
def ChunksWithin (chunkSize : UInt16) : Prop :=
  ∀ (h : Host) answers arguments, RequestArguments.chunkSize arguments = chunkSize →
    ∀ inputs, Along Host.call Host.StaysInSession (h.requestUpdate answers arguments).1 inputs →
      (run Host.call (h.requestUpdate answers arguments).1 inputs).1.BuildsWithin

section InPlace

variable {h : Host} {memory : Nat → UInt8}

private theorem nextChunkFields_length (h : Host) : h.nextChunkFields.length = 14 := by
  simp [Host.nextChunkFields]

private theorem window_nextChunkFields {start count : Nat} (inside : start + count ≤ 14) :
    window (store memory 0 h.nextChunkFields) start count =
      (h.nextChunkFields.drop start).take count := by
  have whole := window_store memory 0 h.nextChunkFields
  rw [nextChunkFields_length] at whole
  have part := congrArg (fun fields => (fields.drop start).take count) whole
  rw [drop_window _ (by omega), take_window _ (by omega), Nat.zero_add] at part
  exact part

private theorem halfAt_nextChunkFields {start : Nat} {value : UInt16}
    (inside : start + 2 ≤ 14)
    (field : (h.nextChunkFields.drop start).take 2 = toBytes 2 value.toNat) :
    halfAt (store memory 0 h.nextChunkFields) start = value := by
  unfold halfAt
  rw [window_nextChunkFields inside, field, fromBytes_toBytes value.toNat_lt, UInt16.ofNat_toNat]

private theorem fields_stored :
    msgType? (store memory 0 h.nextChunkFields) = some .updateChunk ∧
      fieldsOf (store memory 0 h.nextChunkFields) .updateChunk =
        .chunk h.sessionId h.nextChunkId h.nextDataLen := by
  constructor
  · have number : wordAt (store memory 0 h.nextChunkFields) 4 = MsgType.updateChunk.value := by
      unfold wordAt
      rw [window_nextChunkFields (by decide)]
      rfl
    unfold msgType? msgHeader
    rw [number]
    rfl
  · have sessionId : halfAt (store memory 0 h.nextChunkFields) 8 = h.sessionId :=
      halfAt_nextChunkFields (by decide) rfl
    have chunkId : halfAt (store memory 0 h.nextChunkFields) 10 = h.nextChunkId :=
      halfAt_nextChunkFields (by decide) rfl
    have dataLen : halfAt (store memory 0 h.nextChunkFields) 12 = h.nextDataLen :=
      halfAt_nextChunkFields (by decide) rfl
    unfold fieldsOf chunkDataLen
    rw [sessionId, chunkId, dataLen]

private theorem chunkDataLen_stored :
    chunkDataLen (store memory 0 h.nextChunkFields) = h.nextDataLen :=
  halfAt_nextChunkFields (by decide) rfl

theorem buildNextChunk_eq (missing : h.nextChunkId < h.sessionTotalChunks)
    (divisible : h.AtLastChunk → h.sessionChunkSize ≠ 0) :
    h.buildNextChunk memory = some (store (store memory 0 h.nextChunkFields) 14
      (h.readImageChunk (h.nextChunkId.toUInt32 * h.sessionChunkSize.toUInt32)
        h.nextDataLen.toUInt32)) := by
  obtain ⟨kind, -⟩ := @fields_stored h memory
  have holds : HoldsPacked (store memory 0 h.nextChunkFields) (store memory 0 h.nextChunkFields) _
      .updateChunk := ⟨kind, fun _ _ => rfl, rfl⟩
  have place : auxPtr (store memory 0 h.nextChunkFields) = some 14 := by
    unfold auxPtr
    rw [kind]
  unfold Host.buildNextChunk
  rw [if_neg (UInt16.not_le.mpr missing), if_neg fun zero => divisible zero.1 zero.2, holds.map]
  dsimp only
  rw [place, chunkDataLen_stored]
  rfl

theorem readImageChunk_eq
    (inside : h.nextChunkId.toNat * h.sessionChunkSize.toNat + h.nextDataLen.toNat ≤
      h.sessionImageSize.toNat) :
    h.readImageChunk (h.nextChunkId.toUInt32 * h.sessionChunkSize.toUInt32)
        h.nextDataLen.toUInt32 =
      h.getImageChunk (h.nextChunkId.toNat * h.sessionChunkSize.toNat) h.nextDataLen.toNat := by
  have small := h.sessionImageSize.toNat_lt
  have offset : (h.nextChunkId.toUInt32 * h.sessionChunkSize.toUInt32).toNat =
      h.nextChunkId.toNat * h.sessionChunkSize.toNat := by
    rw [UInt32.toNat_mul, UInt16.toNat_toUInt32, UInt16.toNat_toUInt32]
    exact Nat.mod_eq_of_lt (by omega)
  have available : (h.sessionImageSize - h.nextChunkId.toUInt32 * h.sessionChunkSize.toUInt32).toNat =
      h.sessionImageSize.toNat - h.nextChunkId.toNat * h.sessionChunkSize.toNat := by
    rw [UInt32.toNat_sub_of_le, offset]
    rw [UInt32.le_iff_toNat_le, offset]
    omega
  unfold Host.readImageChunk
  dsimp only
  rw [offset]
  split
  · rw [UInt16.toNat_toUInt32]
  case isFalse atLeast =>
    rw [UInt32.not_lt, UInt32.le_iff_toNat_le, UInt16.toNat_toUInt32, available] at atLeast
    rw [available]
    congr 1
    omega

theorem sendNextChunk_built {answers : HostAnswers} {payload : Payload}
    (sent : payload ∈ (h.sendNextChunk answers).2)
    (divisible : h.AtLastChunk → h.sessionChunkSize ≠ 0)
    (inside : h.nextChunkId.toNat * h.sessionChunkSize.toNat + h.nextDataLen.toNat ≤
      h.sessionImageSize.toNat) :
    ∃ built chunk, h.buildNextChunk memory = some built ∧ payload.message = .updateChunk chunk ∧
      msgData built = some (.chunk chunk.sessionId chunk.chunkId chunk.dataLen) ∧
      window built 14 chunk.data.length = chunk.data := by
  unfold Host.sendNextChunk at sent
  split at sent
  · cases sent
  case isFalse missing =>
    dsimp only at sent
    split at sent
    · rename_i whole
      rw [Host.mem_transmit sent]
      refine ⟨_, _, buildNextChunk_eq (UInt16.not_le.mp missing) divisible, rfl, ?_⟩
      rw [readImageChunk_eq inside]
      constructor
      · obtain ⟨kind, fields⟩ := @fields_stored h memory
        have same : SameBelow 14 (store (store memory 0 h.nextChunkFields) 14
            (h.getImageChunk (h.nextChunkId.toNat * h.sessionChunkSize.toNat) h.nextDataLen.toNat))
            (store memory 0 h.nextChunkFields) := fun place before => store_outside _ (.inl before)
        rw [msgData_congr kind same, msgData_of_msgType? kind, fields]
        unfold Chunk.dataLen
        rw [whole, UInt16.ofNat_toNat]
      · exact window_store _ _ _
    · cases sent

private theorem readImageChunk_length (offset length : UInt32) :
    (h.readImageChunk offset length).length ≤ length.toNat := by
  unfold Host.readImageChunk Host.getImageChunk
  dsimp only
  refine Nat.le_trans (List.length_take_le ..) ?_
  split
  case isTrue less => exact Nat.le_refl _
  case isFalse atLeast => exact UInt32.le_iff_toNat_le.mp (UInt32.not_lt.mp atLeast)

private theorem nextDataLen_le (positive : h.sessionChunkSize ≠ 0) :
    h.nextDataLen.toNat ≤ h.sessionChunkSize.toNat := by
  have some : 0 < h.sessionChunkSize.toNat := by
    rw [Nat.pos_iff_ne_zero, ne_eq, ← UInt16.toNat_zero, UInt16.toNat_inj]
    exact positive
  have rest := Nat.mod_lt h.sessionImageSize.toNat some
  unfold Host.nextDataLen
  dsimp only
  split
  · rw [UInt16.toNat_ofNat_of_lt' (Nat.lt_trans rest h.sessionChunkSize.toNat_lt)]
    exact Nat.le_of_lt rest
  · exact Nat.le_refl _

private theorem buildsWithin_of_small (positive : h.sessionChunkSize ≠ 0)
    (small : MsgType.updateChunk.fixedSize + h.sessionChunkSize.toNat ≤ maxPayloadSize) :
    h.BuildsWithin := by
  intro chunkId memory
  by_cases sent : h.sessionTotalChunks ≤ chunkId
  · refine ⟨memory, ?_, fun _ _ => rfl⟩
    unfold Host.buildNextChunk
    exact if_pos sent
  · refine ⟨_, buildNextChunk_eq (UInt16.not_le.mp sent) fun _ => positive, fun place behind => ?_⟩
    have read := @readImageChunk_length { h with nextChunkId := chunkId }
      (chunkId.toUInt32 * h.sessionChunkSize.toUInt32)
      { h with nextChunkId := chunkId }.nextDataLen.toUInt32
    rw [UInt16.toNat_toUInt32] at read
    have size := @nextDataLen_le { h with nextChunkId := chunkId } positive
    have room : 14 + h.sessionChunkSize.toNat ≤ place := Nat.le_trans small behind
    have header : 14 ≤ place := by omega
    rw [store_outside _ (.inr ?_), store_outside _ (.inr ?_)]
    · rwa [nextChunkFields_length, Nat.zero_add]
    · exact Nat.le_trans (Nat.add_le_add_left (Nat.le_trans read size) 14) room

end InPlace

/-! ### Sessions -/

namespace Host

variable {h : Host}

private theorem sendNextChunk_chunkSize (h : Host) (answers : HostAnswers) :
    (h.sendNextChunk answers).1.sessionChunkSize = h.sessionChunkSize :=
  (sendNextChunk_continues h answers).chunkSize

private theorem handleUpdateResponse_chunkSize {answers : HostAnswers} {totlChunks : UInt16}
    {status : UpdateStatus}
    (stays : status = .errMaxChunkSize → h.sessionStatus = .errMaxChunkSize) :
    (h.handleUpdateResponse answers totlChunks status).1.sessionChunkSize = h.sessionChunkSize := by
  unfold handleUpdateResponse
  split
  · rfl
  case isFalse fresh =>
    dsimp only
    split
    · have same := stays rfl
      exact absurd ⟨same, by rw [same]; decide⟩ fresh
    · rfl
    · rfl

private theorem processMessage_chunkSize {answers : HostAnswers} {payload : Payload}
    (stays : ¬h.Renegotiates payload) :
    (h.processMessage answers payload).1.sessionChunkSize = h.sessionChunkSize := by
  obtain ⟨target, message⟩ := payload
  unfold processMessage
  split
  · rfl
  case isFalse host =>
    cases message with
    | updateResp sessionId totlChunks status =>
      dsimp only
      split
      case isTrue own =>
        refine handleUpdateResponse_chunkSize fun refused => ?_
        by_contra fresh
        exact stays ⟨not_not.mp host, fresh, totlChunks, by rw [own, refused]⟩
      case isFalse => rfl
    | reqResendChunk sessionId chunkId reason =>
      dsimp only
      split
      · exact (handleResendChunk_continues _ answers chunkId reason).chunkSize
      · rfl
    | updateProgress | updateDone =>
      dsimp only
      split
      · rfl
      · rfl
    | _ => rfl

private theorem run_chunkSize {inputs : List (HostCall × HostAnswers)}
    (stays : Along call StaysInSession h inputs) :
    (run call h inputs).1.sessionChunkSize = h.sessionChunkSize := by
  have preserved (state : Host) (input : HostCall × HostAnswers)
      (same : state.sessionChunkSize = h.sessionChunkSize) (stays : state.StaysInSession input) :
      (state.call input).1.sessionChunkSize = h.sessionChunkSize := by
    obtain ⟨action, answers⟩ := input
    cases action with
    | sendNextChunk => exact (sendNextChunk_chunkSize state answers).trans same
    | repeatRequest => exact same
    | processMessage payload => exact (processMessage_chunkSize (stays payload rfl)).trans same
  exact run_invariant preserved rfl stays

end Host

/-- The clock stands still, and every message reaches the wire. -/
def HostAnswers.wired : HostAnswers := { currentTimeMs := 0, rand := 1, writeToWire := true }

def Host.ofOnes : Host := { Host.create with image := List.replicate 65535 1 }

/-- A request for the update with all of them. -/
def onesRequest (chunkSize : UInt16) : RequestArguments :=
  { target := 0x10, imageSlot := 0, imageFlags := 0, chunkSize, imageSize := 65535
    imageMd5 := Md5.initialState, progressRate := 250 }

def readyFor (totlChunks : UInt16) : HostCall × HostAnswers :=
  (.processMessage { targetDevice := targetHost, message := .updateResp 1 totlChunks .ready }, .wired)

section Sessions

variable {chunkSize : UInt16}

/-- The host, once the device is ready. -/
private def onesReady (chunkSize totlChunks : UInt16) : Host :=
  (run Host.call (Host.ofOnes.requestUpdate .wired (onesRequest chunkSize)).1 [readyFor totlChunks]).1

private theorem onesReady_builds (within : ChunksWithin chunkSize) (totlChunks : UInt16) :
    (onesReady chunkSize totlChunks).BuildsWithin := by
  refine within Host.ofOnes .wired (onesRequest chunkSize) rfl [readyFor totlChunks] ⟨?_, trivial⟩
  rintro payload same ⟨-, -, other, refused⟩
  cases same
  cases refused

private theorem onesReady_fields (chunkSize totlChunks : UInt16) :
    (onesReady chunkSize totlChunks).sessionTotalChunks = totlChunks ∧
      (onesReady chunkSize totlChunks).sessionChunkSize = chunkSize ∧
      (onesReady chunkSize totlChunks).sessionImageSize = 65535 ∧
      (onesReady chunkSize totlChunks).image = List.replicate 65535 1 :=
  ⟨rfl, rfl, rfl, rfl⟩

private theorem readImageChunk_ones {h : Host} (size : h.sessionImageSize = 65535)
    (image : h.image = List.replicate 65535 1) :
    h.readImageChunk 0 chunkSize.toUInt32 = List.replicate chunkSize.toNat 1 := by
  have wide := chunkSize.toNat_lt
  unfold Host.readImageChunk Host.getImageChunk
  rw [size, image]
  have taken : (if chunkSize.toUInt32 < 65535 - 0 then chunkSize.toUInt32 else 65535 - 0).toNat =
      chunkSize.toNat := by
    split
    case isTrue => exact UInt16.toNat_toUInt32 _
    case isFalse atLeast =>
      have above : 65535 ≤ chunkSize.toNat := by
        rw [← UInt16.toNat_toUInt32]
        exact UInt32.le_iff_toNat_le.mp (UInt32.not_lt.mp atLeast)
      exact Nat.le_antisymm above (Nat.le_of_lt_succ wide)
  dsimp only
  rw [taken]
  show (List.replicate 65535 1).take chunkSize.toNat = _
  rw [List.take_replicate, Nat.min_eq_left (Nat.le_of_lt_succ wide)]

private theorem not_chunksWithin_zero : ¬ChunksWithin 0 := by
  intro within
  obtain ⟨built, builds, -⟩ := onesReady_builds within 1 0 fun _ => 0
  cases builds

/-- A byte of a large chunk is written right behind the buffer. -/
private theorem not_buildsWithin_large {h : Host} (total : h.sessionTotalChunks = 2)
    (imageSize : h.sessionImageSize = 65535) (image : h.image = List.replicate 65535 1)
    (large : maxPayloadSize < MsgType.updateChunk.fixedSize + h.sessionChunkSize.toNat) :
    ¬h.BuildsWithin := by
  intro within
  obtain ⟨built, builds, untouched⟩ := within 0 fun _ => 0
  have missing : 0 < h.sessionTotalChunks := by
    rw [total]
    decide
  have early : ¬((0 : UInt16).toNat : Int) = (h.sessionTotalChunks.toNat : Int) - 1 := by
    rw [total]
    decide
  have whole : { h with nextChunkId := 0 }.nextDataLen = h.sessionChunkSize :=
    if_neg fun last => early last.1
  have read : { h with nextChunkId := 0 }.readImageChunk
      ((0 : UInt16).toUInt32 * h.sessionChunkSize.toUInt32) h.sessionChunkSize.toUInt32 =
        List.replicate h.sessionChunkSize.toNat 1 := by
    rw [show (0 : UInt16).toUInt32 = 0 from rfl, UInt32.zero_mul]
    exact @readImageChunk_ones _ { h with nextChunkId := 0 } imageSize image
  have long : 590 < (List.replicate h.sessionChunkSize.toNat (1 : UInt8)).length := by
    rw [List.length_replicate]
    exact Nat.lt_of_add_lt_add_left (show 14 + 590 < 14 + h.sessionChunkSize.toNat from large)
  have written := @buildNextChunk_eq { h with nextChunkId := 0 } (fun _ => 0) missing
    fun last => absurd last early
  rw [whole, read, builds] at written
  have behind := untouched (14 + 590) (Nat.le_refl _)
  rw [Option.some.inj written, store_inside _ long, List.getElem_replicate] at behind
  cases behind

theorem chunksWithin_iff : ChunksWithin chunkSize ↔
    1 ≤ chunkSize.toNat ∧ MsgType.updateChunk.fixedSize + chunkSize.toNat ≤ maxPayloadSize := by
  have zero : chunkSize = 0 ↔ chunkSize.toNat = 0 := UInt16.toNat_inj.symm
  constructor
  · intro within
    constructor
    · by_contra none
      obtain rfl := zero.mpr (Nat.eq_zero_of_not_pos none)
      exact not_chunksWithin_zero within
    · by_contra large
      obtain ⟨total, size, imageSize, image⟩ := onesReady_fields chunkSize 2
      refine not_buildsWithin_large total imageSize image ?_ (onesReady_builds within 2)
      rw [size]
      exact Nat.not_le.mp large
  · rintro ⟨positive, small⟩ h answers arguments rfl inputs stays
    have size := Host.run_chunkSize stays
    refine buildsWithin_of_small ?_ ?_
    · rw [size]
      exact fun none => Nat.ne_of_gt positive (zero.mp none)
    · rw [size]
      exact small

/-- Exactly when packing and building respect their buffers. -/
theorem buffers_respected_iff {payload buffer : Nat → UInt8} {auxData : Option (Nat → UInt8)}
    {maxLen : Int} : (PacksWithin buffer maxLen payload auxData ∧ ChunksWithin chunkSize) ↔
      (maxLen < asInt (fwUpdateGetPayloadSize payload false) ∨ packedSize payload ≤ maxLen) ∧
        1 ≤ chunkSize.toNat ∧ MsgType.updateChunk.fixedSize + chunkSize.toNat ≤ maxPayloadSize :=
  and_congr packsWithin_iff chunksWithin_iff

/-- A chunk whose data does not fit is packed, and written behind the 16 bytes of the buffer; a
session with chunks of 1024 bytes writes behind `build_buffer`. -/
theorem buffers_overrun :
    (fwUpdatePackPayload (fun _ => 0) 16 sampleChunkPayload (some sampleChunkData)).1 = 17 ∧
      (fwUpdatePackPayload (fun _ => 0) 16 sampleChunkPayload (some sampleChunkData)).2 16 = 9 ∧
      ¬ChunksWithin 1024 := by
  refine ⟨by decide +kernel, by decide +kernel, ?_⟩
  rw [chunksWithin_iff]
  decide

end Sessions

end InertialSense.FirmwareUpdate
