import InertialSense.FirmwareUpdate.Message
import InertialSense.Foundation.LittleEndian

/-! Messages as bytes. A `payload_t` is a header and a packed union; a chunk and a progress
report are followed by auxiliary data, whose first byte is the last member of the union. -/

namespace InertialSense.FirmwareUpdate

open Foundation

/-- `msg_types_e`, without `MSG_UNKNOWN`. -/
inductive MsgType where
  | reqReset
  | resetResp
  | reqUpdate
  | updateResp
  | updateChunk
  | updateProgress
  | reqResendChunk
  | updateDone
  | reqVersionInfo
  | versionInfoResp
deriving DecidableEq

namespace MsgType

def value : MsgType → UInt32
  | reqReset => 1
  | resetResp => 2
  | reqUpdate => 3
  | updateResp => 4
  | updateChunk => 5
  | updateProgress => 6
  | reqResendChunk => 7
  | updateDone => 8
  | reqVersionInfo => 9
  | versionInfoResp => 10

/-- The type a number in a header stands for, if any. -/
def ofValue? (number : UInt32) : Option MsgType :=
  [reqReset, resetResp, reqUpdate, updateResp, updateChunk, updateProgress, reqResendChunk,
    updateDone, reqVersionInfo, versionInfoResp].find? fun type => type.value = number

/-- `sizeof` of the member of `msg_data_t` with the data of the type. The one of a version
request has no fields and takes a byte. -/
def sizeof : MsgType → UInt64
  | reqReset => 2
  | resetResp => 4 + 2
  | reqUpdate => 2 + 1 + 1 + 4 + 2 + 2 + 16
  | updateResp => 2 + 2 + 2
  | updateChunk => 2 + 2 + 2 + 1
  | updateProgress => 2 + 2 + 2 + 2 + 1 + 1 + 1
  | reqResendChunk => 2 + 2 + 2
  | updateDone => 2 + 2
  | reqVersionInfo => 1
  | versionInfoResp => 4 + 4 + 1 + 1 + 4 + 4 + 4 + 4 + 8

end MsgType

/-- `msg_header_t`. -/
structure MsgHeader where
  targetDevice : UInt32
  msgType : UInt32
deriving DecidableEq

/-- The fields of `version_resp`. -/
structure VersionResp where
  resTarget : UInt32
  serialNumber : UInt32
  reserved : UInt8
  hardwareType : UInt8
  hardwareVer : List UInt8
  firmwareVer : List UInt8
  buildHash : List UInt8
  buildNumber : UInt32
  buildType : UInt8
  buildYear : UInt8
  buildMonth : UInt8
  buildDay : UInt8
  buildHour : UInt8
  buildMinute : UInt8
  buildSecond : UInt8
  buildMillis : UInt8
deriving DecidableEq

/-- The fields of a message. The first byte of auxiliary data is not one of them. -/
inductive MsgData where
  | reqReset (resetFlags : UInt16)
  | rplReset (target : UInt32) (status : UInt16)
  | reqUpdate (request : UpdateRequest)
  | updateResp (sessionId totlChunks status : UInt16)
  | chunk (sessionId chunkId dataLen : UInt16)
  | progress (sessionId status numChunks totlChunks : UInt16) (msgLevel msgLen : UInt8)
  | reqResend (sessionId chunkId reason : UInt16)
  | respDone (sessionId status : UInt16)
  | reqVersion
  | versionResp (response : VersionResp)
deriving DecidableEq

/-- `hdr` of the `payload_t` in memory. -/
def msgHeader (payload : Nat → UInt8) : MsgHeader :=
  { targetDevice := wordAt payload 0, msgType := wordAt payload 4 }

/-- The type of the `payload_t` in memory. -/
def msgType? (payload : Nat → UInt8) : Option MsgType := MsgType.ofValue? (msgHeader payload).msgType

/-- `data.chunk.data_len`. -/
def chunkDataLen (payload : Nat → UInt8) : UInt16 := halfAt payload 12

/-- `data.progress.msg_len`. -/
def progressMsgLen (payload : Nat → UInt8) : UInt8 := payload 17

/-- The fields of the member of `data` that belongs to the type. -/
def fieldsOf (payload : Nat → UInt8) : MsgType → MsgData
  | .reqReset => .reqReset (halfAt payload 8)
  | .resetResp => .rplReset (wordAt payload 8) (halfAt payload 12)
  | .reqUpdate =>
    .reqUpdate
      { sessionId := halfAt payload 8
        imageSlot := payload 10
        imageFlags := payload 11
        fileSize := wordAt payload 12
        chunkSize := halfAt payload 16
        progressRate := halfAt payload 18
        md5Hash :=
          { a := wordAt payload 20
            b := wordAt payload 24
            c := wordAt payload 28
            d := wordAt payload 32 } }
  | .updateResp => .updateResp (halfAt payload 8) (halfAt payload 10) (halfAt payload 12)
  | .updateChunk => .chunk (halfAt payload 8) (halfAt payload 10) (chunkDataLen payload)
  | .updateProgress =>
    .progress (halfAt payload 8) (halfAt payload 10) (halfAt payload 12) (halfAt payload 14)
      (payload 16) (progressMsgLen payload)
  | .reqResendChunk => .reqResend (halfAt payload 8) (halfAt payload 10) (halfAt payload 12)
  | .updateDone => .respDone (halfAt payload 8) (halfAt payload 10)
  | .reqVersionInfo => .reqVersion
  | .versionInfoResp =>
    .versionResp
      { resTarget := wordAt payload 8
        serialNumber := wordAt payload 12
        reserved := payload 16
        hardwareType := payload 17
        hardwareVer := window payload 18 4
        firmwareVer := window payload 22 4
        buildHash := window payload 26 4
        buildNumber := wordAt payload 30
        buildType := payload 34
        buildYear := payload 35
        buildMonth := payload 36
        buildDay := payload 37
        buildHour := payload 38
        buildMinute := payload 39
        buildSecond := payload 40
        buildMillis := payload 41 }

/-- The fields of the message in memory. -/
def msgData (payload : Nat → UInt8) : Option MsgData := (msgType? payload).map (fieldsOf payload)

/-- `sizeof(payload->hdr)`. -/
def sizeofHdr : UInt64 := 8

/-- `fwUpdate_getPayloadSize`. The correction for auxiliary data wraps around. -/
def fwUpdateGetPayloadSize (payload : Nat → UInt8) (includeAux : Bool) : UInt64 :=
  match msgType? payload with
  | some .updateChunk =>
    sizeofHdr + MsgType.updateChunk.sizeof +
      if includeAux then (chunkDataLen payload).toUInt64 - 1 else -1
  | some .updateProgress =>
    sizeofHdr + MsgType.updateProgress.sizeof +
      if includeAux then (progressMsgLen payload).toUInt64 - 1 else -1
  | some type => sizeofHdr + type.sizeof
  | none => 0

/-- A `size_t` as an `int`. -/
def asInt (size : UInt64) : Int := size.toUInt32.toInt32.toInt

/-- The number of bytes of auxiliary data, by the type and the length field. -/
def auxLen (payload : Nat → UInt8) : Nat :=
  match msgType? payload with
  | some .updateChunk => (chunkDataLen payload).toNat
  | some .updateProgress => (progressMsgLen payload).toNat
  | _ => 0

/-- `fwUpdate_packPayload`, with the number it returns and the buffer. -/
def fwUpdatePackPayload (buffer : Nat → UInt8) (maxLen : Int) (payload : Nat → UInt8)
    (auxData : Option (Nat → UInt8)) : Int × (Nat → UInt8) :=
  let payloadSize := asInt (fwUpdateGetPayloadSize payload false)
  if maxLen < payloadSize then (-1, buffer)
  else if payloadSize = 0 then (-2, buffer)
  else
    let copied := store buffer 0 (window payload 0 payloadSize.toNat)
    (payloadSize + auxLen payload,
      match auxData with
      | some data =>
        if 0 < auxLen payload then
          store copied payloadSize.toNat (window data 0 (auxLen payload))
        else copied
      | none => copied)

/-- Where `&data.chunk.data` and `&data.progress.message` point, as a distance from the
payload. -/
def auxPtr (payload : Nat → UInt8) : Option Nat :=
  match msgType? payload with
  | some .updateChunk => some 14
  | some .updateProgress => some 18
  | _ => none

/-- What `fwUpdate_unpackPayload` returns and leaves in the memory of its arguments. -/
structure Unpacked where
  count : Int
  payload : Nat → UInt8
  auxData : Option (Nat → UInt8)

/-- `fwUpdate_unpackPayload`. Without auxiliary data no byte is copied from `aux_ptr`. -/
def fwUpdateUnpackPayload (buffer : Nat → UInt8) (bufLen : Int) (payload : Nat → UInt8)
    (auxData : Option (Nat → UInt8)) (maxAux : UInt16) : Unpacked :=
  let payloadSize := asInt (fwUpdateGetPayloadSize buffer false)
  if bufLen < payloadSize + auxLen buffer then { count := -1, payload, auxData }
  else
    { count := payloadSize + auxLen buffer
      payload := store payload 0 (window buffer 0 payloadSize.toNat)
      auxData := auxData.map fun data =>
        if auxLen buffer ≤ maxAux.toNat then
          store data 0 (window buffer ((auxPtr buffer).getD 0) (auxLen buffer))
        else data }

/-- What `fwUpdate_mapBufferToPayload` returns, and the buffer and the two pointers it leaves.
Pointers are distances from the buffer. -/
structure Mapped where
  count : Int
  buffer : Nat → UInt8
  payload : Nat
  auxData : Option Nat

/-- `fwUpdate_mapBufferToPayload`. The high-order bits of the type are cleared in the buffer,
and the pointer is left where there is no auxiliary data. -/
def fwUpdateMapBufferToPayload (buffer : Nat → UInt8) (auxData : Option Nat) : Mapped :=
  let buffer := store buffer 4 (toBytes 4 ((msgHeader buffer).msgType &&& 0xFFFF).toNat)
  { count := asInt (fwUpdateGetPayloadSize buffer false) + auxLen buffer
    buffer
    payload := 0
    auxData := (auxPtr buffer).or auxData }

/-! ### What is packed is unpacked -/

/-- The bytes of a message without auxiliary data. -/
def MsgType.fixedSize : MsgType → Nat
  | reqReset => 10
  | resetResp => 14
  | reqUpdate => 36
  | updateResp => 14
  | updateChunk => 14
  | updateProgress => 18
  | reqResendChunk => 14
  | updateDone => 12
  | reqVersionInfo => 9
  | versionInfoResp => 42

/-- The auxiliary data that is packed. -/
def auxBytes (payload : Nat → UInt8) : Option (Nat → UInt8) → List UInt8
  | some data => window data 0 (auxLen payload)
  | none => []

section Layout

variable {payload payload' : Nat → UInt8} {type : MsgType}

theorem MsgType.header_le_fixedSize (type : MsgType) : 8 ≤ type.fixedSize := by
  cases type <;> decide

theorem value_of_msgType? (kind : msgType? payload = some type) :
    (msgHeader payload).msgType = type.value := by
  have found := List.find?_some kind
  exact (of_decide_eq_true found).symm

theorem payloadSize_of_msgType? (kind : msgType? payload = some type) :
    asInt (fwUpdateGetPayloadSize payload false) = type.fixedSize := by
  unfold fwUpdateGetPayloadSize
  rw [kind]
  cases type with
  | updateChunk =>
    show asInt (sizeofHdr + MsgType.updateChunk.sizeof + -1) = 14
    decide
  | updateProgress =>
    show asInt (sizeofHdr + MsgType.updateProgress.sizeof + -1) = 18
    decide
  | _ => rfl

theorem msgHeader_congr (same : SameBelow 8 payload payload') :
    msgHeader payload = msgHeader payload' := by
  have target : wordAt payload 0 = wordAt payload' 0 := same.wordAt (by decide)
  have number : wordAt payload 4 = wordAt payload' 4 := same.wordAt (by decide)
  unfold msgHeader
  rw [target, number]

theorem msgType?_congr (same : SameBelow 8 payload payload') :
    msgType? payload = msgType? payload' := by
  unfold msgType?
  rw [msgHeader_congr same]

/-- The fields of a message lie before its auxiliary data. -/
theorem fieldsOf_congr (same : SameBelow type.fixedSize payload payload') :
    fieldsOf payload type = fieldsOf payload' type := by
  have byte (k : Nat) (inside : k < type.fixedSize) : payload k = payload' k := same k inside
  have bytes (start length : Nat) (inside : start + length ≤ type.fixedSize) :
      window payload start length = window payload' start length := same.window inside
  have half (start : Nat) (inside : start + 2 ≤ type.fixedSize) :
      halfAt payload start = halfAt payload' start := same.halfAt inside
  have word (start : Nat) (inside : start + 4 ≤ type.fixedSize) :
      wordAt payload start = wordAt payload' start := same.wordAt inside
  cases type <;>
    simp (disch := decide) only [fieldsOf, chunkDataLen, progressMsgLen, half, word, byte, bytes]

theorem msgData_of_msgType? (kind : msgType? payload = some type) :
    msgData payload = some (fieldsOf payload type) := by
  unfold msgData
  rw [kind, Option.map_some]

theorem msgData_congr (kind : msgType? payload = some type)
    (same : SameBelow type.fixedSize payload' payload) : msgData payload' = msgData payload := by
  have kind' := (msgType?_congr (same.mono type.header_le_fixedSize)).trans kind
  rw [msgData_of_msgType? kind, msgData_of_msgType? kind', fieldsOf_congr same]

/-- The length of the auxiliary data lies before it. -/
theorem auxLen_congr (kind : msgType? payload = some type)
    (same : SameBelow type.fixedSize payload' payload) : auxLen payload' = auxLen payload := by
  have kind' := (msgType?_congr (same.mono type.header_le_fixedSize)).trans kind
  unfold auxLen
  rw [kind, kind']
  cases type with
  | updateChunk => exact congrArg UInt16.toNat (same.halfAt (by decide))
  | updateProgress => exact congrArg UInt8.toNat (same 17 (by decide))
  | _ => rfl

private theorem auxPtr_of_msgType? (kind : msgType? payload = some type) :
    auxPtr payload = some type.fixedSize ∨ auxPtr payload = none ∧ auxLen payload = 0 := by
  unfold auxPtr auxLen
  rw [kind]
  cases type with
  | updateChunk => exact .inl rfl
  | updateProgress => exact .inl rfl
  | _ => exact .inr ⟨rfl, rfl⟩

end Layout

section Packed

variable {payload buffer : Nat → UInt8} {auxData : Option (Nat → UInt8)} {type : MsgType}

/-- The buffer holds the message, followed by its auxiliary data. -/
structure HoldsPacked (buffer payload : Nat → UInt8) (aux : List UInt8) (type : MsgType) : Prop where
  kind : msgType? payload = some type
  fields : SameBelow type.fixedSize buffer payload
  aux : window buffer type.fixedSize (auxLen payload) = aux

theorem packPayload_holds (kind : msgType? payload = some type)
    (given : auxData = none → auxLen payload = 0) (buffer : Nat → UInt8) {maxLen : Int}
    (fits : type.fixedSize + (auxLen payload : Int) ≤ maxLen) :
    (fwUpdatePackPayload buffer maxLen payload auxData).1 =
        type.fixedSize + (auxLen payload : Int) ∧
      HoldsPacked (fwUpdatePackPayload buffer maxLen payload auxData).2 payload
        (auxBytes payload auxData) type := by
  have header := type.header_le_fixedSize
  have room : ¬maxLen < type.fixedSize := by omega
  have known : ¬(type.fixedSize : Int) = 0 := by omega
  have copied := store_sameBelow buffer payload type.fixedSize
  unfold fwUpdatePackPayload
  dsimp only
  rw [payloadSize_of_msgType? kind, if_neg room, if_neg known, Int.toNat_natCast]
  refine ⟨rfl, kind, ?_, ?_⟩
  · cases auxData with
    | none => exact copied
    | some data =>
      dsimp only
      split
      · intro k inside
        rw [store_outside _ (.inl inside)]
        exact copied k inside
      · exact copied
  · cases auxData with
    | none => rw [given rfl]; rfl
    | some data =>
      dsimp only [auxBytes]
      split
      · have stored := window_store (store buffer 0 (window payload 0 type.fixedSize))
          type.fixedSize (window data 0 (auxLen payload))
        rwa [window_length] at stored
      case isFalse empty =>
        rw [Nat.eq_zero_of_not_pos empty]
        rfl

variable {aux : List UInt8}

private theorem HoldsPacked.sizes (holds : HoldsPacked buffer payload aux type) :
    msgType? buffer = some type ∧
      asInt (fwUpdateGetPayloadSize buffer false) = type.fixedSize ∧
      auxLen buffer = auxLen payload := by
  have kind := (msgType?_congr (holds.fields.mono type.header_le_fixedSize)).trans holds.kind
  exact ⟨kind, payloadSize_of_msgType? kind, auxLen_congr holds.kind holds.fields⟩

/-- A message whose end is missing is not unpacked. -/
theorem HoldsPacked.unpack_short (holds : HoldsPacked buffer payload aux type) {bufLen : Int}
    (short : bufLen < type.fixedSize + (auxLen payload : Int)) (target : Nat → UInt8)
    (auxTarget : Option (Nat → UInt8)) (maxAux : UInt16) :
    fwUpdateUnpackPayload buffer bufLen target auxTarget maxAux =
      { count := -1, payload := target, auxData := auxTarget } := by
  obtain ⟨-, size, len⟩ := holds.sizes
  unfold fwUpdateUnpackPayload
  dsimp only
  rw [size, len, if_pos short]

/-- A whole message is unpacked to its fields and its auxiliary data. -/
theorem HoldsPacked.unpack (holds : HoldsPacked buffer payload aux type) (target : Nat → UInt8)
    (auxTarget : Option (Nat → UInt8)) {maxAux : UInt16} (space : auxLen payload ≤ maxAux.toNat) :
    fwUpdateUnpackPayload buffer (type.fixedSize + (auxLen payload : Int)) target auxTarget maxAux =
      { count := type.fixedSize + (auxLen payload : Int)
        payload := store target 0 (window payload 0 type.fixedSize)
        auxData := auxTarget.map fun data => store data 0 aux } := by
  obtain ⟨kind, size, len⟩ := holds.sizes
  have copied : window buffer 0 type.fixedSize = window payload 0 type.fixedSize :=
    holds.fields.window (Nat.le_of_eq (Nat.zero_add _))
  have found : window buffer ((auxPtr buffer).getD 0) (auxLen payload) = aux := by
    rw [← holds.aux]
    rcases auxPtr_of_msgType? kind with there | ⟨-, empty⟩
    · rw [there]
      rfl
    · rw [← len, empty]
      rfl
  unfold fwUpdateUnpackPayload
  dsimp only
  rw [size, len, if_neg (Int.lt_irrefl _), Int.toNat_natCast, copied, found]
  simp only [if_pos space]

/-- The type has no high-order bits to clear. -/
theorem MsgType.value_and (type : MsgType) : type.value &&& 0xFFFF = type.value := by
  cases type <;> decide

/-- A message is mapped to itself and its auxiliary data. -/
theorem HoldsPacked.map (holds : HoldsPacked buffer payload aux type) (auxTarget : Option Nat) :
    fwUpdateMapBufferToPayload buffer auxTarget =
      { count := type.fixedSize + (auxLen payload : Int)
        buffer
        payload := 0
        auxData := (auxPtr buffer).or auxTarget } := by
  obtain ⟨kind, size, len⟩ := holds.sizes
  have cleared : store buffer 4 (toBytes 4 ((msgHeader buffer).msgType &&& 0xFFFF).toNat) = buffer := by
    rw [value_of_msgType? kind, type.value_and, ← value_of_msgType? kind]
    show store buffer 4 (toBytes 4 (wordAt buffer 4).toNat) = buffer
    rw [toBytes_wordAt, store_window_self]
  unfold fwUpdateMapBufferToPayload
  dsimp only
  rw [cleared, size, len]

end Packed

/-- The bytes of a message with its auxiliary data. -/
def packedSize (payload : Nat → UInt8) : Int :=
  asInt (fwUpdateGetPayloadSize payload false) + auxLen payload

theorem packedSize_of_msgType? {payload : Nat → UInt8} {type : MsgType}
    (kind : msgType? payload = some type) :
    packedSize payload = type.fixedSize + (auxLen payload : Int) :=
  congrArg (· + (auxLen payload : Int)) (payloadSize_of_msgType? kind)

theorem packedSize_of_unknown {payload : Nat → UInt8} (unknown : msgType? payload = none) :
    packedSize payload = 0 := by
  unfold packedSize fwUpdateGetPayloadSize auxLen
  rw [unknown]
  rfl

/-- The message is followed by auxiliary data. -/
def HasAux (payload : Nat → UInt8) : Prop :=
  msgType? payload = some .updateChunk ∨ msgType? payload = some .updateProgress

/-- The header, the fields and, where there is a place for it, the auxiliary data are back. -/
structure Restores (payload : Nat → UInt8) (auxData auxTarget : Option (Nat → UInt8))
    (unpacked : Unpacked) : Prop where
  count : unpacked.count = packedSize payload
  header : msgHeader unpacked.payload = msgHeader payload
  data : msgData unpacked.payload = msgData payload
  aux : unpacked.auxData.map (fun data => window data 0 (auxLen payload)) =
    auxTarget.map fun _ => auxBytes payload auxData

/-- The message is found where it is, and its auxiliary data behind it. -/
structure Locates (payload : Nat → UInt8) (auxData : Option (Nat → UInt8)) (mapped : Mapped) :
    Prop where
  count : mapped.count = packedSize payload
  start : mapped.payload = 0
  header : msgHeader mapped.buffer = msgHeader payload
  data : msgData mapped.buffer = msgData payload
  aux : HasAux payload → ∃ place, mapped.auxData = some place ∧
    window mapped.buffer place (auxLen payload) = auxBytes payload auxData

section RoundTrip

variable {payload buffer : Nat → UInt8} {auxData : Option (Nat → UInt8)} {type : MsgType}

private theorem HoldsPacked.restores (holds : HoldsPacked buffer payload (auxBytes payload auxData) type)
    (target : Nat → UInt8) (auxTarget : Option (Nat → UInt8)) {maxAux : UInt16}
    (space : auxLen payload ≤ maxAux.toNat) :
    Restores payload auxData auxTarget
      (fwUpdateUnpackPayload buffer (packedSize payload) target auxTarget maxAux) := by
  have size := packedSize_of_msgType? holds.kind
  have same := store_sameBelow target payload type.fixedSize
  have length : (auxBytes payload auxData).length = auxLen payload := by
    rw [← holds.aux, window_length]
  rw [size, holds.unpack target auxTarget space]
  refine ⟨size.symm, msgHeader_congr (same.mono type.header_le_fixedSize),
    msgData_congr holds.kind same, ?_⟩
  dsimp only
  rw [Option.map_map]
  refine congrArg (fun read => auxTarget.map read) (funext fun data => ?_)
  show window (store data 0 (auxBytes payload auxData)) 0 (auxLen payload) = _
  rw [← length, window_store]

private theorem HoldsPacked.locates (holds : HoldsPacked buffer payload (auxBytes payload auxData) type)
    (auxTarget : Option Nat) :
    Locates payload auxData (fwUpdateMapBufferToPayload buffer auxTarget) := by
  have header := holds.fields.mono type.header_le_fixedSize
  rw [holds.map]
  refine ⟨?_, rfl, msgHeader_congr header, msgData_congr holds.kind holds.fields, fun hasAux => ?_⟩
  · exact (packedSize_of_msgType? holds.kind).symm
  · refine ⟨type.fixedSize, ?_, holds.aux⟩
    have kind : msgType? buffer = msgType? payload := msgType?_congr header
    have same := holds.kind
    unfold auxPtr
    rcases hasAux with chunk | progress
    · obtain rfl : type = .updateChunk := Option.some.inj (same.symm.trans chunk)
      rw [kind, chunk]
      rfl
    · obtain rfl : type = .updateProgress := Option.some.inj (same.symm.trans progress)
      rw [kind, progress]
      rfl

end RoundTrip

/-- What is packed is unpacked, and mapped, to the same message and auxiliary data; a part of
it is not unpacked. -/
theorem pack_round_trip {payload : Nat → UInt8} (known : msgType? payload ≠ none)
    {auxData : Option (Nat → UInt8)} (given : auxData = none → auxLen payload = 0)
    (buffer : Nat → UInt8) {maxLen : Int} (fits : packedSize payload ≤ maxLen) :
    (fwUpdatePackPayload buffer maxLen payload auxData).1 = packedSize payload ∧
      (∀ target auxTarget maxAux, auxLen payload ≤ UInt16.toNat maxAux →
        Restores payload auxData auxTarget
          (fwUpdateUnpackPayload (fwUpdatePackPayload buffer maxLen payload auxData).2
            (packedSize payload) target auxTarget maxAux)) ∧
      (∀ bufLen < packedSize payload, ∀ target auxTarget maxAux,
        fwUpdateUnpackPayload (fwUpdatePackPayload buffer maxLen payload auxData).2 bufLen target
          auxTarget maxAux = { count := -1, payload := target, auxData := auxTarget }) ∧
      ∀ auxTarget, Locates payload auxData
        (fwUpdateMapBufferToPayload (fwUpdatePackPayload buffer maxLen payload auxData).2
          auxTarget) := by
  obtain ⟨type, kind⟩ := Option.ne_none_iff_exists'.mp known
  have size := packedSize_of_msgType? kind
  obtain ⟨count, holds⟩ := packPayload_holds kind given buffer (size ▸ fits)
  refine ⟨count.trans size.symm, fun target auxTarget maxAux space => ?_,
    fun bufLen short target auxTarget maxAux => ?_, holds.locates⟩
  · exact holds.restores target auxTarget space
  · exact holds.unpack_short (size ▸ short) target auxTarget maxAux

def sampleChunkPayload (k : Nat) : UInt8 :=
  [0x20, 0, 0, 0, 5, 0, 0, 0, 0x7F, 0x7F, 2, 0, 3, 0, 9].getD k 0

/-- The bytes of the chunk. -/
def sampleChunkData (k : Nat) : UInt8 := [7, 8, 9].getD k 0

theorem pack_round_trip_chunk :
    msgData (fwUpdateUnpackPayload
        (fwUpdatePackPayload (fun _ => 0) 17 sampleChunkPayload (some sampleChunkData)).2 17
        (fun _ => 1) (some fun _ => 2) 3).payload = some (.chunk 0x7F7F 2 3) ∧
      ((fwUpdateUnpackPayload
        (fwUpdatePackPayload (fun _ => 0) 17 sampleChunkPayload (some sampleChunkData)).2 17
        (fun _ => 1) (some fun _ => 2) 3).auxData.map fun data => window data 0 3) =
          some [7, 8, 9] := by
  obtain ⟨-, restores, -⟩ := @pack_round_trip sampleChunkPayload (by decide +kernel)
    (some sampleChunkData) nofun (fun _ => 0) 17 (by decide +kernel)
  have unpacked := restores (fun _ => 1) (some fun _ => 2) 3 (by decide +kernel)
  exact ⟨unpacked.data.trans (by decide +kernel), unpacked.aux⟩

end InertialSense.FirmwareUpdate
