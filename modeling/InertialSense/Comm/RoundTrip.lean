import InertialSense.Comm.Encode
import InertialSense.Comm.Delivery

/-! The parser inverts the encoder: packets that are built one after another and fed byte by
byte are reported one after another, as they were built. -/

namespace InertialSense.Comm

open Foundation

/-- A call that builds a packet. -/
inductive Request where
  | write (flags : UInt8) (did offset : UInt16) (data : List UInt8)
  | getData (did size offset periodMultiple : UInt32)

def pktProtocol (ptype : UInt8) : ProtocolType :=
  if ptype = pktTypeSetData ∨ ptype = pktTypeData then .inertialSenseData
  else if ptype = pktTypeAck ∨ ptype = pktTypeNack then .inertialSenseAck
  else .inertialSenseCmd

namespace Request

/-- The data of a packet, by its type: none is too long for a data set, and a `GET_DATA`
packet holds a whole `p_data_get_t`. -/
def Valid (ptype : UInt8) (offset : UInt16) (data : List UInt8) : Prop :=
  ptype ∈ [pktTypeAck, pktTypeNack, pktTypeStopBroadcastsAllPorts, pktTypeStopDidBroadcast,
      pktTypeStopBroadcastsCurrentPort] ∨
    ptype ∈ [pktTypeData, pktTypeSetData] ∧ data.length ≤ maxDatasetSize ∨
    ptype = pktTypeGetData ∧ offset = 0 ∧ data.length = 8 ∧
      word (data.getD 2 0) (data.getD 3 0) ≤ maxDatasetSize

/-- The calls whose packets the parser supports. -/
def Admissible : Request → Prop
  | write flags did offset data =>
    did.toNat < 256 ∧ flags &&& isbFlagsPayloadWOffset = 0 ∧
      Valid (flags &&& pktTypeMask) offset data
  | getData _ size _ _ => size.toUInt16.toNat ≤ maxDatasetSize

/-- The call, with some buffer and some instance, returns the bytes. -/
def Builds : Request → List UInt8 → Prop
  | write flags did offset data, bytes =>
    ∃ bufSize comm dataSize, dataSize.toNat = data.length ∧
      (isCommWriteToBuf bufSize comm flags did dataSize offset data).2 = some bytes
  | getData did size offset periodMultiple, bytes =>
    ∃ bufSize comm, (isCommGetDataToBuf bufSize comm did size offset periodMultiple).2 = some bytes

def sentReport (flags : UInt8) (did offset : UInt16) (data : List UInt8) : Report :=
  { ptype := pktProtocol (flags &&& pktTypeMask)
    packet :=
      some
        { pktType := flags &&& pktTypeMask
          id := did.toNat
          offset := offset.toNat
          size := 8 + (if offset ≠ 0 then 2 else 0) + data.length
          data } }

def report : Request → Report
  | write flags did offset data => sentReport flags did offset data
  | getData did size offset periodMultiple =>
    sentReport pktTypeGetData 0 0 (dataGetBytes did size offset periodMultiple)

end Request

/-! ### The frame of a packet -/

private theorem or_offset (flags : UInt8) :
    (flags ||| isbFlagsPayloadWOffset) &&& pktTypeMask = flags &&& pktTypeMask ∧
      (flags ||| isbFlagsPayloadWOffset) &&& isbFlagsPayloadWOffset ≠ 0 := by
  have all : ∀ n : Fin 256,
      (UInt8.ofNat n ||| isbFlagsPayloadWOffset) &&& pktTypeMask = UInt8.ofNat n &&& pktTypeMask ∧
        (UInt8.ofNat n ||| isbFlagsPayloadWOffset) &&& isbFlagsPayloadWOffset ≠ 0 := by
    decide +kernel
  have this := all ⟨flags.toNat, flags.toNat_lt⟩
  rwa [UInt8.ofNat_toNat] at this

section Sent

variable {flags : UInt8} {did offset : UInt16} {data : List UInt8}

private theorem sentFlags_type : sentFlags flags offset &&& pktTypeMask = flags &&& pktTypeMask := by
  unfold sentFlags
  split
  · exact (or_offset flags).1
  · rfl

private theorem sentFlags_offset (plain : flags &&& isbFlagsPayloadWOffset = 0) :
    sentFlags flags offset &&& isbFlagsPayloadWOffset ≠ 0 ↔ offset ≠ 0 := by
  unfold sentFlags
  by_cases zero : offset ≠ 0
  · rw [if_pos zero]
    exact iff_of_true (or_offset flags).2 zero
  · rw [if_neg zero]
    exact iff_of_false (fun set => set plain) zero

private theorem sent_dataSize (plain : flags &&& isbFlagsPayloadWOffset = 0) :
    isbFrameDataSize (sentFlags flags offset) (sentPayload offset data) = data.length := by
  unfold isbFrameDataSize sentPayload
  simp only [sentFlags_offset plain]
  split <;> rfl

private theorem isbDispatch_valid {ptype : UInt8} {getSize : Nat}
    (valid : Request.Valid ptype offset data)
    (get : ptype = pktTypeGetData → getSize ≤ maxDatasetSize) :
    (isbDispatch ptype data.length getSize).1 = some (pktProtocol ptype) := by
  unfold isbDispatch
  rcases valid with other | ⟨dataType, small⟩ | ⟨rfl, -⟩
  · simp only [List.mem_cons, List.not_mem_nil, or_false] at other
    rcases other with rfl | rfl | rfl | rfl | rfl <;> rfl
  · simp only [List.mem_cons, List.not_mem_nil, or_false] at dataType
    rcases dataType with rfl | rfl <;> simp only [if_pos small] <;> rfl
  · simp only [get rfl]
    rfl

private theorem sent_type (plain : flags &&& isbFlagsPayloadWOffset = 0)
    (valid : Request.Valid (flags &&& pktTypeMask) offset data) :
    isbFrameType (sentFlags flags offset) did.toUInt8 (sentPayload offset data) =
      some (pktProtocol (flags &&& pktTypeMask)) := by
  unfold isbFrameType
  rw [sentFlags_type, sent_dataSize plain]
  -- A `GET_DATA` packet holds its size field where the parser reads it.
  have whole : flags &&& pktTypeMask = pktTypeGetData → sentPayload offset data = data ∧
      data.length = 8 ∧ word (data.getD 2 0) (data.getD 3 0) ≤ maxDatasetSize := by
    intro get
    rcases valid with other | ⟨dataType, -⟩ | ⟨-, rfl, length, size⟩
    · rw [get] at other
      exact absurd other (by decide)
    · rw [get] at dataType
      exact absurd dataType (by decide)
    · exact ⟨rfl, length, size⟩
  rw [if_neg]
  · apply isbDispatch_valid valid
    intro get
    obtain ⟨payload, length, size⟩ := whole get
    rw [payload]
    obtain ⟨b0, b1, b2, b3, rest, rfl⟩ : ∃ b0 b1 b2 b3 rest, data = b0 :: b1 :: b2 :: b3 :: rest := by
      match data, length with
      | b0 :: b1 :: b2 :: b3 :: rest, _ => exact ⟨b0, b1, b2, b3, rest, rfl⟩
    exact size
  · rintro ⟨get, short⟩
    obtain ⟨payload, length, -⟩ := whole get
    rw [payload] at short
    omega

private theorem sent_offset (more : offset ≠ 0) (flags id : UInt8) :
    word ((isbFrame flags id (sentPayload offset data)).getD 6 0)
      ((isbFrame flags id (sentPayload offset data)).getD 7 0) = offset.toNat := by
  unfold sentPayload
  rw [if_pos more]
  exact word_lowByte_highByte offset.toNat_lt

private theorem sent_view (plain : flags &&& isbFlagsPayloadWOffset = 0) (small : did.toNat < 256) :
    some (isbFrameView (sentFlags flags offset) did.toUInt8 (sentPayload offset data)) =
      (Request.sentReport flags did offset data).packet := by
  have id : did.toUInt8.toNat = did.toNat := by
    rw [UInt16.toNat_toUInt8]
    exact Nat.mod_eq_of_lt small
  unfold isbFrameView Request.sentReport
  rw [sentFlags_type, id]
  by_cases more : offset ≠ 0
  · have set : sentFlags flags offset &&& isbFlagsPayloadWOffset ≠ 0 :=
      (sentFlags_offset plain).mpr more
    have length : (sentPayload offset data).length = 2 + data.length := by
      simp [sentPayload, if_pos more, wordBytes]
      omega
    have rest : (sentPayload offset data).drop 2 = data := by
      unfold sentPayload
      rw [if_pos more]
      rfl
    simp only [if_pos set, if_pos more, sent_offset more, length, rest, Nat.add_assoc]
  · have set : ¬sentFlags flags offset &&& isbFlagsPayloadWOffset ≠ 0 :=
      fun set => more ((sentFlags_offset plain).mp set)
    obtain rfl := not_not.mp more
    simp only [if_neg set, if_neg more]
    rfl

theorem sent_conforms (bufSize : Nat) (plain : flags &&& isbFlagsPayloadWOffset = 0)
    (small : did.toNat < 256) (valid : Request.Valid (flags &&& pktTypeMask) offset data)
    (fits : 8 + (sentPayload offset data).length ≤ pktBufSize) :
    Conforms bufSize .isb
      (isbFrame (sentFlags flags offset) did.toUInt8 (sentPayload offset data))
      (Request.sentReport flags did offset data) := by
  have conforms := isbFrame_conforms bufSize fits (@sent_type flags did offset data plain valid)
  rw [sent_view plain small] at conforms
  exact conforms

end Sent

/-- Whatever builds the packet, the processor accepts what was built. -/
theorem Request.builds_conforms (bufSize : Nat) {request : Request} {bytes : List UInt8}
    (admissible : request.Admissible) (built : request.Builds bytes)
    (fits : bytes.length ≤ pktBufSize) : Conforms bufSize .isb bytes request.report := by
  unfold pktBufSize at fits
  cases request with
  | write flags did offset data =>
    obtain ⟨small, plain, valid⟩ := admissible
    obtain ⟨size, comm, dataSize, length, written⟩ := built
    obtain rfl := isCommWriteToBuf_frame length (by omega) written
    rw [isbFrame_length] at fits
    exact sent_conforms bufSize plain small valid fits
  | getData did size offset periodMultiple =>
    obtain ⟨bufSize', comm, written⟩ := built
    obtain rfl := isCommWriteToBuf_frame rfl (by omega) written
    rw [isbFrame_length] at fits
    refine sent_conforms bufSize (by decide) (by decide) (.inr (.inr ⟨rfl, rfl, rfl, ?_⟩)) fits
    show word (lowByte size.toUInt16.toNat) (highByte size.toUInt16.toNat) ≤ maxDatasetSize
    rw [word_lowByte_highByte size.toUInt16.toNat_lt]
    exact admissible

private theorem boundary_reports {bufferSize : Nat} {enabledMask : UInt32}
    (enabled : enabledMask &&& Processor.isb.enableBit ≠ 0) {requests : List Request}
    {encodings : List (List UInt8)} (built : List.Forall₂ Request.Builds requests encodings)
    (admissible : ∀ request ∈ requests, request.Admissible)
    (fits : ∀ bytes ∈ encodings, bytes.length ≤ min pktBufSize (bufferSize - bufferSize / 3))
    {c : Instance} (boundary : Boundary bufferSize enabledMask c) :
    (run Instance.parseByte c encodings.flatten).2.flatten = requests.map Request.report := by
  induction built generalizing c with
  | nil => rfl
  | @cons request bytes requests encodings built _ ih =>
    have small := fits bytes (.head _)
    have conforms := Request.builds_conforms bufferSize (admissible request (.head _)) built
      (by omega)
    obtain ⟨reported, next⟩ := run_frame parseByte_feedsOnce conforms (by omega) enabled boundary
    have rest := ih (fun other member => admissible other (.tail _ member))
      (fun other member => fits other (.tail _ member)) next
    rw [List.flatten_cons, run_append, List.flatten_append, reported, rest]
    rfl

/-- Packets that are built one after another and fed byte by byte to a fresh instance are
reported one after another, each once and as it was built. -/
theorem packets_round_trip (mem : Nat → UInt8) (bufferSize : Nat) {enabledMask : UInt32}
    (enabled : enabledMask &&& Processor.isb.enableBit ≠ 0) {requests : List Request}
    {encodings : List (List UInt8)} (built : List.Forall₂ Request.Builds requests encodings)
    (admissible : ∀ request ∈ requests, request.Admissible)
    (fits : ∀ bytes ∈ encodings, bytes.length ≤ min pktBufSize (bufferSize - bufferSize / 3)) :
    (run Instance.parseByte (started mem bufferSize enabledMask) encodings.flatten).2.flatten =
      requests.map Request.report :=
  boundary_reports enabled built admissible fits (started_boundary mem bufferSize enabledMask)

/-- Packets with and without an offset, and a request for data. -/
def sampleRequests : List Request :=
  [.write 0x04 5 3 [1, 2, 3, 4], .getData 4 80 0 1, .write 0x95 9 0 [], .write 0x01 0 0x1EF [0xEF, 0x49]]

def sampleEncodings : List (List UInt8) :=
  [[239, 73, 36, 5, 6, 0, 3, 0, 1, 2, 3, 4, 116, 66],
    [239, 73, 3, 0, 8, 0, 4, 0, 80, 0, 0, 0, 1, 0, 152, 61],
    [239, 73, 149, 9, 0, 0, 214, 118],
    [239, 73, 33, 0, 4, 0, 239, 1, 239, 73, 133, 237]]

/-- The second packet straddles a shift of the buffer of 24 bytes. -/
theorem packets_round_trip_shift :
    (run Instance.parseByte (started (fun _ => 0) 24 0x01) sampleEncodings.flatten).2.flatten =
      sampleRequests.map Request.report := by
  refine packets_round_trip (fun _ => 0) 24 (by decide) ?_ ?_ (by decide)
  · refine .cons ⟨64, isCommInit (fun _ => 0) 0, 4, rfl, by decide +kernel⟩ <|
      .cons ⟨64, isCommInit (fun _ => 0) 0, by decide +kernel⟩ <|
      .cons ⟨64, isCommInit (fun _ => 0) 0, 0, rfl, by decide +kernel⟩ <|
      .cons ⟨64, isCommInit (fun _ => 0) 0, 2, rfl, by decide +kernel⟩ .nil
  · simp [sampleRequests, Request.Admissible, Request.Valid]
    decide

end InertialSense.Comm
