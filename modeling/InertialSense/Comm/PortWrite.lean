import InertialSense.Comm.Encode

/-! The encoder that writes to a port piece by piece, and packets that are sent again when their
data has changed. -/

namespace InertialSense.Comm

open Foundation

/-- `packet_t` with the checksum that the last call left in it. -/
structure PortPacket extends TxPacket where
  checksum : Checksum16

variable {σ : Type*}

/-- A call of `portWrite` whose answer is added to those before. -/
def writeMore (portWrite : σ → List UInt8 → σ × Int) (before : σ × Int) (bytes : List UInt8) :
    σ × Int :=
  ((portWrite before.1 bytes).1, before.2 + (portWrite before.1 bytes).2)

/-- `is_comm_write_isb_precomp_to_port`, for a port in the state `line`. -/
def isCommWriteIsbPrecompToPort (portWrite : σ → List UInt8 → σ × Int) (line : σ)
    (comm : Instance) (pkt : PortPacket) : σ × Instance × PortPacket × Int :=
  let pkt := { pkt with checksum := pkt.hdrCksum }
  let n := portWrite line (headerBytes pkt.flags pkt.id pkt.payloadSize)
  let n := if pkt.offset ≠ 0 then writeMore portWrite n (wordBytes pkt.offset) else n
  let pkt :=
    if pkt.data.length ≠ 0 then { pkt with checksum := fletcher16 pkt.checksum pkt.data } else pkt
  let n := if pkt.data.length ≠ 0 then writeMore portWrite n pkt.data else n
  let n := writeMore portWrite n [pkt.checksum.a, pkt.checksum.b]
  (n.1, { comm with txPktCount := comm.txPktCount + 1 }, pkt,
    if n.2 = pkt.size.toNat then n.2 else -1)

/-- `is_comm_write_pkt`. The header is encoded into `txPkt`. -/
def isCommWritePkt (portWrite : σ → List UInt8 → σ × Int) (line : σ) (comm : Instance)
    (txPkt : PortPacket) (flags : UInt8) (did dataSize offset : UInt16) (data : List UInt8) :
    σ × Instance × PortPacket × Int :=
  isCommWriteIsbPrecompToPort portWrite line comm
    { isCommEncodeHdr flags did dataSize offset data with checksum := txPkt.checksum }

/-- `is_comm_write`, with whatever `txPkt` is before. -/
def isCommWrite (portWrite : σ → List UInt8 → σ × Int) (line : σ) (comm : Instance)
    (txPkt : PortPacket) (flags : UInt8) (did dataSize offset : UInt16) (data : List UInt8) :
    σ × Instance × Int :=
  let answer := isCommWritePkt portWrite line comm txPkt flags did dataSize offset data
  (answer.1, answer.2.1, answer.2.2.2)

/-- The port that also keeps all bytes it is handed. -/
def noting (portWrite : σ → List UInt8 → σ × Int) (port : σ × List UInt8) (bytes : List UInt8) :
    (σ × List UInt8) × Int :=
  (((portWrite port.1 bytes).1, port.2 ++ bytes), (portWrite port.1 bytes).2)

/-- What the port is handed when a packet is sent once for each of these contents of its data
buffer. -/
def resend (portWrite : σ → List UInt8 → σ × Int) :
    σ → Instance → PortPacket → List (Nat → UInt8) → List (List UInt8)
  | _, _, _, [] => []
  | line, comm, pkt, content :: contents =>
    let answer := isCommWriteIsbPrecompToPort (noting portWrite) (line, []) comm
      { pkt with data := window content 0 pkt.data.length }
    answer.1.2 :: resend portWrite answer.1.1 answer.2.1 answer.2.2.1 contents

def frameOf (flags : UInt8) (did dataSize offset : UInt16) (data : Nat → UInt8) : List UInt8 :=
  isbFrame (sentFlags flags offset) did.toUInt8 (sentPayload offset (window data 0 dataSize.toNat))

/-- The two encoders write the same frame, and a packet that is sent again carries the data of
that moment. -/
structure EncodersAgree (portWrite : σ → List UInt8 → σ × Int) (flags : UInt8)
    (did dataSize offset : UInt16) (data : Nat → UInt8) : Prop where
  port : ∀ line comm txPkt,
    (isCommWrite (noting portWrite) (line, []) comm txPkt flags did dataSize offset
      (window data 0 dataSize.toNat)).1.2 = frameOf flags did dataSize offset data
  buffer : ∀ bufSize comm,
    (isCommWriteToBuf bufSize comm flags did dataSize offset (window data 0 dataSize.toNat)).2 =
      if (frameOf flags did dataSize offset data).length ≤ bufSize then
        some (frameOf flags did dataSize offset data)
      else none
  checksum : ∃ before, ∃ cksum : Checksum16,
    frameOf flags did dataSize offset data = before ++ [cksum.a, cksum.b] ∧
      cksum = fletcher16 { a := 0, b := 0 } before
  resent : ∀ line comm checksum contents,
    resend portWrite line comm
      { isCommEncodeHdr flags did dataSize offset (window data 0 dataSize.toNat) with checksum }
      contents = contents.map (frameOf flags did dataSize offset)

def TxPacket.bytes (pkt : TxPacket) : List UInt8 :=
  headerBytes pkt.flags pkt.id pkt.payloadSize ++
    (if pkt.offset ≠ 0 then wordBytes pkt.offset else []) ++ pkt.data ++
    [(fletcher16 pkt.hdrCksum pkt.data).a, (fletcher16 pkt.hdrCksum pkt.data).b]

section Pieces

variable {portWrite : σ → List UInt8 → σ × Int} {line : σ} {comm : Instance} {pkt : PortPacket}

/-- The pieces are those of the packet, with the checksum resumed from that of the header. -/
theorem precomp_written (sent : List UInt8) :
    (isCommWriteIsbPrecompToPort (noting portWrite) (line, sent) comm pkt).1.2 =
      sent ++ pkt.toTxPacket.bytes := by
  unfold isCommWriteIsbPrecompToPort TxPacket.bytes
  dsimp only
  by_cases empty : pkt.data = []
  · have none : ¬pkt.data.length ≠ 0 := not_not.mpr (List.length_eq_zero_iff.mpr empty)
    rw [if_neg none, if_neg none, empty]
    split <;> simp [writeMore, noting, fletcher16]
  · have some : pkt.data.length ≠ 0 := mt List.length_eq_zero_iff.mp empty
    rw [if_pos some, if_pos some]
    split <;> simp [writeMore, noting]

/-- Sending changes nothing but the checksum. -/
theorem precomp_kept :
    (isCommWriteIsbPrecompToPort portWrite line comm pkt).2.2.1.toTxPacket = pkt.toTxPacket := by
  unfold isCommWriteIsbPrecompToPort
  dsimp only
  split <;> rfl

end Pieces

section Frame

variable {flags : UInt8} {did dataSize offset : UInt16} {data : Nat → UInt8}

theorem frameOf_length : (frameOf flags did dataSize offset data).length =
    8 + (if offset ≠ 0 then dataSize.toNat + 2 else dataSize.toNat) := by
  unfold frameOf sentPayload
  rw [isbFrame_length]
  split
  · rw [List.length_append, window_length]
    show 8 + (2 + dataSize.toNat) = _
    rw [Nat.add_comm 2]
  · rw [window_length]

theorem encoded_size (data : Nat → UInt8) (small : dataSize.toNat + 10 < 65536)
    (bytes : List UInt8) :
    (isCommEncodeHdr flags did dataSize offset bytes).size.toNat =
      (frameOf flags did dataSize offset data).length := by
  have two : (2 : UInt16).toNat = 2 := rfl
  have six : (6 : UInt16).toNat = 6 := rfl
  rw [frameOf_length]
  show ((if offset ≠ 0 then dataSize + 2 else dataSize) + 6 + 2).toNat = _
  rw [UInt16.toNat_add, UInt16.toNat_add, two, six]
  split
  · rw [UInt16.toNat_add, two]
    omega
  · omega

private theorem buffer_written (bufSize : Nat) (comm : Instance) (bytes : List UInt8) :
    (isCommWriteToBuf bufSize comm flags did dataSize offset bytes).2 =
      if bufSize < (isCommEncodeHdr flags did dataSize offset bytes).size.toNat then none
      else some (isCommEncodeHdr flags did dataSize offset bytes).bytes := by
  unfold isCommWriteToBuf isCommWriteIsbPrecompToBuffer
  split <;> rfl

theorem encoded_bytes (small : dataSize.toNat + 10 < 65536) (comm : Instance) :
    (isCommEncodeHdr flags did dataSize offset (window data 0 dataSize.toNat)).bytes =
      frameOf flags did dataSize offset data := by
  have fits : (isCommEncodeHdr flags did dataSize offset
      (window data 0 dataSize.toNat)).size.toNat < 65536 := UInt16.toNat_lt ..
  refine isCommWriteToBuf_frame (window_length ..).symm ?_
    ((buffer_written 65536 comm _).trans (if_neg (Nat.not_lt_of_lt fits)))
  unfold TxPacket.bytes isCommEncodeHdr headerBytes wordBytes
  simp only [List.length_append, window_length, List.length_cons, List.length_nil]
  split <;> simp only [List.length_cons, List.length_nil] <;> omega

end Frame

/-- The encoders agree for whatever data, and whatever the port answers. -/
theorem encoders_agree (portWrite : σ → List UInt8 → σ × Int) (flags : UInt8)
    (did dataSize offset : UInt16) (data : Nat → UInt8) (small : dataSize.toNat + 10 < 65536) :
    EncodersAgree portWrite flags did dataSize offset data where
  port line comm txPkt := by
    unfold isCommWrite isCommWritePkt
    rw [precomp_written, List.nil_append]
    exact encoded_bytes small comm
  buffer bufSize comm := by
    rw [buffer_written, encoded_bytes small comm, encoded_size data small]
    by_cases fits : (frameOf flags did dataSize offset data).length ≤ bufSize
    · rw [if_neg (Nat.not_lt_of_le fits), if_pos fits]
    · rw [if_pos (Nat.lt_of_not_le fits), if_neg fits]
  checksum := ⟨_, _, rfl, rfl⟩
  resent line comm checksum contents := by
    suffices any : ∀ bytes : List UInt8, bytes.length = dataSize.toNat →
        resend portWrite line comm { isCommEncodeHdr flags did dataSize offset bytes with checksum }
          contents = contents.map (frameOf flags did dataSize offset) from
      any _ (window_length ..)
    induction contents generalizing line comm checksum with
    | nil => exact fun _ _ => rfl
    | cons content contents ih =>
      intro bytes length
      unfold resend
      dsimp only
      -- only the data is exchanged: the header does not depend on it
      have count : (isCommEncodeHdr flags did dataSize offset bytes).data.length =
        dataSize.toNat := length
      have onwards (answer : (σ × List UInt8) × Instance × PortPacket × Int)
          (kept : answer.2.2.1.toTxPacket = isCommEncodeHdr flags did dataSize offset
            (window content 0 dataSize.toNat)) :
          resend portWrite answer.1.1 answer.2.1 answer.2.2.1 contents =
            contents.map (frameOf flags did dataSize offset) := by
        obtain ⟨⟨line, _⟩, comm, ⟨packet, checksum⟩, _⟩ := answer
        obtain rfl := kept
        exact ih line comm checksum _ (window_length ..)
      rw [List.map_cons, count]
      refine congrArg₂ List.cons ?_ (onwards _ precomp_kept)
      rw [precomp_written, List.nil_append]
      exact encoded_bytes small comm

/-- Three bytes with an offset, to a port that takes all it is handed. -/
theorem encoders_agree_three :
    EncodersAgree (fun (_ : Unit) bytes => ((), (bytes.length : Int))) 4 7 3 12
      fun address => UInt8.ofNat address :=
  encoders_agree _ 4 7 3 12 _ (by decide)

end InertialSense.Comm
