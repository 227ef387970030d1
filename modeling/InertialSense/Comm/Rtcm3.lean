import InertialSense.Comm.Arrival

/-! The RTCM3 frames that are reported. The limit on the payload, 1023 bytes, is applied to the
whole frame, so the longest frames are lost. -/

namespace InertialSense.Comm

open Foundation

/-- An RTCM3 frame: the field of ten bits holds the length of the payload. -/
def IsRtcm3 (frame : List UInt8) : Prop :=
  ∃ upper payload, upper.toNat % 4 = payload.length / 256 ∧ frame = rtcm3Frame upper payload

def rtcm3Report (frame : List UInt8) : Report :=
  { ptype := .rtcm3
    packet := some (wholeView (getBitsAsUInt32 (fun k => frame.getD k 0) 24 12).toNat frame) }

/-- One RTCM3 packet is returned, at the last byte, and its data is the frame. -/
def OneRtcm3 (frame : List UInt8) (outputs : List (List Report)) : Prop :=
  ∃ before last, outputs = before ++ [last] ∧
    (∀ reports ∈ before, ∀ report ∈ reports, report.ptype ≠ .rtcm3) ∧
      ∃ view, last.filter (·.ptype = .rtcm3) = [⟨.rtcm3, some view⟩] ∧ view.data = frame

/-! ### The checks on a frame -/

section Checks

variable {upper : UInt8} {payload : List UInt8} {bufSize : Nat}

private theorem rtcm3FrameSize_frame (field : upper.toNat % 4 = payload.length / 256) :
    rtcm3FrameSize (fun k => (rtcm3Frame upper payload).getD k 0) = 6 + payload.length := by
  have low : (lowByte payload.length).toNat = payload.length % 256 := by
    unfold lowByte
    rw [UInt8.toNat_ofNat']
    omega
  unfold rtcm3FrameSize
  rw [getBitsAsUInt32_ten]
  show 256 * (upper.toNat % 4) + (lowByte payload.length).toNat + 6 = 6 + payload.length
  omega

private theorem window_frame {frame : List UInt8} {count : Nat} (inside : count ≤ frame.length) :
    window (fun k => frame.getD k 0) 0 count = frame.take count := by
  rw [window_getD frame 0 (by omega), List.drop_zero]

private theorem rtcm3Verdict_frame (field : upper.toNat % 4 = payload.length / 256)
    (fits : payload.length ≤ 1017) (room : 1029 ≤ bufSize) (size : bufSize < 2 ^ 32) :
    ∃ positive, rtcm3Verdict bufSize (fun k => (rtcm3Frame upper payload).getD k 0)
        (rtcm3Frame upper payload).length =
      .accepted (rtcm3Frame upper payload).length positive
        (rtcm3Report (rtcm3Frame upper payload)) := by
  have length := rtcm3Frame_length upper payload
  have whole := rtcm3FrameSize_frame field
  have body : window (fun k => (rtcm3Frame upper payload).getD k 0) 0 (3 + payload.length) =
      rtcm3Body upper payload := by
    rw [window_frame (by omega)]
    exact List.take_left' (by simp [rtcm3Body]; omega)
  have all : window (fun k => (rtcm3Frame upper payload).getD k 0) 0 (6 + payload.length) =
      rtcm3Frame upper payload := by
    rw [window_frame (by omega), ← length, List.take_length]
  have front : 6 + payload.length - 3 = 3 + payload.length := by omega
  refine ⟨by omega, ?_⟩
  unfold rtcm3Verdict
  rw [if_neg (by omega)]
  simp only [whole, length, front]
  rw [if_neg (by omega), if_neg (by omega), body, rtcm3Frame_crc, if_pos rfl, all]
  simp only [rtcm3Report, frameReport, wholeView, length]

/-- Bytes that pass the checks are three bytes of header, the payload and the checksum. -/
private theorem isRtcm3_of_checks {frame : List UInt8} (start : frame.getD 0 0 = 0xD3)
    (size : rtcm3FrameSize (fun k => frame.getD k 0) = frame.length)
    (crc : calculate24BitCRCQ (frame.take (frame.length - 3)) =
      getBitsAsUInt32 (fun k => frame.getD (frame.length - 3 + k) 0) 0 24) : IsRtcm3 frame := by
  have second := (frame.getD 2 0).toNat_lt
  have length : 256 * ((frame.getD 1 0).toNat % 4) + (frame.getD 2 0).toNat + 6 = frame.length := by
    unfold rtcm3FrameSize at size
    rwa [getBitsAsUInt32_ten] at size
  have header : frame = 0xD3 :: frame.getD 1 0 :: frame.getD 2 0 :: frame.drop 3 := by
    calc frame = frame.drop 0 := frame.drop_zero.symm
      _ = _ := by
        rw [drop_split (by omega), drop_split (by omega), drop_split (by omega), start]
  have trailer : frame.drop (frame.length - 3) =
      crcBytes (calculate24BitCRCQ (frame.take (frame.length - 3))) := by
    rw [crc, crcBytes_getBitsAsUInt32, drop_split (by omega), drop_split (by omega),
      drop_split (by omega), List.drop_eq_nil_of_le (by omega)]
    rfl
  have payload : ((frame.drop 3).take (frame.length - 6)).length = frame.length - 6 := by
    rw [List.length_take, List.length_drop]
    omega
  have low : lowByte (frame.length - 6) = frame.getD 2 0 := by
    apply UInt8.toNat_inj.mp
    unfold lowByte
    rw [UInt8.toNat_ofNat']
    omega
  have body : rtcm3Body (frame.getD 1 0) ((frame.drop 3).take (frame.length - 6)) =
      frame.take (frame.length - 3) := by
    unfold rtcm3Body
    rw [payload, low, show frame.length - 3 = frame.length - 6 + 3 by omega]
    exact (congrArg (List.take (frame.length - 6 + 3)) header).symm
  refine ⟨frame.getD 1 0, (frame.drop 3).take (frame.length - 6), by omega, ?_⟩
  unfold rtcm3Frame
  rw [body, ← trailer, List.take_append_drop]

private theorem isRtcm3_of_accepted {frame : List UInt8} (start : frame.getD 0 0 = 0xD3)
    {positive : 0 < frame.length} {report : Report}
    (accepted : rtcm3Verdict bufSize (fun k => frame.getD k 0) frame.length =
      .accepted frame.length positive report) :
    IsRtcm3 frame ∧ frame.length ≤ 1023 ∧ report = rtcm3Report frame := by
  unfold rtcm3Verdict at accepted
  split at accepted
  case isTrue => cases accepted
  split at accepted
  case isTrue => cases accepted
  case isFalse limits =>
    split at accepted
    case isTrue => cases accepted
    split at accepted
    case isFalse => cases accepted
    case isTrue crc =>
      obtain ⟨size, same⟩ := Verdict.accepted.inj accepted
      rw [size] at crc same limits
      rw [window_frame (Nat.le_refl _), List.take_length] at same
      rw [window_frame (Nat.sub_le ..)] at crc
      exact ⟨isRtcm3_of_checks start size crc, by omega, same.symm⟩

end Checks

/-! ### Runs -/

theorem reported_rtcm3 {c : Instance} (reached : c.Reached) {operation : Operation}
    (found : (c.operate operation).2 = .rtcm3) :
    ∃ frame, IsRtcm3 frame ∧ frame.length ≤ 1023 ∧
      (c.operate operation).1.report .rtcm3 = rtcm3Report frame := by
  have packet : (c.operate operation).2 = Processor.rtcm3.packetType := found
  obtain ⟨frame, positive, report, start, accepted, reported⟩ :=
    reached.operate_frame (by decide) packet
  obtain ⟨message, short, same⟩ := isRtcm3_of_accepted start accepted
  exact ⟨frame, message, short, reported.trans same⟩

/-- No longer packet is ever reported. -/
private theorem reported_short {c : Instance} (reached : c.Reached) (bytes : List UInt8) :
    ∀ reports ∈ (run Instance.parseByte c bytes).2, ∀ view, ⟨.rtcm3, some view⟩ ∈ reports →
      view.data.length ≤ 1023 := by
  induction bytes generalizing c with
  | nil => intro reports member; cases member
  | cons byte rest ih =>
    have next := (Instance.operate_reached reached (.parseByte byte 0)).2
    intro reports member view found
    rcases List.mem_cons.mp member with first | later
    · subst first
      have ptype : (c.operate (.parseByte byte 0)).2 = .rtcm3 ∧
          (c.operate (.parseByte byte 0)).1.report .rtcm3 = ⟨.rtcm3, some view⟩ := by
        change _ ∈ Instance.outputs (c.operate (.parseByte byte 0)) at found
        unfold Instance.outputs at found
        split at found
        · cases found
        · have same := List.mem_singleton.mp found
          have ptype := congrArg Report.ptype same
          have type : (c.operate (.parseByte byte 0)).2 = .rtcm3 := ptype.symm
          rw [type] at same
          exact ⟨type, same.symm⟩
      obtain ⟨frame, -, short, reported⟩ := reported_rtcm3 reached ptype.1
      have data := congrArg Report.packet (ptype.2.symm.trans reported)
      have same : view = _ := Option.some.inj data
      rw [same]
      exact short
    · exact ih next reports later view found

private theorem OneRtcm3.short {c : Instance} {frame bytes : List UInt8}
    (one : OneRtcm3 frame (run Instance.parseByte c bytes).2) (reached : c.Reached) :
    frame.length ≤ 1023 := by
  obtain ⟨before, last, outputs, -, view, found, data⟩ := one
  have member : ⟨.rtcm3, some view⟩ ∈ last :=
    List.mem_of_mem_filter (by rw [found]; exact List.mem_singleton_self _)
  have inside : last ∈ (run Instance.parseByte c bytes).2 := by
    rw [outputs]
    exact List.mem_append_right _ (List.mem_singleton_self _)
  rw [← data]
  exact reported_short reached bytes last inside view member

/-- An RTCM3 frame that comes to an idle parser is returned once, at its last byte, if and only
if its payload has at most 1017 bytes. In every run each RTCM3 packet that is returned is an RTCM3
frame. -/
theorem rtcm3_acceptance_iff (mem : Nat → UInt8) {bufferSize : Nat} {enabledMask : UInt32}
    (large : 2048 ≤ bufferSize) (size : bufferSize < 2 ^ 32)
    (enabled : enabledMask &&& Processor.rtcm3.enableBit ≠ 0) :
    (∀ c, Idle bufferSize enabledMask c →
      ∀ upper payload, upper.toNat % 4 = payload.length / 256 →
        (OneRtcm3 (rtcm3Frame upper payload)
            (run Instance.parseByte c (rtcm3Frame upper payload)).2 ↔ payload.length ≤ 1017)) ∧
    ∀ operations : List Operation, Along Instance.operate
      (fun c operation => (c.operate operation).2 = .rtcm3 →
        ∃ frame, IsRtcm3 frame ∧ (c.operate operation).1.report .rtcm3 = rtcm3Report frame)
      (started mem bufferSize enabledMask) operations := by
  refine ⟨fun c idle upper payload field => ⟨fun one => ?_, fun fits => ?_⟩, fun operations => ?_⟩
  · have short := one.short (.of_idle idle.ordered idle.idle)
    rw [rtcm3Frame_length] at short
    omega
  · have length := rtcm3Frame_length upper payload
    obtain ⟨positive, accepted⟩ := rtcm3Verdict_frame field fits (by omega) size
    have outputs := (idle.run_frame (by omega) (by decide) enabled rfl rfl accepted (by omega)).1
    refine ⟨_, _, outputs, ?_, _, rfl, rfl⟩
    intro reports member report inside
    rw [List.eq_of_mem_replicate member] at inside
    cases inside
  · refine Instance.Reached.along ?_ (Instance.started_reached ..) operations
    intro c operation reached found
    obtain ⟨frame, message, -, reported⟩ := reported_rtcm3 reached found
    exact ⟨frame, message, reported⟩

/-- A frame of the length 1023. -/
theorem rtcm3_acceptance_iff_longest :
    OneRtcm3 (rtcm3Frame 0xFF (List.replicate 1017 0xA5))
      (run Instance.parseByte (started (fun _ => 0) 2048 0x0F)
        (rtcm3Frame 0xFF (List.replicate 1017 0xA5))).2 :=
  ((rtcm3_acceptance_iff (fun _ => 0) (by decide) (by decide) (by decide)).1 _
    ⟨rfl, rfl, rfl, Nat.le_refl _, rfl, Nat.zero_le _⟩ 0xFF _
    (by rw [List.length_replicate]; decide)).mpr (by rw [List.length_replicate])

/-- A frame with the longest payload is not reported. -/
theorem rtcm3_longest_payload_lost :
    ¬OneRtcm3 (rtcm3Frame 0x03 (List.replicate 1023 0))
      (run Instance.parseByte (started (fun _ => 0) 2048 0x0F)
        (rtcm3Frame 0x03 (List.replicate 1023 0))).2 := by
  intro one
  have short := one.short (Instance.started_reached _ _ _)
  rw [rtcm3Frame_length, List.length_replicate] at short
  omega

end InertialSense.Comm
