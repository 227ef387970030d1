import InertialSense.Comm.Rtcm3

/-! `UpdateServer` and `UpdateClient` of `InertialSense.cpp`, which forward RTCM3 and UBX packets and take
a text out of the RTCM3 message 1029. -/

namespace InertialSense.Comm

open Foundation

/-- The bytes that a `string` is assigned, from `data.ptr` on. -/
structure Text where
  start : Nat
  count : Nat
deriving DecidableEq

def isTextMessage (ptype : ProtocolType) (view : View) : Bool := ptype = .rtcm3 ∧ view.id = 1029

/-- The `str` of a packet, if it is not empty. Its length is computed in the 32 bits of `data.size`. -/
def textOf (ptype : ProtocolType) (view : View) : Option Text :=
  if isTextMessage ptype view ∧ view.data.length < 1024 then
    some ⟨12, (view.data.length + 2 ^ 32 - 12) % 2 ^ 32⟩
  else none

/-- What is done with a packet: its data goes to the clients or to `OnClientPacketReceived`, and
`messageStatsAppend` gets the text. -/
structure Handled where
  report : Report
  forwarded : List UInt8
  text : Option Text
deriving DecidableEq

def handle (report : Report) : Handled :=
  { report
    forwarded := (report.packet.filter fun _ => report.ptype = .rtcm3 ∨ report.ptype = .ublox).elim [] View.data
    text := report.packet.bind (textOf report.ptype) }

/-- The packets in the bytes that a read gives, of which there are not more than are asked for. -/
def receivePackets (c : Instance) (available : List UInt8) : Instance × List Handled :=
  let received := available.take c.isCommFree.2
  if received = [] then (c.isCommFree.1, [])
  else ((c.read received).1, (c.read received).2.map handle)

/-- `UpdateServer`, with the bytes that `serialPortReadTimeout` has. -/
def updateServer (c : Instance) (available : List UInt8) : Instance × List Handled := receivePackets c available

/-- `UpdateClient`, with the bytes that `m_clientStream` has. -/
def updateClient (c : Instance) (available : List UInt8) : Instance × List Handled := receivePackets c available

inductive Update where
  | server (available : List UInt8)
  | client (available : List UInt8)

def update (c : Instance) : Update → Instance × List Handled
  | .server available => updateServer c available
  | .client available => updateClient c available

def TextInPacket (handled : Handled) : Prop :=
  ∀ view, handled.report.packet = some view →
    if isTextMessage handled.report.ptype view then
      ∃ text, handled.text = some text ∧ text.start + text.count ≤ view.data.length
    else handled.text = none

/-- An RTCM3 frame with the message 1029 and a payload of less than six bytes. -/
def ShortText (report : Report) : Prop :=
  ∃ view upper payload, report.packet = some view ∧ isTextMessage report.ptype view ∧
    upper.toNat % 4 = payload.length / 256 ∧ view.data = rtcm3Frame upper payload ∧ payload.length < 6

def FrameReport (report : Report) : Prop :=
  report.ptype = .rtcm3 → ∃ frame, IsRtcm3 frame ∧ frame.length ≤ 1023 ∧ report = rtcm3Report frame

theorem drainFor_frames {c : Instance} (reached : c.Reached) (fuel : Nat) :
    (Instance.drainFor fuel c).1.Reached ∧ ∀ report ∈ (Instance.drainFor fuel c).2, FrameReport report := by
  induction fuel generalizing c with
  | zero => exact ⟨reached, List.forall_mem_nil _⟩
  | succ fuel ih =>
    have next : c.isCommParse.1.Reached := (Instance.operate_reached reached (.parse 0)).2
    unfold Instance.drainFor
    split
    case isTrue => exact ⟨next, List.forall_mem_nil _⟩
    case isFalse =>
      refine ⟨(ih next).1, List.forall_mem_cons.mpr ⟨fun packet => ?_, (ih next).2⟩⟩
      have found : (c.operate (.parse 0)).2 = .rtcm3 := packet
      obtain ⟨frame, message, short, same⟩ := reported_rtcm3 reached found
      refine ⟨frame, message, short, ?_⟩
      rw [← same, ← found]
      rfl

theorem update_frames {c : Instance} (reached : c.Reached) (input : Update) :
    (update c input).1.Reached ∧ ∀ handled ∈ (update c input).2,
      handled = handle handled.report ∧ FrameReport handled.report := by
  have received (available : List UInt8) : (receivePackets c available).1.Reached ∧
      ∀ handled ∈ (receivePackets c available).2,
        handled = handle handled.report ∧ FrameReport handled.report := by
    have drained := drainFor_frames (reached.isCommFree.append (available.take c.isCommFree.2))
    unfold receivePackets
    dsimp only
    split
    case isTrue => exact ⟨reached.isCommFree, nofun⟩
    case isFalse =>
      refine ⟨(drained _).1, List.forall_mem_map.mpr fun report member => ⟨rfl, ?_⟩⟩
      exact (drained _).2 report member
  cases input with
  | server available => exact received available
  | client available => exact received available

/-- A frame of at most 1023 bytes has its text in the packet if it has twelve bytes. -/
theorem textOf_inside {ptype : ProtocolType} {view : View} (message : isTextMessage ptype view)
    (short : view.data.length ≤ 1023) :
    (∃ text, textOf ptype view = some text ∧ text.start + text.count ≤ view.data.length) ↔
      12 ≤ view.data.length := by
  unfold textOf
  rw [if_pos ⟨message, by omega⟩]
  constructor
  · rintro ⟨text, same, inside⟩
    obtain rfl := Option.some.inj same
    dsimp only at inside
    omega
  · intro enough
    refine ⟨_, rfl, ?_⟩
    dsimp only
    omega

/-- A frame has six bytes beside its payload, and the text begins behind twelve. -/
theorem textInPacket_iff {report : Report} (frame : FrameReport report) :
    TextInPacket (handle report) ↔ ¬ShortText report := by
  unfold TextInPacket
  cases packet : report.packet with
  | none =>
    refine iff_of_true (fun view here => ?_) ?_
    · rw [show (handle report).report = report from rfl, packet] at here
      cases here
    · rintro ⟨view, upper, payload, here, -⟩
      rw [packet] at here
      cases here
  | some view =>
    have own : (handle report).report.packet = some view := packet
    have text : (handle report).text = textOf report.ptype view := congrArg (Option.bind · _) packet
    have ptype : (handle report).report.ptype = report.ptype := rfl
    rw [own, text, ptype]
    simp only [Option.some.injEq, forall_eq']
    by_cases message : isTextMessage report.ptype view
    · obtain ⟨data, ⟨upper, payload, field, rfl⟩, short, same⟩ := frame (of_decide_eq_true message).1
      have body : view.data = rtcm3Frame upper payload := by
        have fields := congrArg Report.packet same
        rw [packet] at fields
        exact congrArg View.data (Option.some.inj fields)
      have length := rtcm3Frame_length upper payload
      rw [if_pos message, textOf_inside message (by rwa [body]), body, length]
      constructor
      · rintro enough ⟨other, upper', payload', here, -, -, data, few⟩
        obtain rfl := Option.some.inj (packet.symm.trans here)
        have length' := congrArg List.length (body.symm.trans data)
        rw [length, rtcm3Frame_length] at length'
        omega
      · intro long
        by_contra few
        exact long ⟨view, upper, payload, packet, message, field, body, by omega⟩
    · rw [if_neg message]
      refine iff_of_true (if_neg fun both => message both.1) ?_
      rintro ⟨other, upper, payload, here, text, -⟩
      obtain rfl := Option.some.inj (packet.symm.trans here)
      exact message text

/-- In every run of `UpdateServer` and `UpdateClient` the text of a packet is in the packet if and only if
it is no message 1029 with a payload of less than six bytes. -/
theorem texts_in_packets_iff (mem : Nat → UInt8) (inputs : List Update) :
    Along update (fun c input => ∀ handled ∈ (update c input).2,
      (TextInPacket handled ↔ ¬ShortText handled.report)) (isCommInit mem pktBufSize) inputs := by
  have start : (isCommInit mem pktBufSize).Reached := .of_idle (Nat.le_refl 0) rfl
  generalize isCommInit mem pktBufSize = c at start
  induction inputs generalizing c with
  | nil => trivial
  | cons input rest ih =>
    obtain ⟨next, frames⟩ := update_frames start input
    refine ⟨fun handled member => ?_, ih _ next⟩
    obtain ⟨same, frame⟩ := frames handled member
    rw [same]
    exact textInPacket_iff frame

/-- A frame with the message 1029 and nothing behind its number. -/
def numberOnly : List UInt8 := rtcm3Frame 0 [0x40, 0x50]

/-- The length of the text of the shortest message is nearly 2^32. -/
theorem short_text_leaves_packet : ¬Along update (fun c input => ∀ handled ∈ (update c input).2, TextInPacket handled)
    (isCommInit (fun _ => 0) pktBufSize) [.server numberOnly] := by
  have handled : (update (isCommInit (fun _ => 0) pktBufSize) (.server numberOnly)).2 =
      [handle (rtcm3Report numberOnly)] := by decide +kernel
  intro along
  have inside := along.1 _ (by rw [handled]; exact List.mem_singleton_self _) _ rfl
  obtain ⟨text, same, bound⟩ := inside
  obtain rfl := Option.some.inj same
  exact absurd bound (by decide +kernel)

end InertialSense.Comm
