import InertialSense.ComManager.Remote
import InertialSense.FirmwareUpdate.Completing
import InertialSense.FirmwareUpdate.Wire

/-! An upload over two byte streams. Each party has a com manager, which reads its stream in blocks of
any size, hands firmware messages on and acknowledges them. Among the messages there is other traffic. -/

namespace InertialSense.FirmwareUpdate

open Foundation
open InertialSense.Comm (Written)
open InertialSense.ComManager (Call Node Own Site)

def didFirmwareUpdate : UInt16 := 98

/-- The call that `fwUpdate_writeToWire` of `ISFirmwareUpdater` makes. -/
def Payload.call? (payload : Payload) : Option Call :=
  payload.bytes?.map (.sendData didFirmwareUpdate 0)

/-- The frames of messages. -/
def frames (payloads : List Payload) : List Written :=
  payloads.filterMap fun payload => payload.call?.map Call.written

/-- One end of the port: the com manager, the application behind it, and the frames that are sent
during a call. -/
structure End (φ : Type*) where
  node : Node
  app : φ
  sent : List Written
  replies : Nat

/-- What stays the same at an end: how a message is processed, and the packets that the com manager
sends of its own, one after the other. -/
structure Port (φ : Type*) where
  site : Site
  process : φ → List UInt8 → φ × List Payload
  reply : Nat → Written

namespace Port

variable {φ : Type*}

def react (port : Port φ) (e : End φ) : ComManager.Effect → End φ
  | .received call =>
    if call.hdr.id = didFirmwareUpdate.toUInt8 then
      { e with
        app := (port.process e.app call.bytes).1
        sent := e.sent ++ frames (port.process e.app call.bytes).2 }
    else e
  | .sent .. => { e with sent := e.sent ++ [port.reply e.replies], replies := e.replies + 1 }
  | .acknowledged _ => e

/-- The com manager has gone on. -/
def advance (port : Port φ) (e : End φ) (node : Node) : End φ :=
  (node.log.drop e.node.log.length).foldl port.react { e with node }

def handle (port : Port φ) : Comm.Handle (End φ) := fun e answer =>
  port.advance e (port.site.handle e.node answer)

def own (port : Port φ) (e : End φ) (done : Own) : End φ := port.advance e (e.node.own done)

/-- Firmware messages are handed on, once and untrimmed. -/
structure HandsOn (site : Site) : Prop where
  once : ∃ callee, site.rx.callees didFirmwareUpdate.toUInt8 = [callee]
  untrimmed : (site.rx.regData didFirmwareUpdate.toUInt8).size = 0

/-- A frame that the parser accepts and that is no firmware message. -/
structure Foreign (site : Site) (w : Written) : Prop where
  accepted : w.Accepted Comm.pktBufSize 0x0F
  other : ∀ node c, w.Found c → ∀ call,
    .received call ∈ (site.handle node (c, w.report.ptype)).log.drop node.log.length →
      call.hdr.id ≠ didFirmwareUpdate.toUInt8

end Port

/-- A device behind its com manager, with the messages that it has handled and what it has done. -/
structure DeviceApp where
  device : Device
  handled : Nat
  effects : List Effect

/-- An `ISFirmwareUpdater` behind its com manager. -/
structure HostApp where
  host : Host
  handled : Nat

/-- Both ends, what their surroundings answer to the messages, one after the other, and what is behind
a message in the buffer of its reader. -/
structure Wiring where
  host : Site
  device : Site
  hostReply : Nat → Written
  deviceReply : Nat → Written
  hostAnswers : Nat → HostAnswers
  deviceAnswers : Nat → Answers
  behind : Nat → Nat → UInt8

/-- A stream to the device, with the device at its end, and a stream to the host. -/
structure Wires where
  toDevice : Comm.Link (End DeviceApp)
  toHost : Comm.Link (End HostApp)

/-- `fwUpdate_step` of `ISFirmwareUpdater`, or a read, other traffic or what the com manager does at one
of the ends. -/
inductive WireAction where
  | repeatRequest (answers : HostAnswers)
  | sendNext (answers : HostAnswers)
  | atDevice (action : Comm.LinkAction Own)
  | atHost (action : Comm.LinkAction Own)

namespace Wiring

variable (wiring : Wiring)

/-- A message reaches `fwUpdate_processMessage` of the device. -/
def devicePort : Port DeviceApp where
  site := wiring.device
  process app data :=
    let outcome := app.device.processBuffer (wiring.deviceAnswers app.handled)
      (store (wiring.behind app.handled) 0 data) data.length
    ({ device := outcome.device, handled := app.handled + 1, effects := app.effects ++ outcome.effects },
      outcome.effects.filterMap Effect.sent?)
  reply := wiring.deviceReply

/-- A message reaches `fwUpdate_processMessage` of the host, from `ProcessRxData`. -/
def hostPort : Port HostApp where
  site := wiring.host
  process app data :=
    let acted := app.host.processBuffer (wiring.hostAnswers app.handled)
      (store (wiring.behind app.handled) 0 data) data.length
    ({ host := acted.1, handled := app.handled + 1 }, acted.2)
  reply := wiring.hostReply

def hostActed (w : Wires) (acted : Host × List Payload) : Wires :=
  { toDevice := { w.toDevice with pipe := w.toDevice.pipe ++ Comm.stream (frames acted.2) }
    toHost :=
      { w.toHost with node := { w.toHost.node with app := { w.toHost.node.app with host := acted.1 } } } }

/-- What an end has sent is put into the pipe to the other one. -/
def step (w : Wires) : WireAction → Wires × Unit
  | .repeatRequest answers =>
    (if w.toHost.node.app.host.sessionStatus = .notStarted then
      hostActed w (w.toHost.node.app.host, w.toHost.node.app.host.repeatRequest answers)
    else w, ())
  | .sendNext answers =>
    (if w.toHost.node.app.host.sessionStatus = .ready ∨
        w.toHost.node.app.host.sessionStatus = .inProgress then
      hostActed w (w.toHost.node.app.host.sendNextChunk answers)
    else w, ())
  | .atDevice action =>
    let l := (w.toDevice.step wiring.devicePort.handle wiring.devicePort.own action).1
    ({ toDevice := { l with node := { l.node with sent := [] } }
       toHost := { w.toHost with pipe := w.toHost.pipe ++ Comm.stream l.node.sent } }, ())
  | .atHost action =>
    let l := (w.toHost.step wiring.hostPort.handle wiring.hostPort.own action).1
    ({ toDevice := { w.toDevice with pipe := w.toDevice.pipe ++ Comm.stream l.node.sent }
       toHost := { l with node := { l.node with sent := [] } } }, ())

end Wiring

/-- Nothing is under way, and the parsers are fresh. -/
def Wires.quiet (deviceMem hostMem : Nat → UInt8) (deviceNode hostNode : Node) (device : Device)
    (host : Host) : Wires :=
  { toDevice := .start deviceMem Comm.pktBufSize 0x0F
      { node := deviceNode, app := { device, handled := 0, effects := [] }, sent := [], replies := 0 }
    toHost := .start hostMem Comm.pktBufSize 0x0F
      { node := hostNode, app := { host, handled := 0 }, sent := [], replies := 0 } }

def Wires.start (quiet : Wires) (answers : HostAnswers) (arguments : RequestArguments) : Wires :=
  Wiring.hostActed quiet (quiet.toHost.node.app.host.requestUpdate answers arguments)

/-- The other traffic is accepted, and has no firmware messages. -/
def WireAction.Good (wiring : Wiring) : WireAction → Prop
  | .atDevice (.write w) => Port.Foreign wiring.device w
  | .atHost (.write w) => Port.Foreign wiring.host w
  | _ => True

/-- The messages reach the parties, what the com managers send is no message, and the device is ready,
writes what it gets, and finishes. -/
structure Wiring.Works (wiring : Wiring) : Prop where
  hostHands : Port.HandsOn wiring.host
  deviceHands : Port.HandsOn wiring.device
  hostReplies : ∀ n, Port.Foreign wiring.device (wiring.hostReply n)
  deviceReplies : ∀ n, Port.Foreign wiring.host (wiring.deviceReply n)
  willing : ∀ n, (wiring.deviceAnswers n).Willing

/-- What the two parties have come to, without what is under way. -/
def Wires.parties (w : Wires) : Line :=
  { host := w.toHost.node.app.host
    device := w.toDevice.node.app.device
    toDevice := []
    toHost := []
    effects := w.toDevice.node.app.effects }

/-- The pipes are empty, and the host has nothing to send. -/
structure Wiring.Quiet (wiring : Wiring) (w : Wires) : Prop where
  device : w.toDevice.pipe = []
  host : w.toHost.pipe = []
  silent : ∀ answers, (wiring.step w (.sendNext answers)).1.toDevice.pipe = []

/-- The message fits in a frame. -/
def Payload.Sendable (payload : Payload) : Prop :=
  ∃ call, payload.call? = some call ∧ call.Valid

/-- Frames with messages among them. -/
inductive Carries (site : Site) : List Written → List Payload → Prop where
  | nil : Carries site [] []
  | message {payload : Payload} {call : Call} {frames : List Written} {payloads : List Payload}
      (framed : payload.call? = some call) (valid : call.Valid)
      (later : Carries site frames payloads) :
      Carries site (call.written :: frames) (payload :: payloads)
  | other {w : Written} {frames : List Written} {payloads : List Payload}
      (foreign : Port.Foreign site w) (later : Carries site frames payloads) :
      Carries site (w :: frames) payloads

namespace Carries

variable {site : Site} {first second : List Written} {payloads others : List Payload}

theorem append (before : Carries site first payloads) (after : Carries site second others) :
    Carries site (first ++ second) (payloads ++ others) := by
  induction before with
  | nil => exact after
  | message framed valid _ ih => exact .message framed valid ih
  | other foreign _ ih => exact .other foreign ih

theorem accepted (carries : Carries site first payloads) :
    ∀ w ∈ first, w.Accepted Comm.pktBufSize 0x0F := by
  induction carries with
  | nil => exact List.forall_mem_nil _
  | message _ valid _ ih => exact List.forall_mem_cons.mpr ⟨Call.accepted valid, ih⟩
  | other foreign _ ih => exact List.forall_mem_cons.mpr ⟨foreign.accepted, ih⟩

/-- The messages in the first frames. -/
theorem split (carries : Carries site (first ++ second) payloads) :
    ∃ before after, payloads = before ++ after ∧ Carries site first before ∧
      Carries site second after := by
  induction first generalizing payloads with
  | nil => exact ⟨[], payloads, rfl, .nil, carries⟩
  | cons w first ih =>
    cases carries with
    | message framed valid later =>
      obtain ⟨before, after, rfl, now, rest⟩ := ih later
      exact ⟨_ :: before, after, rfl, .message framed valid now, rest⟩
    | other foreign later =>
      obtain ⟨before, after, rfl, now, rest⟩ := ih later
      exact ⟨before, after, rfl, .other foreign now, rest⟩

theorem of_frames (sendable : ∀ payload ∈ payloads, payload.Sendable) :
    Carries site (frames payloads) payloads := by
  induction payloads with
  | nil => exact .nil
  | cons payload payloads ih =>
    obtain ⟨call, framed, valid⟩ := sendable payload (.head _)
    have later := ih fun other member => sendable other (.tail _ member)
    show Carries site (List.filterMap _ _) _
    rw [List.filterMap_cons_some (by rw [framed]; rfl)]
    exact .message framed valid later

theorem none (carries : Carries site [] payloads) : payloads = [] := by
  cases carries
  rfl

theorem silent (carries : Carries site first payloads) (empty : Comm.stream first = []) :
    payloads = [] := by
  cases first with
  | nil => exact carries.none
  | cons w first =>
    have long := (carries.accepted w (.head _)).conforms.long
    have none : w.frame ++ Comm.stream first = [] := empty
    rw [(List.append_eq_nil_iff.mp none).1] at long
    exact absurd long (by decide)

end Carries

private theorem call?_eq_some {payload : Payload} {call : Call} (framed : payload.call? = some call) :
    ∃ bytes, payload.bytes? = some bytes ∧ call = .sendData didFirmwareUpdate 0 bytes := by
  obtain ⟨bytes, sent, rfl⟩ := Option.map_eq_some_iff.mp framed
  exact ⟨bytes, sent, rfl⟩

private theorem bytes?_ne_nil {payload : Payload} {bytes : List UInt8}
    (sent : payload.bytes? = some bytes) : bytes ≠ [] := by
  obtain ⟨layout, -, rfl⟩ := Option.map_eq_some_iff.mp sent
  exact List.cons_ne_nil _ _

namespace Port

variable {φ : Type*} {port : Port φ} {e e' : End φ}

private theorem advance_eq {node : Node} {effects : List ComManager.Effect}
    (log : node.log = e.node.log ++ effects) :
    port.advance e node = effects.foldl port.react { e with node } := by
  unfold advance
  rw [log, List.drop_left]

/-- A message is processed, and acknowledged. -/
private theorem handle_message (hands : HandsOn port.site) {payload : Payload} {bytes : List UInt8}
    (sent : payload.bytes? = some bytes) (valid : (Call.sendData didFirmwareUpdate 0 bytes).Valid)
    {c : Comm.Instance} (found : (Call.sendData didFirmwareUpdate 0 bytes).written.Found c)
    (e : End φ) : ∃ node,
      port.handle e (c, (Call.sendData didFirmwareUpdate 0 bytes).written.report.ptype) =
        { node
          app := (port.process e.app bytes).1
          sent := e.sent ++ frames (port.process e.app bytes).2 ++ [port.reply e.replies]
          replies := e.replies + 1 } := by
  have short : bytes.length ≤ 1024 := valid.2.1
  have size : (UInt16.ofNat bytes.length).toNat = bytes.length :=
    UInt16.toNat_ofNat_of_lt' (show _ < 65536 by omega)
  obtain ⟨callee, once⟩ := hands.once
  have constrained : ComManager.constrainedSize
      (port.site.rx.regData didFirmwareUpdate.toUInt8).size
      ⟨didFirmwareUpdate.toUInt8, UInt16.ofNat bytes.length, 0⟩ = some (UInt16.ofNat bytes.length) := by
    rw [hands.untrimmed]
    rfl
  unfold handle
  rw [ComManager.handle_deliver valid found]
  unfold Site.deliver Site.takeData
  dsimp only
  rw [if_neg (not_or.mpr ⟨by decide, bytes?_ne_nil sent⟩), constrained, once]
  dsimp only
  rw [size, List.take_length, if_pos rfl]
  exact ⟨_, (advance_eq (List.append_assoc ..)).trans rfl⟩

/-- Without a firmware message the com manager only sends packets of its own. -/
private theorem advance_quiet (port : Port φ) (e : End φ) {node : Node} (quiet : ∀ call,
    .received call ∈ node.log.drop e.node.log.length → call.hdr.id ≠ didFirmwareUpdate.toUInt8) :
    ∃ extra replies, port.advance e node = { node, app := e.app, sent := e.sent ++ extra, replies } ∧
      ∀ w ∈ extra, ∃ n, w = port.reply n := by
  unfold advance
  generalize node.log.drop e.node.log.length = effects at quiet
  obtain ⟨before, app, sent, replies⟩ := e
  dsimp only
  induction effects generalizing sent replies with
  | nil => exact ⟨[], replies, by rw [List.append_nil]; rfl, List.forall_mem_nil _⟩
  | cons effect effects ih =>
    have later : ∀ call, .received call ∈ effects → call.hdr.id ≠ didFirmwareUpdate.toUInt8 :=
      fun call member => quiet call (.tail _ member)
    cases effect with
    | received call =>
      have other : port.react ⟨node, app, sent, replies⟩ (.received call) =
          ⟨node, app, sent, replies⟩ := if_neg (quiet call (.head _))
      rw [List.foldl_cons, other]
      exact ih later sent replies
    | acknowledged => exact ih later sent replies
    | sent =>
      obtain ⟨extra, replies', same, own⟩ := ih later (sent ++ [port.reply replies]) (replies + 1)
      refine ⟨port.reply replies :: extra, replies', ?_, List.forall_mem_cons.mpr ⟨⟨_, rfl⟩, own⟩⟩
      rw [List.append_assoc] at same
      exact same

private theorem own_quiet (port : Port φ) (e : End φ) (done : Own) :
    ∃ node extra replies, port.own e done = { node, app := e.app, sent := e.sent ++ extra, replies } ∧
      ∀ w ∈ extra, ∃ n, w = port.reply n := by
  refine ⟨_, advance_quiet port e fun call member => ?_⟩
  cases done with
  | stepTx answers =>
    change _ ∈ ((_ ++ _ : List ComManager.Effect).drop _) at member
    rw [List.drop_left] at member
    obtain ⟨_, -, same⟩ := List.mem_map.mp member
    cases same
  | update =>
    change _ ∈ e.node.log.drop _ at member
    rw [List.drop_length] at member
    cases member

private theorem ignored {other : Site} (replies : ∀ n, Foreign other (port.reply n))
    {extra : List Written} (own : ∀ w ∈ extra, ∃ n, w = port.reply n) : Carries other extra [] := by
  induction extra with
  | nil => exact .nil
  | cons w extra ih =>
    obtain ⟨n, rfl⟩ := own _ (.head _)
    exact .other (replies n) (ih fun w member => own w (.tail _ member))

/-- What an end that reads messages has done. -/
private theorem reads {other : Site} {step : φ → Payload → φ × List Payload}
    (hands : HandsOn port.site) (replies : ∀ n, Foreign other (port.reply n))
    (processes : ∀ app payload bytes, payload.bytes? = some bytes →
      port.process app bytes = step app payload)
    {found : List Written} {payloads : List Payload} (carries : Carries port.site found payloads)
    (passes : Comm.Passes port.handle port.own (found.map .inl) e e') :
    e'.app = (run step e.app payloads).1 ∧ ∃ extra, e'.sent = e.sent ++ extra ∧
      ((∀ payload ∈ (run step e.app payloads).2.flatten, payload.Sendable) →
        Carries other extra (run step e.app payloads).2.flatten) := by
  induction carries generalizing e with
  | nil =>
    cases passes
    exact ⟨rfl, [], (List.append_nil _).symm, fun _ => .nil⟩
  | @message payload call _ payloads framed valid later ih =>
    obtain ⟨bytes, sent, rfl⟩ := call?_eq_some framed
    cases passes with
    | found found later =>
      obtain ⟨node, handled⟩ := handle_message hands sent valid found e
      rw [handled, processes _ _ _ sent] at later
      obtain ⟨app, extra, more, carried⟩ := ih later
      refine ⟨app, frames (step e.app payload).2 ++ ([port.reply e.replies] ++ extra), ?_,
        fun sendable => ?_⟩
      · rw [more]
        simp only [List.append_assoc]
      · rw [run_cons, List.flatten_cons] at sendable ⊢
        exact (Carries.of_frames fun other member =>
          sendable other (List.mem_append_left _ member)).append
            (.other (replies _) (carried fun other member =>
              sendable other (List.mem_append_right _ member)))
  | other foreign later ih =>
    cases passes with
    | found found later =>
      obtain ⟨own, number, handled, replied⟩ :=
        advance_quiet port e (foreign.other e.node _ found)
      change port.handle e _ = _ at handled
      rw [handled] at later
      obtain ⟨app, extra, more, carried⟩ := ih later
      refine ⟨app, own ++ extra, ?_, fun sendable => ?_⟩
      · rw [more, List.append_assoc]
      · exact (ignored replies replied).append (carried sendable)

/-- What an end does at a time: it goes through the first messages, and the others are still under
way. -/
private theorem acts (port : Port φ) (action : Comm.LinkAction Own) {other : Site} {step : φ → Payload → φ × List Payload}
    (hands : HandsOn port.site) (replies : ∀ n, Foreign other (port.reply n))
    (processes : ∀ app payload bytes, payload.bytes? = some bytes →
      port.process app bytes = step app payload)
    {link : Comm.Link (End φ)} {rest : List Written} {payloads : List Payload}
    (queues : link.Queues Comm.pktBufSize 0x0F rest) (carries : Carries port.site rest payloads)
    (silent : link.node.sent = [])
    (good : ∀ w, action = .write w → Foreign port.site w) :
    ∃ now later, payloads = now ++ later ∧
      (link.step port.handle port.own action).1.node.app = (run step link.node.app now).1 ∧
      (∃ rest', (link.step port.handle port.own action).1.Queues Comm.pktBufSize 0x0F rest' ∧
        Carries port.site rest' later) ∧
      ((∀ payload ∈ (run step link.node.app now).2.flatten, payload.Sendable) →
        Carries other (link.step port.handle port.own action).1.node.sent
          (run step link.node.app now).2.flatten) := by
  cases action with
  | write w =>
    have foreign := good w rfl
    have more : Carries port.site [w] [] := .other foreign .nil
    have queued := queues.write more.accepted
    have carried := carries.append more
    rw [List.append_nil] at carried
    refine ⟨[], payloads, rfl, rfl, ⟨rest ++ [w], ?_, carried⟩, fun _ => silent ▸ .nil⟩
    change ({ link with pipe := link.pipe ++ (w.frame ++ []) } : Comm.Link _).Queues _ _ _ at queued
    rw [List.append_nil] at queued
    exact queued
  | own done =>
    obtain ⟨node, extra, number, same, own⟩ := own_quiet port link.node done
    refine ⟨[], payloads, rfl, ?_, ⟨rest, queues, carries⟩, fun _ => ?_⟩
    · show (port.own link.node done).app = _
      rw [same]
      rfl
    · show Carries other (port.own link.node done).sent []
      rw [same, silent]
      exact ignored replies own
  | read many =>
    obtain ⟨found, later, rfl, passes, queued⟩ :=
      queues.read port.handle port.own (by decide) carries.accepted many
    obtain ⟨now, after, rfl, here, there⟩ := carries.split
    refine ⟨now, after, rfl, ?_, ⟨later, queued, there⟩, fun sendable => ?_⟩
    · exact (reads hands replies processes here passes).1
    · obtain ⟨-, extra, sent, carried⟩ := reads hands replies processes here passes
      rw [silent, List.nil_append] at sent
      rw [sent]
      exact carried sendable

end Port

/-! ### Messages and frames -/

/-- The messages that are under way are in the pipes, among other frames. -/
structure Wiring.Matches (wiring : Wiring) (l : Line) (w : Wires) : Prop where
  host : w.toHost.node.app.host = l.host
  device : w.toDevice.node.app.device = l.device
  effects : w.toDevice.node.app.effects = l.effects
  down : ∃ rest, w.toDevice.Queues Comm.pktBufSize 0x0F rest ∧ Carries wiring.device rest l.toDevice
  up : ∃ rest, w.toHost.Queues Comm.pktBufSize 0x0F rest ∧ Carries wiring.host rest l.toHost
  deviceSent : w.toDevice.node.sent = []
  hostSent : w.toHost.node.sent = []

section Sendable

variable {t : Transfer} {l : Line}

private theorem sendable_of_length {payload : Payload} {bytes : List UInt8}
    (sent : payload.bytes? = some bytes) (short : bytes.length ≤ 1024) : payload.Sendable :=
  ⟨.sendData didFirmwareUpdate 0 bytes, Option.map_eq_some_iff.mpr ⟨bytes, sent, rfl⟩,
    by show 98 < 256; decide, short, trivial⟩

private theorem asks_sendable : t.asks.Sendable :=
  sendable_of_length rfl (Nat.le_of_ble_eq_true rfl)

private theorem sends_sendable (small : t.request.chunkSize.toNat ≤ 512) (k : Nat) :
    (t.sends k).Sendable := by
  refine sendable_of_length rfl ?_
  rw [List.length_append]
  have piece : (t.piece k).length ≤ t.request.chunkSize.toNat := List.length_take_le ..
  show 14 + (t.piece k).length ≤ 1024
  omega

private theorem tells_sendable {before after : UpdateStatus} {payload : Payload}
    (tells : t.Tells before payload after) : payload.Sendable := by
  cases tells <;> exact sendable_of_length rfl (Nat.le_of_ble_eq_true rfl)

private theorem telling_sendable {before after : UpdateStatus} {payloads : List Payload}
    (telling : t.Telling before payloads after) : ∀ payload ∈ payloads, payload.Sendable := by
  induction telling with
  | nil => exact List.forall_mem_nil _
  | cons tells _ ih => exact List.forall_mem_cons.mpr ⟨tells_sendable tells, ih⟩

private theorem runs_sendable (small : t.request.chunkSize.toNat ≤ 512) (runs : t.Runs l) :
    (∀ payload ∈ l.toDevice, payload.Sendable) ∧ ∀ payload ∈ l.toHost, payload.Sendable := by
  obtain asking | ⟨j, k, sending⟩ := runs
  · refine ⟨fun payload member => asking.only payload member ▸ asks_sendable, ?_⟩
    obtain ⟨none, -⟩ | ⟨-, rest, said, telling⟩ := asking.answered
    · rw [none]
      exact List.forall_mem_nil _
    · rw [said]
      exact telling_sendable (.cons .response telling)
  · obtain ⟨again, under, -⟩ := sending.under
    obtain ⟨last, telling, -⟩ := sending.told
    refine ⟨fun payload member => ?_, telling_sendable telling⟩
    rw [under] at member
    obtain asked | sent := List.mem_append.mp member
    · rw [List.eq_of_mem_replicate asked]
      exact asks_sendable
    · obtain ⟨k, -, rfl⟩ := List.mem_map.mp sent
      exact sends_sendable small k

end Sendable

namespace Wiring

variable {wiring : Wiring} {t : Transfer} {l : Line} {w : Wires}

def deviceStep (wiring : Wiring) (app : DeviceApp) (payload : Payload) : DeviceApp × List Payload :=
  let outcome := app.device.processMessage (wiring.deviceAnswers app.handled) payload
  ({ device := outcome.device, handled := app.handled + 1, effects := app.effects ++ outcome.effects },
    outcome.effects.filterMap Effect.sent?)

def hostStep (wiring : Wiring) (app : HostApp) (payload : Payload) : HostApp × List Payload :=
  let acted := app.host.processMessage (wiring.hostAnswers app.handled) payload
  ({ host := acted.1, handled := app.handled + 1 }, acted.2)

private theorem devicePort_processes (app : DeviceApp) (payload : Payload) (bytes : List UInt8)
    (sent : payload.bytes? = some bytes) :
    wiring.devicePort.process app bytes = wiring.deviceStep app payload := by
  unfold devicePort deviceStep
  dsimp only
  rw [processBuffer_device sent]

private theorem hostPort_processes (app : HostApp) (payload : Payload) (bytes : List UInt8)
    (sent : payload.bytes? = some bytes) :
    wiring.hostPort.process app bytes = wiring.hostStep app payload := by
  unfold hostPort hostStep
  dsimp only
  rw [processBuffer_host sent]

/-- Messages that are delivered to the device, one after the other. -/
private theorem deviceMoves (willing : ∀ n, (wiring.deviceAnswers n).Willing) (app : DeviceApp)
    {payloads later : List Payload} (device : app.device = l.device) (effects : app.effects = l.effects)
    (under : l.toDevice = payloads ++ later) : ∃ moves : List LineAction,
      (∀ move ∈ moves, move.Willing) ∧
      (run Line.step l moves).1 =
        { host := l.host
          device := (run wiring.deviceStep app payloads).1.device
          toDevice := later
          toHost := l.toHost ++ (run wiring.deviceStep app payloads).2.flatten
          effects := (run wiring.deviceStep app payloads).1.effects } := by
  induction payloads generalizing l app with
  | nil =>
    refine ⟨[], List.forall_mem_nil _, ?_⟩
    obtain ⟨host, _, toDevice, toHost, _⟩ := l
    subst device effects under
    show _ = Line.mk host app.device _ (toHost ++ []) app.effects
    rw [List.append_nil]
    rfl
  | cons payload payloads ih =>
    obtain ⟨host, _, toDevice, toHost, _⟩ := l
    subst device effects under
    obtain ⟨moves, agreed, same⟩ := ih
      (l := ((Line.mk host app.device (payload :: payloads ++ later) toHost app.effects).step
        (.deliverToDevice (wiring.deviceAnswers app.handled))).1)
      (wiring.deviceStep app payload).1 rfl rfl rfl
    refine ⟨.deliverToDevice (wiring.deviceAnswers app.handled) :: moves,
      List.forall_mem_cons.mpr ⟨willing _, agreed⟩, ?_⟩
    rw [run_cons, run_cons, List.flatten_cons]
    refine same.trans ?_
    show Line.mk host _ later ((toHost ++ _) ++ _) _ = Line.mk host _ later (toHost ++ (_ ++ _)) _
    rw [List.append_assoc]
    rfl

/-- Messages that are delivered to the host. -/
private theorem hostMoves (wiring : Wiring) (app : HostApp) {payloads later : List Payload} (host : app.host = l.host)
    (under : l.toHost = payloads ++ later) : ∃ moves : List LineAction,
      (∀ move ∈ moves, move.Willing) ∧
      (run Line.step l moves).1 =
        { l with
          host := (run wiring.hostStep app payloads).1.host
          toDevice := l.toDevice ++ (run wiring.hostStep app payloads).2.flatten
          toHost := later } := by
  induction payloads generalizing l app with
  | nil =>
    refine ⟨[], List.forall_mem_nil _, ?_⟩
    obtain ⟨_, device, toDevice, toHost, effects⟩ := l
    subst host under
    show _ = Line.mk app.host device (toDevice ++ []) _ effects
    rw [List.append_nil]
    rfl
  | cons payload payloads ih =>
    obtain ⟨_, device, toDevice, toHost, effects⟩ := l
    subst host under
    obtain ⟨moves, agreed, same⟩ := ih
      (l := ((Line.mk app.host device toDevice (payload :: payloads ++ later) effects).step
        (.deliverToHost (wiring.hostAnswers app.handled))).1)
      (wiring.hostStep app payload).1 rfl rfl
    refine ⟨.deliverToHost (wiring.hostAnswers app.handled) :: moves,
      List.forall_mem_cons.mpr ⟨trivial, agreed⟩, ?_⟩
    rw [run_cons, run_cons, List.flatten_cons]
    refine same.trans ?_
    show Line.mk _ device ((toDevice ++ _) ++ _) later effects =
      Line.mk _ device (toDevice ++ (_ ++ _)) later effects
    rw [List.append_assoc]
    rfl

private theorem Matches.acted (matched : wiring.Matches l w) (acted : Host × List Payload)
    (sendable : ∀ payload ∈ l.toDevice ++ acted.2, payload.Sendable) :
    wiring.Matches { l with host := acted.1, toDevice := l.toDevice ++ acted.2 } (hostActed w acted) := by
  obtain ⟨-, device, effects, ⟨rest, queues, carries⟩, up, deviceSent, hostSent⟩ := matched
  have more : Carries wiring.device (frames acted.2) acted.2 :=
    .of_frames fun payload member => sendable payload (List.mem_append_right _ member)
  exact ⟨rfl, device, effects, ⟨rest ++ frames acted.2, queues.write more.accepted, carries.append more⟩,
    up, deviceSent, hostSent⟩

private theorem runs_moves (runs : t.Runs l) (moves : List LineAction)
    (agreed : ∀ move ∈ moves, move.Willing) : t.Runs (run Line.step l moves).1 :=
  @run_invariant _ _ _ Line.step (fun _ action => action.Willing) t.Runs
    (fun _ _ runs willing => Transfer.runs_step runs willing) _ _ runs (Along.of_forall agreed)

/-- A step at the streams is some steps on the line. -/
private theorem step_matches (works : wiring.Works) (small : t.request.chunkSize.toNat ≤ 512)
    (matched : wiring.Matches l w) (runs : t.Runs l) {action : WireAction}
    (good : action.Good wiring) : ∃ moves : List LineAction, (∀ move ∈ moves, move.Willing) ∧
      wiring.Matches (run Line.step l moves).1 (wiring.step w action).1 := by
  cases action with
  | repeatRequest answers =>
    refine ⟨[.repeatRequest answers], List.forall_mem_singleton.mpr trivial, ?_⟩
    have sendable := runs_sendable small (runs_moves runs [.repeatRequest answers]
      (List.forall_mem_singleton.mpr trivial))
    change wiring.Matches (if l.host.sessionStatus = .notStarted then _ else _)
      (if w.toHost.node.app.host.sessionStatus = .notStarted then _ else _)
    change (∀ payload ∈ (if l.host.sessionStatus = .notStarted then _ else _ : Line).toDevice, _) ∧ _
      at sendable
    rw [matched.host]
    by_cases asked : l.host.sessionStatus = .notStarted
    · rw [if_pos asked] at sendable ⊢
      rw [if_pos asked]
      exact matched.acted (l.host, _) sendable.1
    · rw [if_neg asked, if_neg asked]
      exact matched
  | sendNext answers =>
    refine ⟨[.sendNext answers], List.forall_mem_singleton.mpr trivial, ?_⟩
    have sendable := runs_sendable small (runs_moves runs [.sendNext answers]
      (List.forall_mem_singleton.mpr trivial))
    change wiring.Matches
      (if l.host.sessionStatus = .ready ∨ l.host.sessionStatus = .inProgress then _ else _)
      (if w.toHost.node.app.host.sessionStatus = .ready ∨
        w.toHost.node.app.host.sessionStatus = .inProgress then _ else _)
    change (∀ payload ∈ (if l.host.sessionStatus = .ready ∨ l.host.sessionStatus = .inProgress then _
      else _ : Line).toDevice, _) ∧ _ at sendable
    rw [matched.host]
    by_cases enabled : l.host.sessionStatus = .ready ∨ l.host.sessionStatus = .inProgress
    · rw [if_pos enabled] at sendable ⊢
      rw [if_pos enabled]
      exact matched.acted _ sendable.1
    · rw [if_neg enabled, if_neg enabled]
      exact matched
  | atDevice action =>
    obtain ⟨host, device, effects, ⟨rest, queues, carries⟩, ⟨up, queued, carried⟩, deviceSent,
      hostSent⟩ := matched
    obtain ⟨now, later, under, app, behind, sent⟩ := Port.acts wiring.devicePort action
      works.deviceHands works.deviceReplies devicePort_processes queues carries deviceSent
      (by rintro w rfl; exact good)
    obtain ⟨moves, agreed, same⟩ := deviceMoves works.willing _ device effects under
    have sendable := (runs_sendable small (runs_moves runs moves agreed)).2
    rw [same] at sendable
    have said := sent fun payload member => sendable payload (List.mem_append_right _ member)
    refine ⟨moves, agreed, ?_⟩
    rw [same]
    exact ⟨host, congrArg DeviceApp.device app, congrArg DeviceApp.effects app, behind,
      ⟨_, queued.write said.accepted, carried.append said⟩, rfl, hostSent⟩
  | atHost action =>
    obtain ⟨host, device, effects, ⟨down, queued, carried⟩, ⟨rest, queues, carries⟩, deviceSent,
      hostSent⟩ := matched
    obtain ⟨now, later, under, app, behind, sent⟩ := Port.acts wiring.hostPort action
      works.hostHands works.hostReplies hostPort_processes queues carries hostSent
      (by rintro w rfl; exact good)
    obtain ⟨moves, agreed, same⟩ := hostMoves wiring _ host under
    have sendable := (runs_sendable small (runs_moves runs moves agreed)).1
    rw [same] at sendable
    have said := sent fun payload member => sendable payload (List.mem_append_right _ member)
    refine ⟨moves, agreed, ?_⟩
    rw [same]
    exact ⟨congrArg HostApp.host app, device, effects,
      ⟨_, queued.write said.accepted, carried.append said⟩, behind, deviceSent, rfl⟩

private theorem run_matches (works : wiring.Works) (small : t.request.chunkSize.toNat ≤ 512)
    (matched : wiring.Matches l w) (runs : t.Runs l) {actions : List WireAction}
    (good : ∀ action ∈ actions, action.Good wiring) : ∃ moves : List LineAction,
      (∀ move ∈ moves, move.Willing) ∧
      wiring.Matches (run Line.step l moves).1 (run wiring.step w actions).1 := by
  induction actions generalizing l w with
  | nil => exact ⟨[], List.forall_mem_nil _, matched⟩
  | cons action actions ih =>
    obtain ⟨now, good⟩ := List.forall_mem_cons.mp good
    obtain ⟨moves, agreed, next⟩ := step_matches works small matched runs now
    obtain ⟨others, agreed', last⟩ := ih next (runs_moves runs moves agreed) good
    refine ⟨moves ++ others, List.forall_mem_append.mpr ⟨agreed, agreed'⟩, ?_⟩
    rw [run_append]
    exact last

private theorem start_matches (small : t.request.chunkSize.toNat ≤ 512) {host : Host}
    {device : Device} {answers : HostAnswers} {arguments : RequestArguments}
    (runs : t.Runs (Line.start host device answers arguments)) (deviceMem hostMem : Nat → UInt8)
    (deviceNode hostNode : Node) :
    wiring.Matches (Line.start host device answers arguments)
      (hostActed (Wires.quiet deviceMem hostMem deviceNode hostNode device host)
        (host.requestUpdate answers arguments)) := by
  have before : wiring.Matches { host, device, toDevice := [], toHost := [], effects := [] }
      (Wires.quiet deviceMem hostMem deviceNode hostNode device host) :=
    ⟨rfl, rfl, rfl, ⟨[], .start .., .nil⟩, ⟨[], .start .., .nil⟩, rfl, rfl⟩
  exact before.acted _ (runs_sendable small runs).1

/-- When the streams are quiet, so is the line, and it has come to the same. -/
private theorem Matches.quiet (matched : wiring.Matches l w) (runs : t.Runs l)
    (small : t.request.chunkSize.toNat ≤ 512) (quiet : wiring.Quiet w) :
    l.Quiet ∧ l = w.parties := by
  obtain ⟨host, device, effects, ⟨down, queues, carries⟩, ⟨up, queued, carried⟩, -, -⟩ := matched
  obtain rfl := queues.none quiet.device
  obtain rfl := queued.none quiet.host
  have arrived := carries.none
  have heard := carried.none
  obtain ⟨_, _, toDevice, toHost, _⟩ := l
  dsimp only at host device effects arrived heard
  subst host device effects arrived heard
  refine ⟨fun action busy => ?_, rfl⟩
  cases action with
  | repeatRequest => exact busy
  | deliverToDevice => exact busy rfl
  | deliverToHost => exact busy rfl
  | sendNext answers =>
    have empty : w.toDevice.pipe = [] := quiet.device
    have silent := quiet.silent answers
    have sendable := (runs_sendable small (runs_moves runs [.sendNext answers]
      (List.forall_mem_singleton.mpr trivial))).1
    change (∀ payload ∈ (if w.toHost.node.app.host.sessionStatus = .ready ∨
      w.toHost.node.app.host.sessionStatus = .inProgress then _ else _ : Line).toDevice, _) at sendable
    change (if w.toHost.node.app.host.sessionStatus = .ready ∨
      w.toHost.node.app.host.sessionStatus = .inProgress then _ else _ : Wires).toDevice.pipe = [] at silent
    change (if w.toHost.node.app.host.sessionStatus = .ready ∨
      w.toHost.node.app.host.sessionStatus = .inProgress then _ else _ : Line).toDevice ≠ [] at busy
    by_cases enabled : w.toHost.node.app.host.sessionStatus = .ready ∨
        w.toHost.node.app.host.sessionStatus = .inProgress
    · rw [if_pos enabled] at sendable silent busy
      change w.toDevice.pipe ++ _ = [] at silent
      rw [empty, List.nil_append] at silent
      have carried : Carries wiring.device
          (frames (w.toHost.node.app.host.sendNextChunk answers).2) _ := .of_frames sendable
      exact busy (carried.silent silent)
    · rw [if_neg enabled] at busy
      exact busy rfl

end Wiring

/-! ### Other traffic -/

/-- What is neither data nor an error is no firmware message. -/
theorem Port.foreign_of_report {site : Site} {w : Written}
    (accepted : w.Accepted Comm.pktBufSize 0x0F) (sound : w.report.ptype ≠ .parseError)
    (other : w.report.ptype.isIsb = true → ∀ view ∈ w.report.packet,
      view.pktType ≠ Comm.pktTypeSetData ∧ view.pktType ≠ Comm.pktTypeData) :
    Port.Foreign site w := by
  refine ⟨accepted, fun node c found call member => ?_⟩
  obtain ⟨-, effects, log, quiet⟩ := @ComManager.handle_quiet site node c w found sound other
  rw [log, List.drop_left] at member
  exact absurd member (quiet call)

/-- The packet that acknowledges a message, with its body. -/
def ackPacket (body : List UInt8) : Written :=
  { processor := .isb
    frame := Comm.isbFrame (Comm.sentFlags Comm.pktTypeAck 0) 0 (Comm.sentPayload 0 body)
    report := Comm.Request.sentReport Comm.pktTypeAck 0 0 body }

theorem ackPacket_foreign (site : Site) {body : List UInt8} (short : body.length ≤ 1024) :
    Port.Foreign site (ackPacket body) := by
  obtain ⟨sound, other⟩ := @ComManager.replyPacket_quiet Comm.pktTypeAck body (.inl rfl)
  exact Port.foreign_of_report (ComManager.replyPacket_accepted (.inl rfl) short) sound other

/-! ### The upload -/

/-- The parties of an upload over two streams. Whatever is read at a time and whatever else is in the
streams, the device writes parts of the image in order, each once, and when nothing is under way and
nothing left to send, the upload has finished. -/
theorem upload_over_streams (t : Transfer) (small : t.request.chunkSize.toNat ≤ 512) (wiring : Wiring)
    (works : wiring.Works) (deviceMem hostMem : Nat → UInt8) (deviceNode hostNode : Node)
    (device : Device) (host : Host) (answers : HostAnswers) (arguments : RequestArguments)
    (wired : answers.writeToWire = true) (opened : host.image = t.image)
    (target : device.sessionTarget = t.target)
    (requested : (host.requestUpdate answers arguments).1.request = t.asks)
    (actions : List WireAction) (good : ∀ action ∈ actions, action.Good wiring) {w : Wires}
    (reached : w = (run wiring.step
      ((Wires.quiet deviceMem hostMem deviceNode hostNode device host).start answers arguments)
        actions).1) :
    (∃ k ≤ t.count, t.Did k w.parties.effects) ∧ (wiring.Quiet w → t.Finished w.parties) := by
  have runs := Transfer.start_runs wired opened target requested
  obtain ⟨moves, agreed, matched⟩ := Wiring.run_matches works small
    (Wiring.start_matches small runs deviceMem hostMem deviceNode hostNode) runs good
  have later := Wiring.runs_moves runs moves agreed
  change wiring.Matches _ (run wiring.step
    ((Wires.quiet deviceMem hostMem deviceNode hostNode device host).start answers arguments)
      actions).1 at matched
  rw [← reached] at matched
  refine ⟨?_, fun quiet => ?_⟩
  · show ∃ k ≤ t.count, t.Did k w.toDevice.node.app.effects
    rw [matched.effects]
    obtain asking | ⟨j, k, sending⟩ := later
    · exact ⟨0, Nat.zero_le _, asking.did⟩
    · exact ⟨k, Nat.le_trans sending.reached sending.feeds.inside, sending.did⟩
  · obtain ⟨still, same⟩ := matched.quiet later small quiet
    rw [← same]
    exact Transfer.quiet_finished later still

/-- Com managers that hand everything on. -/
def plainSite : Site where
  rx := { regData := fun _ => { rxPtr := none, size := 0, pstRxFnc := false }, pstRxFnc := true }
  pHandle := 0
  answers := fun _ => { txFree := fun _ _ => 0, preTx := fun _ _ _ => true, rmc := false }

def plainWiring : Wiring where
  host := plainSite
  device := plainSite
  hostReply := fun _ => ackPacket [0, 0, 0, 0]
  deviceReply := fun _ => ackPacket [0, 0, 0, 0]
  hostAnswers := fun n => { currentTimeMs := UInt32.ofNat n, rand := 7, writeToWire := true }
  deviceAnswers := fun _ => .granting
  behind := fun _ _ => 0

theorem plainWiring_works : plainWiring.Works where
  hostHands := ⟨⟨.general, rfl⟩, rfl⟩
  deviceHands := ⟨⟨.general, rfl⟩, rfl⟩
  hostReplies := fun _ => ackPacket_foreign plainSite (by decide)
  deviceReplies := fun _ => ackPacket_foreign plainSite (by decide)
  willing := fun _ => ⟨rfl, show 0 ≤ UpdateStatus.value .inProgress by decide, rfl⟩

/-- The request is cut, and there is an acknowledgement behind it. -/
def cutReads : List WireAction :=
  [.atDevice (.read 20), .atDevice (.write (ackPacket [1])), .atDevice (.read 40), .atHost (.read 9)]

/-- The upload of three bytes, after these reads. -/
def cutWires : Wires :=
  (run plainWiring.step
    ((Wires.quiet (fun _ => 0) (fun _ => 0) ComManager.smallNode ComManager.smallNode
      (Device.create 0x10) { Host.create with image := [1, 2, 3] }).start
        { currentTimeMs := 0, rand := 7, writeToWire := true }
        { target := 0x10, imageSlot := 0, imageFlags := 0, chunkSize := 2, imageSize := 3
          imageMd5 := Md5.Standard.md5 [1, 2, 3], progressRate := 250 }) cutReads).1

theorem upload_over_streams_cut :
    (∃ k ≤ Transfer.small.count, Transfer.small.Did k cutWires.parties.effects) ∧
      (plainWiring.Quiet cutWires → Transfer.small.Finished cutWires.parties) := by
  refine upload_over_streams Transfer.small (by decide) plainWiring plainWiring_works _ _ _ _ _ _ _ _
    rfl rfl rfl rfl cutReads ?_ rfl
  refine List.forall_mem_cons.mpr ⟨trivial, List.forall_mem_cons.mpr ⟨?_, List.forall_mem_cons.mpr
    ⟨trivial, List.forall_mem_singleton.mpr trivial⟩⟩⟩
  exact ackPacket_foreign plainSite (by decide)

end InertialSense.FirmwareUpdate
