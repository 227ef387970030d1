import InertialSense.FirmwareUpdate.Host
import InertialSense.FirmwareUpdate.Closing
import InertialSense.FirmwareUpdate.Sequencing

/-! A host and a device over an unreliable channel. Everything that was ever sent stays
deliverable: a message that is never delivered is lost, one delivered twice is duplicated,
and any order and any delay of deliveries is a run. -/

namespace InertialSense.FirmwareUpdate

open Foundation

/-- What the host offers under a session id: the image and the chunk size. -/
structure Offer where
  image : List UInt8
  chunkSize : UInt16
deriving DecidableEq

/-- Both parties, all messages sent so far, and what an observer has noted: the offers the
host made and the chunks the device accepted since its last request. -/
structure System where
  host : Host
  device : Device
  toDevice : List Payload
  toHost : List Payload
  offers : UInt16 → Option Offer
  accepted : List Accepted

/-- A step of the system: the host opens an image and requests an update, repeats its
request, sends its next chunk, or a message arrives. -/
inductive Action where
  | request (image : List UInt8) (arguments : RequestArguments) (answers : HostAnswers)
  | repeatRequest (answers : HostAnswers)
  | sendNext (answers : HostAnswers)
  | deliverToHost (index : Nat) (answers : HostAnswers)
  | deliverToDevice (index : Nat) (answers : Answers)

def Effect.sent? : Effect → Option Payload
  | .send payload => some payload
  | _ => none

namespace System

/-- The host has acted: what it sent joins the channel, and a session it started is an offer. -/
def hostActed (s : System) (acted : Host × List Payload) : System :=
  { s with
    host := acted.1
    toDevice := s.toDevice ++ acted.2
    offers := fun sessionId =>
      if sessionId = acted.1.sessionId ∧ sessionId ≠ s.host.sessionId then
        some { image := acted.1.image, chunkSize := acted.1.sessionChunkSize }
      else s.offers sessionId }

/-- The device has processed a message. -/
def deviceActed (s : System) (input : Answers × Payload) : System × List Effect :=
  let (device, effects) := s.device.step input
  ({ s with
      device
      toHost := s.toHost ++ effects.filterMap Effect.sent?
      accepted :=
        if s.device.toSession.Requested input.2 then []
        else s.accepted ++ acceptedChunk input effects }, effects)

def step (s : System) : Action → System × List Effect
  | .request image arguments answers =>
    (s.hostActed ({ s.host with image }.requestUpdate answers arguments), [])
  | .repeatRequest answers => (s.hostActed (s.host, s.host.repeatRequest answers), [])
  | .sendNext answers => (s.hostActed (s.host.sendNextChunk answers), [])
  | .deliverToHost index answers =>
    match s.toHost[index]? with
    | some payload => (s.hostActed (s.host.processMessage answers payload), [])
    | none => (s, [])
  | .deliverToDevice index answers =>
    match s.toDevice[index]? with
    | some payload => s.deviceActed (answers, payload)
    | none => (s, [])

def create (target : UInt32) : System :=
  { host := Host.create
    device := Device.create target
    toDevice := []
    toHost := []
    offers := fun _ => none
    accepted := [] }

/-- The session id a host draws has not been used, and the chunk size is one it may ask for. -/
def FreshOffer (s : System) (rand chunkSize : UInt16) : Prop :=
  rand ≠ 0 ∧ s.offers rand = none ∧ 1 ≤ chunkSize.toNat ∧ chunkSize.toNat ≤ 512

/-- Every request of the host carries a distinct non-zero session id. -/
def Fresh (s : System) : Action → Prop
  | .request _ arguments answers => s.FreshOffer answers.rand arguments.chunkSize
  | .deliverToHost index answers => ∀ payload, s.toHost[index]? = some payload →
    s.host.Renegotiates payload → s.FreshOffer answers.rand (s.host.sessionChunkSize / 2)
  | _ => True

end System

end InertialSense.FirmwareUpdate
