import InertialSense.Comm.Encode
import InertialSense.Foundation.Run
import InertialSense.Foundation.Sweep
import Mathlib.Data.List.Sort

/-! The broadcast table of `com_manager.c`: data requests that are answered at once, later or
again and again, the step that sends what is due, and the commands that stop it. -/

namespace InertialSense.ComManager

open Foundation

abbrev maxNumBcastMsgs : Nat := 12

def didCount : Nat := 132

def didReferenceImu : UInt16 := 95

def msgPeriodSendOnce : Int := -1

def msgPeriodDisabled : Int := 0

/-- `packet_t` as a slot keeps it. The data is read through `data.ptr` when the packet is
sent. -/
structure Packet extends Comm.TxPacket where
  dataPtr : Option Nat
  dataSize : UInt16

deriving instance DecidableEq for Comm.TxPacket
deriving instance DecidableEq for Packet

/-- `broadcast_msg_t`. -/
structure BroadcastMsg where
  pkt : Packet
  counter : Int
  period : Int
  pHandle : Int
deriving DecidableEq

/-- What `registered_data_t` says about a data set that is sent; of `preTxFnc`, whether there
is one. -/
structure RegisteredData where
  txPtr : Option Nat
  size : UInt32
  preTxFnc : Bool

/-- `com_manager_t`, as far as broadcasts are concerned. `txFree` and `rmc` tell whether these
callbacks are set. -/
structure Instance where
  txFree : Bool
  rmc : Bool
  regData : UInt16 → RegisteredData
  stepPeriodMilliseconds : Int
  broadcastMessages : Fin maxNumBcastMsgs → BroadcastMsg

/-- What the callbacks answer during a call: `txFree` and `preTxFnc` when they are asked about
a slot, and whether `rmc` takes the request. -/
structure Answers where
  txFree : Fin maxNumBcastMsgs → Int → UInt32
  preTx : Fin maxNumBcastMsgs → UInt16 → Int → Bool
  rmc : Bool

/-- `p_data_get_t`. -/
structure DataGet where
  id : UInt16
  size : UInt16
  offset : UInt16
  period : UInt16
deriving DecidableEq

/-- What is written to a port: a data packet, or an acknowledgement of a packet type. -/
inductive Transmission where
  | data (port : Int) (pkt : Packet)
  | reply (port : Int) (pktType : UInt8)
deriving DecidableEq

/-- A slot of the table after `memset`. -/
def emptyMsg : BroadcastMsg :=
  { pkt :=
      { flags := 0, id := 0, payloadSize := 0, offset := 0, data := [], size := 0,
        hdrCksum := { a := 0, b := 0 }, dataPtr := none, dataSize := 0 }
    counter := 0
    period := 0
    pHandle := 0 }

/-- `initComManagerInstanceInternal`, with the data sets that are registered. -/
def initComManager (txFree rmc : Bool) (stepPeriodMilliseconds : Int)
    (regData : UInt16 → RegisteredData) : Instance :=
  { txFree, rmc, regData, stepPeriodMilliseconds, broadcastMessages := fun _ => emptyMsg }

namespace Instance

variable (cm : Instance)

/-- One slot is written. -/
def setMsg (k : Fin maxNumBcastMsgs) (msg : BroadcastMsg) : Instance :=
  { cm with broadcastMessages := Function.update cm.broadcastMessages k msg }

/-- `enableBroadcastMsg`. The division truncates; a step period of zero would trap. -/
def enableBroadcastMsg (msg : BroadcastMsg) (periodMultiple : Int) : BroadcastMsg :=
  { msg with
    period :=
      if 0 < periodMultiple then periodMultiple.tdiv cm.stepPeriodMilliseconds
      else msgPeriodSendOnce
    counter := -1 }

end Instance

def disableBroadcastMsg (msg : BroadcastMsg) : BroadcastMsg := { msg with period := msgPeriodDisabled }

namespace Instance

variable (cm : Instance)

/-! ### Data requests -/

/-- A request of size and offset 0 asks for the whole data set. -/
def complete (req : DataGet) : DataGet :=
  if req.size = 0 ∧ req.offset = 0 then { req with size := (cm.regData req.id).size.toUInt16 }
  else req

/-- A request that reaches beyond the data set is answered with all of it. -/
def clamp (req : DataGet) : DataGet :=
  if (cm.regData req.id).size < req.offset.toUInt32 + req.size.toUInt32 then
    { req with offset := 0, size := (cm.regData req.id).size.toUInt16 }
  else req

/-- The slot has the port, and its packet header the id, the size and the offset. -/
def MatchesRequest (pHandle : Int) (req : DataGet) (msg : BroadcastMsg) : Prop :=
  msg.pHandle = pHandle ∧ msg.pkt.id.toUInt16 = req.id ∧ msg.pkt.payloadSize = req.size ∧
    msg.pkt.offset = req.offset

instance (pHandle : Int) (req : DataGet) (msg : BroadcastMsg) :
    Decidable (MatchesRequest pHandle req msg) :=
  inferInstanceAs (Decidable (_ ∧ _ ∧ _ ∧ _))

def matchingSlot (pHandle : Int) (req : DataGet) : Option (Fin maxNumBcastMsgs) :=
  Fin.find? fun k => decide (MatchesRequest pHandle req (cm.broadcastMessages k))

def availableSlot : Option (Fin maxNumBcastMsgs) :=
  Fin.find? fun k => decide ((cm.broadcastMessages k).period ≤ msgPeriodDisabled)

/-- The slot a request is given: the matching one, otherwise the first available one,
otherwise the last. -/
def slotFor (pHandle : Int) (req : DataGet) : Fin maxNumBcastMsgs :=
  match cm.matchingSlot pHandle req with
  | some k => k
  | none => cm.availableSlot.getD (Fin.last 11)

/-- The packet that answers a request. -/
def packetFor (req : DataGet) : Packet :=
  { Comm.isCommEncodeHdr Comm.pktTypeData req.id req.size req.offset [] with
    dataPtr := (cm.regData req.id).txPtr.map (· + req.offset.toNat)
    dataSize := req.size }

/-- The packet is smaller than the free space, where that is known. -/
def fits (answers : Answers) (k : Fin maxNumBcastMsgs) (pHandle : Int) (pkt : Packet) : Bool :=
  !cm.txFree || decide (pkt.size.toUInt32 ≤ answers.txFree k pHandle)

/-- `preTxFnc` lets the data be sent. -/
def sendData (answers : Answers) (k : Fin maxNumBcastMsgs) (id : UInt16) (pHandle : Int) : Bool :=
  !(cm.regData id).preTxFnc || answers.preTx k id pHandle

/-- `_LIMIT2(req->period, MIN_REQUEST_PERIOD_MS, MAX_REQUEST_PERIOD_MS)`, if it is not 0. -/
def limitPeriod (period : UInt16) : Int :=
  if period = 0 then 0 else if 65000 < period then 65000 else period.toNat

/-- The rest of `comManagerGetDataRequestInstance`, once the size and the offset are known. -/
def answerRequest (answers : Answers) (pHandle : Int) (req : DataGet) :
    Instance × Int × List Transmission :=
  let k := cm.slotFor pHandle req
  let msg := { cm.broadcastMessages k with pHandle, pkt := cm.packetFor req }
  if req.id = didReferenceImu then (cm.setMsg k msg, -1, [])
  else
    let period := limitPeriod req.period
    let fits := cm.fits answers k pHandle msg.pkt
    let sent :=
      if fits && cm.sendData answers k req.id pHandle then [.data pHandle msg.pkt] else []
    if 0 < period then (cm.setMsg k (cm.enableBroadcastMsg msg period), 0, sent)
    else if fits then (cm.setMsg k (disableBroadcastMsg msg), 0, sent)
    else (cm.setMsg k (cm.enableBroadcastMsg msg period), 0, [])

/-- `comManagerGetDataRequestInstance`, with what it returns and sends. -/
def comManagerGetDataRequest (answers : Answers) (pHandle : Int) (req : DataGet) :
    Instance × Int × List Transmission :=
  if didCount ≤ req.id.toNat then (cm, -1, [])
  else if cm.rmc && answers.rmc then (cm, 0, [])
  else if (cm.complete req).size = 0 then (cm, 0, [])
  else cm.answerRequest answers pHandle (cm.clamp (cm.complete req))

/-! ### The step -/

/-- One slot of the step. -/
def stepMsg (answers : Answers) (k : Fin maxNumBcastMsgs) (msg : BroadcastMsg) :
    BroadcastMsg × List Transmission :=
  if msg.period = msgPeriodSendOnce then (disableBroadcastMsg msg, [.data msg.pHandle msg.pkt])
  else if 0 < msg.period then
    if msg.period ≤ msg.counter + 1 then
      ({ msg with counter := 0 },
        if didCount ≤ msg.pkt.id.toNat || cm.sendData answers k msg.pkt.id.toUInt16 msg.pHandle then
          [.data msg.pHandle msg.pkt]
        else [])
    else ({ msg with counter := msg.counter + 1 }, [])
  else (msg, [])

/-- The packet in a slot does not fit into the send buffer. The slot need not be in use. -/
def blocked (answers : Answers) (k : Fin maxNumBcastMsgs) (msg : BroadcastMsg) : Bool :=
  !cm.fits answers k msg.pHandle msg.pkt

/-- `stepComManagerSendMessagesInstance`. The loop ends at the first slot that is blocked. -/
def stepComManagerSendMessages (answers : Answers) : Instance × List Transmission :=
  let swept := sweep (cm.blocked answers) (cm.stepMsg answers) (List.finRange maxNumBcastMsgs)
    cm.broadcastMessages
  ({ cm with broadcastMessages := swept.1 }, swept.2)

/-! ### Stop commands -/

/-- The slots that satisfy the predicate are disabled. -/
def disableWhere (covers : BroadcastMsg → Bool) : Instance :=
  { cm with
    broadcastMessages := fun k =>
      if covers (cm.broadcastMessages k) then disableBroadcastMsg (cm.broadcastMessages k)
      else cm.broadcastMessages k }

/-- `comManagerDisableBroadcastsInstance`. -/
def comManagerDisableBroadcasts (pHandle : Int) : Instance :=
  cm.disableWhere fun msg => pHandle < 0 || msg.pHandle = pHandle

def disableDidBroadcast (pHandle : Int) (did : UInt8) : Instance :=
  cm.disableWhere fun msg => (pHandle < 0 || pHandle = msg.pHandle) && msg.pkt.id = did

end Instance

/-- The packet types that stop broadcasts. -/
inductive StopCommand where
  | broadcastsAllPorts
  | broadcastsCurrentPort
  | didBroadcast (did : UInt8)
deriving DecidableEq

/-- The cases of `processIsb` for a packet that stops broadcasts and arrives at a port. -/
def Instance.processStop (cm : Instance) (pHandle : Nat) : StopCommand → Instance × List Transmission
  | .broadcastsAllPorts =>
    (cm.comManagerDisableBroadcasts (-1), [.reply pHandle Comm.pktTypeAck])
  | .broadcastsCurrentPort =>
    (cm.comManagerDisableBroadcasts pHandle, [.reply pHandle Comm.pktTypeAck])
  | .didBroadcast did => (cm.disableDidBroadcast pHandle did, [])

/-- The case of `processIsb` for `PKT_TYPE_GET_DATA`. -/
def Instance.processGetData (cm : Instance) (answers : Answers) (pHandle : Int) (req : DataGet) :
    Instance × List Transmission :=
  let answered := cm.comManagerGetDataRequest answers pHandle req
  (answered.1,
    answered.2.2 ++ if answered.2.1 ≠ 0 then [.reply pHandle Comm.pktTypeNack] else [])

/-! ### Runs -/

/-- The packets that concern broadcasts, on the port they arrive at, and the step. -/
inductive Operation where
  | getData (answers : Answers) (pHandle : Int) (req : DataGet)
  | stepTx (answers : Answers)
  | stop (pHandle : Nat) (command : StopCommand)

def Instance.operate (cm : Instance) : Operation → Instance × List Transmission
  | .getData answers pHandle req => cm.processGetData answers pHandle req
  | .stepTx answers => cm.stepComManagerSendMessages answers
  | .stop pHandle command => cm.processStop pHandle command

/-- The data set on the port is in the scope of a command that arrives at `pHandle`. -/
def StopCommand.covers (pHandle : Nat) : StopCommand → Int → UInt16 → Bool
  | .broadcastsAllPorts, _, _ => true
  | .broadcastsCurrentPort, port, _ => port = pHandle
  | .didBroadcast did, port, id => port = pHandle && id = did.toUInt16

/-- The slot is in the scope of the command. -/
def StopCommand.coversMsg (pHandle : Nat) (command : StopCommand) (msg : BroadcastMsg) : Bool :=
  command.covers pHandle msg.pHandle msg.pkt.id.toUInt16

/-! ### What the operations do to the table -/

namespace Instance

variable {cm : Instance} {answers : Answers} {pHandle : Int} {req : DataGet}
  {k : Fin maxNumBcastMsgs} {msg : BroadcastMsg}

@[simp] theorem setMsg_same : (cm.setMsg k msg).broadcastMessages k = msg :=
  Function.update_self ..

theorem setMsg_other {j : Fin maxNumBcastMsgs} (other : j ≠ k) :
    (cm.setMsg k msg).broadcastMessages j = cm.broadcastMessages j :=
  Function.update_of_ne other ..

theorem slotFor_cases (cm : Instance) (pHandle : Int) (req : DataGet) :
    (MatchesRequest pHandle req (cm.broadcastMessages (cm.slotFor pHandle req)) ∧
      ∀ j < cm.slotFor pHandle req, ¬MatchesRequest pHandle req (cm.broadcastMessages j)) ∨
    (∀ j, ¬MatchesRequest pHandle req (cm.broadcastMessages j)) ∧
      cm.slotFor pHandle req = cm.availableSlot.getD (Fin.last 11) := by
  unfold slotFor
  cases search : cm.matchingSlot pHandle req with
  | some k =>
    obtain ⟨here, before⟩ := Fin.find?_eq_some_iff.mp search
    exact .inl ⟨of_decide_eq_true here, fun j earlier => of_decide_eq_false (before j earlier)⟩
  | none =>
    exact .inr ⟨fun j => of_decide_eq_false (Fin.find?_eq_none_iff.mp search j), rfl⟩

theorem answerRequest_table (cm : Instance) (answers : Answers) (pHandle : Int) (req : DataGet) :
    ∃ counter period, (cm.answerRequest answers pHandle req).1 =
      cm.setMsg (cm.slotFor pHandle req)
        { pkt := cm.packetFor req, counter, period, pHandle } := by
  unfold answerRequest
  dsimp only
  split
  · exact ⟨_, _, rfl⟩
  split
  · exact ⟨_, _, rfl⟩
  split
  · exact ⟨_, _, rfl⟩
  · exact ⟨_, _, rfl⟩

/-- The request that is answered, if there is one: its size and offset are those of the
packet. -/
def answered (cm : Instance) (answers : Answers) (req : DataGet) : Option DataGet :=
  if didCount ≤ req.id.toNat then none
  else if cm.rmc && answers.rmc then none
  else if (cm.complete req).size = 0 then none
  else some (cm.clamp (cm.complete req))

theorem getDataRequest_of_none (ignored : cm.answered answers req = none) :
    (cm.comManagerGetDataRequest answers pHandle req).1 = cm ∧
      (cm.comManagerGetDataRequest answers pHandle req).2.2 = [] := by
  unfold answered at ignored
  unfold comManagerGetDataRequest
  split
  · exact ⟨rfl, rfl⟩
  split
  · exact ⟨rfl, rfl⟩
  split
  · exact ⟨rfl, rfl⟩
  · simp_all

theorem getDataRequest_of_some {effective : DataGet}
    (taken : cm.answered answers req = some effective) :
    cm.comManagerGetDataRequest answers pHandle req = cm.answerRequest answers pHandle effective := by
  unfold answered at taken
  unfold comManagerGetDataRequest
  split at taken
  · cases taken
  split at taken
  · cases taken
  split at taken
  · cases taken
  case isFalse known free some =>
    rw [if_neg known, if_neg free, if_neg some]
    rw [Option.some.inj taken]

theorem getDataRequest_table {effective : DataGet}
    (taken : cm.answered answers req = some effective) :
    ∃ counter period, (cm.comManagerGetDataRequest answers pHandle req).1 =
      cm.setMsg (cm.slotFor pHandle effective)
        { pkt := cm.packetFor effective, counter, period, pHandle } := by
  rw [getDataRequest_of_some taken]
  exact cm.answerRequest_table answers pHandle effective

theorem getDataRequest_rule {P : Instance → Prop} (refused : P cm)
    (filled : ∀ effective counter period, cm.answered answers req = some effective →
      P (cm.setMsg (cm.slotFor pHandle effective)
        { pkt := cm.packetFor effective, counter, period, pHandle })) :
    P (cm.comManagerGetDataRequest answers pHandle req).1 := by
  cases taken : cm.answered answers req with
  | none => rwa [(getDataRequest_of_none taken).1]
  | some effective =>
    obtain ⟨counter, period, table⟩ := @getDataRequest_table cm answers pHandle req effective taken
    rw [table]
    exact filled effective counter period taken

theorem answered_id {effective : DataGet} (taken : cm.answered answers req = some effective) :
    effective.id = req.id ∧ effective.period = req.period ∧ req.id.toNat < didCount := by
  unfold answered at taken
  split at taken
  · cases taken
  case isFalse known =>
    split at taken
    · cases taken
    split at taken
    · cases taken
    obtain rfl := Option.some.inj taken
    unfold clamp complete
    refine ⟨?_, ?_, Nat.lt_of_not_le known⟩
    · split <;> split <;> rfl
    · split <;> split <;> rfl

/-- The header has room for every id that is registered. -/
theorem packetFor_id (known : req.id.toNat < didCount) :
    (cm.packetFor req).id.toUInt16 = req.id := by
  apply UInt16.toNat_inj.mp
  show req.id.toUInt8.toUInt16.toNat = req.id.toNat
  have small : req.id.toNat < 132 := known
  simp
  omega

/-- A stop command disables the slots of its scope, and leaves the others. -/
theorem processStop_table (cm : Instance) (pHandle : Nat) (command : StopCommand) :
    (cm.processStop pHandle command).1 = cm.disableWhere (command.coversMsg pHandle) := by
  have positive : ¬(pHandle : Int) < 0 := Int.not_lt.mpr (Int.natCast_nonneg pHandle)
  cases command with
  | broadcastsAllPorts => rfl
  | broadcastsCurrentPort =>
    show cm.comManagerDisableBroadcasts pHandle = _
    refine congrArg cm.disableWhere (funext fun msg => ?_)
    simp [positive, StopCommand.coversMsg, StopCommand.covers]
  | didBroadcast did =>
    show cm.disableDidBroadcast pHandle did = _
    refine congrArg cm.disableWhere (funext fun msg => ?_)
    have same : msg.pkt.id.toUInt16 = did.toUInt16 ↔ msg.pkt.id = did :=
      ⟨fun wide => by simpa using congrArg UInt16.toUInt8 wide, congrArg UInt8.toUInt16⟩
    simp [positive, StopCommand.coversMsg, StopCommand.covers, same, eq_comm]

theorem disableWhere_table (cm : Instance) (covers : BroadcastMsg → Bool)
    (k : Fin maxNumBcastMsgs) :
    (cm.disableWhere covers).broadcastMessages k =
      if covers (cm.broadcastMessages k) then disableBroadcastMsg (cm.broadcastMessages k)
      else cm.broadcastMessages k := rfl

/-- The step gets to the slot: no slot up to it is blocked. -/
def Reached (cm : Instance) (answers : Answers) (k : Fin maxNumBcastMsgs) : Prop :=
  ∀ j ≤ k, cm.blocked answers j (cm.broadcastMessages j) = false

/-- The slots the step gets to, in order. -/
def reached (cm : Instance) (answers : Answers) : List (Fin maxNumBcastMsgs) :=
  visited (cm.blocked answers) (List.finRange maxNumBcastMsgs) cm.broadcastMessages

theorem mem_reached : k ∈ cm.reached answers ↔ cm.Reached answers k := by
  unfold reached
  rw [mem_visited_iff (List.sortedLT_finRange _).pairwise]
  simp [Reached]

/-- A step changes the counter of a slot, and disables it when its packet was to be sent once. -/
theorem stepMsg_frame (cm : Instance) (answers : Answers) (k : Fin maxNumBcastMsgs)
    (msg : BroadcastMsg) :
    (cm.stepMsg answers k msg).1.pkt = msg.pkt ∧
      (cm.stepMsg answers k msg).1.pHandle = msg.pHandle ∧
      ((cm.stepMsg answers k msg).1.period = msg.period ∨
        (cm.stepMsg answers k msg).1.period = msgPeriodDisabled) := by
  unfold stepMsg
  split
  · exact ⟨rfl, rfl, .inr rfl⟩
  split
  · split <;> exact ⟨rfl, rfl, .inl rfl⟩
  · exact ⟨rfl, rfl, .inl rfl⟩

/-- Only a slot in use is sent. -/
theorem mem_stepMsg_sent {transmission : Transmission}
    (sent : transmission ∈ (cm.stepMsg answers k msg).2) :
    transmission = .data msg.pHandle msg.pkt ∧ msg.period ≠ msgPeriodDisabled := by
  unfold stepMsg at sent
  split at sent
  case isTrue once =>
    refine ⟨List.mem_singleton.mp sent, ?_⟩
    rw [once]
    decide
  split at sent
  case isTrue positive =>
    have used : msg.period ≠ msgPeriodDisabled := ne_of_gt positive
    split at sent
    · dsimp only at sent
      split at sent
      · exact ⟨List.mem_singleton.mp sent, used⟩
      · cases sent
    · cases sent
  · cases sent

/-- A slot that the step gets to is stepped; the others are left. -/
theorem stepTx_table (cm : Instance) (answers : Answers) (k : Fin maxNumBcastMsgs) :
    (cm.stepComManagerSendMessages answers).1.broadcastMessages k =
      if k ∈ cm.reached answers then (cm.stepMsg answers k (cm.broadcastMessages k)).1
      else cm.broadcastMessages k :=
  sweep_table (List.nodup_finRange _) k

theorem stepTx_sent (cm : Instance) (answers : Answers) :
    (cm.stepComManagerSendMessages answers).2 =
      (cm.reached answers).flatMap fun k => (cm.stepMsg answers k (cm.broadcastMessages k)).2 :=
  sweep_reports (List.nodup_finRange _)

/-- No slot is written: each keeps its port and its packet, and is disabled at most. -/
structure Fades (cm after : Instance) : Prop where
  regData : after.regData = cm.regData
  pkt : ∀ k, (after.broadcastMessages k).pkt = (cm.broadcastMessages k).pkt
  pHandle : ∀ k, (after.broadcastMessages k).pHandle = (cm.broadcastMessages k).pHandle
  period : ∀ k, (after.broadcastMessages k).period = (cm.broadcastMessages k).period ∨
    (after.broadcastMessages k).period = msgPeriodDisabled

theorem stepTx_fades (cm : Instance) (answers : Answers) :
    Fades cm (cm.stepComManagerSendMessages answers).1 := by
  have kept (k : Fin maxNumBcastMsgs) := cm.stepMsg_frame answers k (cm.broadcastMessages k)
  refine ⟨rfl, fun k => ?_, fun k => ?_, fun k => ?_⟩
  · rw [stepTx_table]
    split
    · exact (kept k).1
    · rfl
  · rw [stepTx_table]
    split
    · exact (kept k).2.1
    · rfl
  · rw [stepTx_table]
    split
    · exact (kept k).2.2
    · exact .inl rfl

theorem processStop_fades (cm : Instance) (pHandle : Nat) (command : StopCommand) :
    Fades cm (cm.processStop pHandle command).1 := by
  rw [processStop_table]
  refine ⟨rfl, fun k => ?_, fun k => ?_, fun k => ?_⟩
  · rw [disableWhere_table]
    split <;> rfl
  · rw [disableWhere_table]
    split <;> rfl
  · rw [disableWhere_table]
    split
    · exact .inr rfl
    · exact .inl rfl

end Instance

/-! ### A table to try it on -/

def eightBytes : UInt16 → RegisteredData := fun _ => { txPtr := some 0, size := 8, preTxFnc := false }

/-- Each port has `free` bytes of space. -/
def spaceFor (free : UInt32) : Answers :=
  { txFree := fun _ _ => free, preTx := fun _ _ _ => true, rmc := false }

end InertialSense.ComManager
