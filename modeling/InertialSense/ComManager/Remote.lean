import InertialSense.Comm.Link
import InertialSense.Comm.PortWrite
import InertialSense.Comm.RoundTrip
import InertialSense.ComManager.Receiving
import InertialSense.ComManager.Requests

/-! A com manager at the end of a link: all cases of `processIsb` in `com_manager.c`, and the calls at
the other end. Whatever is read at a time, the calls take effect in order, each once. -/

namespace InertialSense.ComManager

open Foundation
open InertialSense.DataLog (DataHdr)

/-- What a com manager does at a port besides writing to memory: a `pstRxFnc` or the `pstAckFnc` is
called, or a packet is sent with its data of that moment. -/
inductive Effect where
  | received (call : RxCall)
  | acknowledged (pktType : UInt8)
  | sent (transmission : Transmission) (data : List UInt8)
deriving DecidableEq

/-- A com manager, the memory of its registered structures, and what it has done so far. -/
structure Node where
  cm : Instance
  mem : Nat → UInt8
  log : List Effect
  packets : Nat

/-- What stays the same: how data is received, the port, and what the callbacks answer to the packets
that arrive, one after the other. -/
structure Site where
  rx : Receiver
  pHandle : Nat
  answers : Nat → Answers

namespace Node

/-- The data of a packet, read through its pointer; none for a null pointer. -/
def dataOf (node : Node) : Transmission → List UInt8
  | .data _ pkt => pkt.dataPtr.elim [] fun ptr => window node.mem ptr pkt.dataSize.toNat
  | .reply _ _ => []

/-- Packets are sent. -/
def send (node : Node) (sent : List Transmission) : Node :=
  { node with
    log := node.log ++
      sent.map fun transmission => Effect.sent transmission (node.dataOf transmission) }

/-- The table of broadcasts after a request or a stop command, which may send packets. -/
def answer (node : Node) (answered : Instance × List Transmission) : Node :=
  { node with cm := answered.1 }.send answered.2

/-- A packet arrives. -/
def count (node : Node) : Node := { node with packets := node.packets + 1 }

end Node

/-- What the application does between two reads: `comManagerStepTxInstance`, and writing to memory. -/
inductive Own where
  | stepTx (answers : Answers)
  | update (place : Nat) (bytes : List UInt8)

def Node.own (node : Node) : Own → Node
  | .stepTx answers => node.answer (node.cm.stepComManagerSendMessages answers)
  | .update place bytes => { node with mem := store node.mem place bytes }

namespace Site

/-- `processIsb`. A request that is read through a null pointer would trap. -/
def processIsb (site : Site) (node : Node) (comm : Comm.Instance) : Node :=
  let answers := site.answers node.packets
  let ptype := comm.rxPkt.flags &&& Comm.pktTypeMask
  if ptype = Comm.pktTypeSetData ∨ ptype = Comm.pktTypeData then
    let done := site.rx.processIsb comm node.mem
    { node with
      mem := done.mem
      log := node.log ++ done.calls.map Effect.received ++
        done.ack.toList.map fun (ack : UInt8 × PAck) => Effect.sent (.reply site.pHandle ack.1) [] }.count
  else if ptype = Comm.pktTypeGetData then
    match requestOf comm with
    | some req => (node.answer (node.cm.processGetData answers site.pHandle req)).count
    | none => node.count
  else if ptype = Comm.pktTypeStopBroadcastsAllPorts then
    (node.answer (node.cm.processStop site.pHandle .broadcastsAllPorts)).count
  else if ptype = Comm.pktTypeStopBroadcastsCurrentPort then
    (node.answer (node.cm.processStop site.pHandle .broadcastsCurrentPort)).count
  else if ptype = Comm.pktTypeStopDidBroadcast then
    (node.answer (node.cm.processStop site.pHandle (.didBroadcast comm.rxPkt.hdrId))).count
  else if ptype = Comm.pktTypeNack ∨ ptype = Comm.pktTypeAck then
    { node with log := node.log ++ [Effect.acknowledged ptype] }.count
  else node.count

/-- `callbacks.isb`, which `parse_messages` calls for all ISB packets. -/
def handle (site : Site) : Comm.Handle Node := fun node answer =>
  if answer.2.isIsb then site.processIsb node answer.1 else node

end Site

/-! ### The calls at the other end -/

/-- `comManagerSendData`, `comManagerSendDataNoAck`, `comManagerGetData` and `comManagerDisableData`. -/
inductive Call where
  | sendData (did offset : UInt16) (data : List UInt8)
  | sendDataNoAck (did offset : UInt16) (data : List UInt8)
  | getData (req : DataGet)
  | disableData (did : UInt16)

namespace Call

/-- The arguments `pFlags`, `did`, `offset` and the data of `comManagerSendInstance`. -/
def pFlags : Call → UInt8
  | sendData .. => Comm.pktTypeSetData
  | sendDataNoAck .. => Comm.pktTypeData
  | getData _ => Comm.pktTypeGetData
  | disableData _ => Comm.pktTypeStopDidBroadcast

def did : Call → UInt16
  | sendData did _ _ | sendDataNoAck did _ _ | disableData did => did
  | getData _ => 0

def offset : Call → UInt16
  | sendData _ offset _ | sendDataNoAck _ offset _ => offset
  | _ => 0

def data : Call → List UInt8
  | sendData _ _ data | sendDataNoAck _ _ data => data
  | getData req =>
    Comm.wordBytes req.id ++ Comm.wordBytes req.size ++ Comm.wordBytes req.offset ++
      Comm.wordBytes req.period
  | disableData _ => []

/-- The id is one of those that a header has room for, and no more is sent or asked for than a data set
has room for. -/
def Valid (call : Call) : Prop :=
  call.did.toNat < 256 ∧ call.data.length ≤ Comm.maxDatasetSize ∧
    match call with
    | getData req => req.size.toNat ≤ Comm.maxDatasetSize
    | _ => True

def written (call : Call) : Comm.Written :=
  { processor := .isb
    frame := Comm.isbFrame (Comm.sentFlags call.pFlags call.offset) call.did.toUInt8
      (Comm.sentPayload call.offset call.data)
    report := Comm.Request.sentReport call.pFlags call.did call.offset call.data }

end Call

/-- A `portWrite` that takes all it is handed, behind what is in the pipe. -/
def pipeWrite : Unit × List UInt8 → List UInt8 → (Unit × List UInt8) × Int :=
  Comm.noting fun _ bytes => ((), bytes.length)

/-- `comManagerSendInstance` into a pipe, with whatever `txPkt` is before. -/
def comManagerSend (pipe : List UInt8) (comm : Comm.Instance) (txPkt : Comm.PortPacket) (call : Call) :
    List UInt8 × Comm.Instance × Int :=
  let answer := Comm.isCommWrite pipeWrite ((), pipe) comm txPkt call.pFlags call.did
    (UInt16.ofNat call.data.length) call.offset call.data
  (answer.1.2, answer.2.1, if answer.2.2 < 0 then -1 else 0)

/-! ### What the calls are for -/

namespace Site

/-- Data that reaches a com manager: it is ignored, or trimmed, written, handed on and acknowledged. -/
def takeData (site : Site) (node : Node) (did offset : UInt16) (data : List UInt8) (acked : Bool) :
    Node :=
  let id := did.toUInt8
  if didCount ≤ did.toNat ∨ data = [] then node
  else
    match constrainedSize (site.rx.regData id).size
      { id, size := UInt16.ofNat data.length, offset } with
    | none => node
    | some size =>
      let hdr : DataHdr := { id, size, offset }
      { node with
        mem :=
          (site.rx.regData id).rxPtr.elim node.mem fun rxPtr =>
            (copyDataPToStructP node.mem rxPtr hdr (data.take size.toNat) (site.rx.regData id).size).getD
              node.mem
        log := node.log ++
          ((site.rx.callees id).map fun callee => Effect.received ⟨callee, hdr, data.take size.toNat⟩) ++
          if acked then [Effect.sent (.reply site.pHandle Comm.pktTypeAck) []] else [] }

def deliver (site : Site) (node : Node) (call : Call) : Node :=
  Node.count <| match call with
    | .sendData did offset data => site.takeData node did offset data true
    | .sendDataNoAck did offset data => site.takeData node did offset data false
    | .getData req =>
      node.answer (node.cm.processGetData (site.answers node.packets) site.pHandle req)
    | .disableData did =>
      node.answer (node.cm.processStop site.pHandle (.didBroadcast did.toUInt8))

/-- A call takes effect, or the application does something. -/
def advance (site : Site) (node : Node) : Call ⊕ Own → Node
  | .inl call => site.deliver node call
  | .inr own => node.own own

end Site

section Written

variable {call : Call}

private theorem Call.pFlags_all {P : UInt8 → Prop} (call : Call) (setData : P Comm.pktTypeSetData)
    (data : P Comm.pktTypeData) (getData : P Comm.pktTypeGetData)
    (stop : P Comm.pktTypeStopDidBroadcast) : P call.pFlags := by
  cases call with
  | sendData => exact setData
  | sendDataNoAck => exact data
  | getData => exact getData
  | disableData => exact stop

private theorem Call.pFlags_type (call : Call) : call.pFlags &&& Comm.pktTypeMask = call.pFlags :=
  call.pFlags_all (P := fun flags => flags &&& Comm.pktTypeMask = flags) rfl rfl rfl rfl

private theorem Call.Valid.small (valid : call.Valid) : call.data.length ≤ 1024 := valid.2.1

theorem Call.frame_length (call : Call) : call.written.frame.length =
    8 + if call.offset ≠ 0 then 2 + call.data.length else call.data.length := by
  show (Comm.isbFrame _ _ (Comm.sentPayload ..)).length = _
  rw [Comm.isbFrame_length]
  unfold Comm.sentPayload
  split
  · rw [List.length_append]
    rfl
  · rfl

theorem Call.frame_small (valid : call.Valid) : call.written.frame.length ≤ 1034 := by
  have small := valid.small
  rw [call.frame_length]
  split <;> omega

private theorem Call.admissible (valid : call.Valid) :
    Comm.Request.Admissible (.write call.pFlags call.did call.offset call.data) := by
  obtain ⟨did, small, size⟩ := valid
  refine ⟨did, call.pFlags_all (P := fun flags => flags &&& Comm.isbFlagsPayloadWOffset = 0)
    rfl rfl rfl rfl, ?_⟩
  rw [call.pFlags_type]
  cases call with
  | sendData => exact .inr (.inl ⟨.tail _ (.head _), small⟩)
  | sendDataNoAck => exact .inr (.inl ⟨.head _, small⟩)
  | disableData => exact .inl (.tail _ (.tail _ (.tail _ (.head _))))
  | getData req =>
    refine .inr (.inr ⟨rfl, rfl, rfl, ?_⟩)
    show Comm.word (Comm.lowByte req.size.toNat) (Comm.highByte req.size.toNat) ≤ _
    rw [Comm.word_lowByte_highByte req.size.toNat_lt]
    exact size

theorem Call.accepted (valid : call.Valid) :
    call.written.Accepted Comm.pktBufSize 0x0F where
  conforms := by
    obtain ⟨small, plain, valid'⟩ := Call.admissible valid
    have fits := Call.frame_small valid
    change (Comm.isbFrame ..).length ≤ 1034 at fits
    rw [Comm.isbFrame_length] at fits
    exact Comm.sent_conforms _ plain small valid' (by unfold Comm.pktBufSize; omega)
  fits := Nat.le_trans (Call.frame_small valid) (by decide)
  enabled := by
    show (0x0F : UInt32) &&& 0x01 ≠ 0
    decide

theorem encoded_list (flags : UInt8) (did offset : UInt16) {data : List UInt8}
    (small : data.length + 10 < 65536) :
    (Comm.isCommEncodeHdr flags did (UInt16.ofNat data.length) offset data).bytes =
      Comm.isbFrame (Comm.sentFlags flags offset) did.toUInt8 (Comm.sentPayload offset data) := by
  have size : (UInt16.ofNat data.length).toNat = data.length :=
    UInt16.toNat_ofNat_of_lt' (by show _ < 65536; omega)
  have same : data = window (fun k => data.getD k 0) 0 (UInt16.ofNat data.length).toNat := by
    rw [size, window_getD _ _ (Nat.le_of_eq (Nat.zero_add _)), List.drop_zero, List.take_length]
  have encoded := @Comm.encoded_bytes flags did (UInt16.ofNat data.length) offset
    (fun k => data.getD k 0) (by omega) (Comm.isCommInit (fun _ => 0) 0)
  unfold Comm.frameOf at encoded
  rwa [← same] at encoded

theorem comManagerSend_eq (valid : call.Valid) (pipe : List UInt8) (comm : Comm.Instance)
    (txPkt : Comm.PortPacket) : (comManagerSend pipe comm txPkt call).1 = pipe ++ call.written.frame := by
  have small := valid.small
  show (Comm.isCommWriteIsbPrecompToPort (Comm.noting _) ((), pipe) comm _).1.2 = _
  rw [Comm.precomp_written]
  exact congrArg (pipe ++ ·) (encoded_list call.pFlags call.did call.offset (by omega))

end Written

/-! ### A packet that arrives -/

/-- What the handler finds is what the call has sent. -/
private structure Call.Arrived (call : Call) (c : Comm.Instance) : Prop where
  ptype : c.rxPkt.flags &&& Comm.pktTypeMask = call.pFlags
  id : c.rxPkt.hdrId = call.did.toUInt8
  offset : c.rxPkt.offset = call.offset.toNat
  size : c.rxPkt.dataSize = call.data.length
  payload : c.rxPkt.payloadSize = call.data.length
  data : c.packetData = call.data

/-- The header and the pointer of an ISB packet are those of the frame in the buffer. -/
private theorem found_rxPkt {w : Comm.Written} {c : Comm.Instance} (found : w.Found c)
    (isb : w.processor = .isb) (packet : w.report.ptype.isIsb = true) :
    c.rxPkt.hdrId.toNat = c.rxPkt.id ∧ c.rxPkt.payloadSize = c.rxPkt.dataSize ∧
      c.packetData.length = c.rxPkt.dataSize := by
  obtain ⟨-, before, after, processed, rfl⟩ := found
  have outcome := Comm.Instance.process_outcome w.processor before
  rw [processed] at outcome
  have silent (d : Comm.Instance) (error : Comm.ParseErrorType)
      (same : (after, w.report.ptype) = d.parseErrorResetState error) : False := by
    have ptype := congrArg Prod.snd same
    rw [Comm.Instance.parseErrorResetState, Comm.Instance.reportParseError_ptype] at ptype
    dsimp only at ptype
    rw [ptype] at packet
    split at packet <;> cases packet
  generalize answered : (after, w.report.ptype) = answer at outcome
  cases outcome with
  | waits =>
    rw [show w.report.ptype = .none from congrArg Prod.snd answered] at packet
    cases packet
  | rejects => exact (silent _ _ answered).elim
  | refuses => exact (silent _ _ answered).elim
  | accepts pkt ackNeeded ptype _ packs =>
    obtain ⟨other, -⟩ | ⟨-, rfl, -⟩ := packs
    · exact absurd isb other
    obtain rfl : after = before.accepted before.isbPkt ackNeeded := congrArg Prod.fst answered
    refine ⟨rfl, rfl, ?_⟩
    unfold Comm.Instance.packetData
    by_cases empty : before.isbDataSize = 0
    · have pointed : (before.accepted before.isbPkt ackNeeded).advance.rxPkt.dataPtr = none :=
        if_pos empty
      rw [pointed]
      exact empty.symm
    · have pointed : (before.accepted before.isbPkt ackNeeded).advance.rxPkt.dataPtr = some _ :=
        if_neg empty
      rw [pointed]
      exact window_length ..

private theorem Call.isIsb (call : Call) : call.written.report.ptype.isIsb = true :=
  call.pFlags_all (P := fun flags => (Comm.pktProtocol (flags &&& Comm.pktTypeMask)).isIsb = true)
    rfl rfl rfl rfl

private theorem Call.arrived {call : Call} {c : Comm.Instance} (valid : call.Valid)
    (found : call.written.Found c) : call.Arrived c := by
  obtain ⟨id, payload, length⟩ := found_rxPkt found rfl call.isIsb
  have still := congrArg Comm.Report.packet found.still
  have error : call.written.report.ptype ≠ .parseError := by
    intro same
    have isb := call.isIsb
    rw [same] at isb
    cases isb
  unfold Comm.Instance.report at still
  dsimp only at still
  rw [if_neg error, if_pos call.isIsb] at still
  obtain ⟨ptype, number, offset, -, data⟩ := Comm.View.mk.inj (Option.some.inj still)
  refine ⟨ptype.trans call.pFlags_type, ?_, offset, ?_, ?_, data⟩
  · apply UInt8.toNat_inj.mp
    rw [id, number, UInt16.toNat_toUInt8]
    exact (Nat.mod_eq_of_lt valid.1).symm
  · rw [← length, data]
  · rw [payload, ← length, data]

section Delivering

variable {site : Site} {node : Node} {c : Comm.Instance}

private theorem constrainedSize_le {structSize : UInt32} {hdr : DataHdr} {size : UInt16}
    (constrained : constrainedSize structSize hdr = some size) : size.toNat ≤ hdr.size.toNat := by
  unfold constrainedSize at constrained
  dsimp only at constrained
  split at constrained
  · split at constrained
    · cases constrained
    · obtain rfl := Option.some.inj constrained
      change (if hdr.size ≤ _ then hdr.size else _ : UInt16).toNat ≤ _
      split
      case isTrue => exact Nat.le_refl _
      case isFalse more => exact Nat.le_of_lt (Nat.not_le.mp more)
  · obtain rfl := Option.some.inj constrained
    exact Nat.le_refl _

/-- Data within its registered structure is written there. -/
theorem Site.takeData_registered {did offset : UInt16} {data : List UInt8} {ptr : Nat}
    (rxPtr : (site.rx.regData did.toUInt8).rxPtr = some ptr) (known : did.toNat < didCount)
    (short : data.length ≤ Comm.maxDatasetSize)
    (inside : offset.toNat + data.length ≤ (site.rx.regData did.toUInt8).size.toNat) (acked : Bool) :
    (site.takeData node did offset data acked).mem = store node.mem (ptr + offset.toNat) data := by
  have small : data.length ≤ 1024 := short
  have size : (UInt16.ofNat data.length).toNat = data.length :=
    UInt16.toNat_ofNat_of_lt' (by show _ < 65536; omega)
  unfold takeData
  dsimp only
  by_cases empty : data = []
  · rw [if_pos (.inr empty), empty, store_nil]
  have untrimmed : constrainedSize (site.rx.regData did.toUInt8).size
      ⟨did.toUInt8, UInt16.ofNat data.length, offset⟩ = some (UInt16.ofNat data.length) := by
    unfold constrainedSize
    rw [if_neg]
    rintro ⟨-, more⟩
    dsimp only at more
    omega
  rw [if_neg (not_or.mpr ⟨Nat.not_le.mpr known, empty⟩), untrimmed]
  dsimp only
  rw [rxPtr, size, List.take_length]
  unfold copyDataPToStructP
  dsimp only [Option.elim]
  rw [size, if_pos (by omega), Option.getD_some]

/-- Data does not reach what is outside of its registered structure. -/
theorem Site.takeData_apart {did offset : UInt16} {data : List UInt8} {place : Nat}
    (apart : ∀ ptr, (site.rx.regData did.toUInt8).rxPtr = some ptr →
      place < ptr ∨ ptr + (site.rx.regData did.toUInt8).size.toNat ≤ place) (acked : Bool) :
    (site.takeData node did offset data acked).mem place = node.mem place := by
  unfold takeData
  dsimp only
  split
  · rfl
  split
  · rfl
  case _ size constrained =>
    dsimp only
    cases pointed : (site.rx.regData did.toUInt8).rxPtr with
    | none => rfl
    | some ptr =>
      have outside := apart ptr pointed
      dsimp only [Option.elim]
      unfold copyDataPToStructP
      split
      case isFalse => rfl
      case isTrue fits =>
        have length : (data.take size.toNat).length ≤ size.toNat := List.length_take_le ..
        dsimp only at fits
        refine store_outside _ ?_
        dsimp only
        omega

/-- Data that arrives is taken. -/
private theorem Call.Arrived.takes {call : Call} {did offset : UInt16} {data : List UInt8}
    (arrived : call.Arrived c) (id : call.did = did) (place : call.offset = offset)
    (bytes : call.data = data) (valid : call.Valid) (acked : Bool)
    (type : c.rxPkt.flags &&& Comm.pktTypeMask = Comm.pktTypeSetData ↔ acked = true) :
    { node with
      mem := (site.rx.processIsb c node.mem).mem
      log := node.log ++ (site.rx.processIsb c node.mem).calls.map Effect.received ++
        (site.rx.processIsb c node.mem).ack.toList.map fun (ack : UInt8 × PAck) =>
          Effect.sent (.reply site.pHandle ack.1) [] } = site.takeData node did offset data acked := by
  subst id place bytes
  have small := valid.small
  have hdr : isCommToIsbPData c =
      { hdr :=
          { id := call.did.toUInt8, size := UInt16.ofNat call.data.length, offset := call.offset }
        ptr := c.rxPkt.dataPtr } := by
    unfold isCommToIsbPData
    rw [arrived.id, arrived.size, arrived.offset, UInt16.ofNat_toNat]
  have length : (UInt16.ofNat call.data.length).toNat = call.data.length :=
    UInt16.toNat_ofNat_of_lt' (by show _ < 65536; omega)
  have known : call.did.toUInt8.toNat = call.did.toNat := by
    rw [UInt16.toNat_toUInt8]
    exact Nat.mod_eq_of_lt valid.1
  have ignored : didCount ≤ call.did.toUInt8.toNat ∨ c.rxPkt.payloadSize = 0 ↔
      didCount ≤ call.did.toNat ∨ call.data = [] := by
    rw [known, arrived.payload, List.length_eq_zero_iff]
  unfold Receiver.processIsb Site.takeData
  dsimp only
  rw [hdr]
  dsimp only
  by_cases refused : didCount ≤ call.did.toNat ∨ call.data = []
  · rw [if_pos (ignored.mpr refused), if_pos refused]
    simp
  rw [if_neg (mt ignored.mp refused), if_neg refused]
  cases constrained : constrainedSize (site.rx.regData call.did.toUInt8).size
      { id := call.did.toUInt8, size := UInt16.ofNat call.data.length, offset := call.offset } with
  | none => simp
  | some size =>
    have fewer := constrainedSize_le constrained
    dsimp only at fewer
    have taken := @PData.bytes_take c
      { id := call.did.toUInt8, size, offset := call.offset }
      (by rw [arrived.size, ← length]; exact fewer)
    rw [arrived.data] at taken
    unfold Receiver.deliver
    dsimp only
    rw [taken, List.map_map]
    by_cases set : acked = true
    · rw [if_pos (type.mpr set), if_pos set]
      rfl
    · rw [if_neg (mt type.mp set), if_neg set]
      rfl

/-- The request is read where it was written. -/
private theorem Call.Arrived.request {req : DataGet} (arrived : (Call.getData req).Arrived c) :
    requestOf c = some req := by
  have data := arrived.data
  have size := arrived.size
  unfold requestOf
  unfold Comm.Instance.packetData at data
  cases pointed : c.rxPkt.dataPtr with
  | none =>
    rw [pointed] at data
    cases data
  | some ptr =>
    rw [pointed, size] at data
    have cell (k : Nat) (inside : k < 8) :
        c.mem (ptr + k) = (Call.getData req).data.getD k 0 := by
      have here := @getElem?_window _ c.mem ptr 8 k inside
      rw [show window c.mem ptr 8 = (Call.getData req).data from data] at here
      rw [List.getD_eq_getElem?_getD, here]
      rfl
    have read (value : UInt16) {k : Nat} (inside : k + 1 < 8)
        (low : (Call.getData req).data.getD k 0 = Comm.lowByte value.toNat)
        (high : (Call.getData req).data.getD (k + 1) 0 = Comm.highByte value.toNat) :
        UInt16.ofNat (Comm.word (c.mem (ptr + k)) (c.mem (ptr + (k + 1)))) = value := by
      rw [cell k (by omega), cell (k + 1) inside, low, high,
        Comm.word_lowByte_highByte value.toNat_lt, UInt16.ofNat_toNat]
    have id := read req.id (k := 0) (by omega) rfl rfl
    have size := read req.size (k := 2) (by omega) rfl rfl
    have offset := read req.offset (k := 4) (by omega) rfl rfl
    have period := read req.period (k := 6) (by omega) rfl rfl
    show some (dataGetAt c.mem ptr) =
      some (DataGet.mk req.id req.size req.offset req.period)
    exact congrArg some ((DataGet.mk.injEq ..).mpr ⟨id, size, offset, period⟩)

theorem handle_deliver {call : Call} (valid : call.Valid) (found : call.written.Found c) :
    site.handle node (c, call.written.report.ptype) = site.deliver node call := by
  have arrived := Call.arrived valid found
  unfold Site.handle
  rw [if_pos call.isIsb]
  unfold Site.processIsb
  dsimp only
  cases call with
  | sendData did offset data =>
    have type : c.rxPkt.flags &&& Comm.pktTypeMask = Comm.pktTypeSetData := arrived.ptype
    rw [if_pos (.inl type)]
    exact congrArg Node.count (arrived.takes rfl rfl rfl valid true (iff_of_true type rfl))
  | sendDataNoAck did offset data =>
    have type : c.rxPkt.flags &&& Comm.pktTypeMask = Comm.pktTypeData := arrived.ptype
    have plain : ¬c.rxPkt.flags &&& Comm.pktTypeMask = Comm.pktTypeSetData := by
      rw [type]
      decide
    rw [if_pos (.inr type)]
    exact congrArg Node.count (arrived.takes rfl rfl rfl valid false (iff_of_false plain nofun))
  | getData req =>
    have type : c.rxPkt.flags &&& Comm.pktTypeMask = Comm.pktTypeGetData := arrived.ptype
    rw [type, if_neg (by decide), if_pos rfl, arrived.request]
    rfl
  | disableData did =>
    have type : c.rxPkt.flags &&& Comm.pktTypeMask = Comm.pktTypeStopDidBroadcast := arrived.ptype
    have id : c.rxPkt.hdrId = did.toUInt8 := arrived.id
    rw [type, if_neg (by decide), if_neg (by decide), if_neg (by decide), if_neg (by decide),
      if_pos rfl, id]
    rfl

/-- What is no data changes no memory, and is not handed on. -/
theorem processIsb_quiet {comm : Comm.Instance}
    (setData : comm.rxPkt.flags &&& Comm.pktTypeMask ≠ Comm.pktTypeSetData)
    (data : comm.rxPkt.flags &&& Comm.pktTypeMask ≠ Comm.pktTypeData) :
    (site.processIsb node comm).mem = node.mem ∧
      ∃ effects, (site.processIsb node comm).log = node.log ++ effects ∧
        ∀ call, .received call ∉ effects := by
  have sends (answered : Instance × List Transmission) :
      (node.answer answered).count.mem = node.mem ∧ ∃ effects,
        (node.answer answered).count.log = node.log ++ effects ∧ ∀ call, .received call ∉ effects := by
    refine ⟨rfl, _, rfl, fun call member => ?_⟩
    obtain ⟨_, -, same⟩ := List.mem_map.mp member
    cases same
  have nothing : node.count.mem = node.mem ∧
      ∃ effects, node.count.log = node.log ++ effects ∧ ∀ call, .received call ∉ effects :=
    ⟨rfl, [], (List.append_nil _).symm, fun _ => List.not_mem_nil⟩
  unfold Site.processIsb
  dsimp only
  rw [if_neg (not_or.mpr ⟨setData, data⟩)]
  split
  · split
    · exact sends _
    · exact nothing
  split
  · exact sends _
  split
  · exact sends _
  split
  · exact sends _
  split
  · refine ⟨rfl, [.acknowledged _], rfl, fun call member => ?_⟩
    cases List.mem_singleton.mp member
  · exact nothing

theorem handle_quiet {w : Comm.Written} (found : w.Found c) (sound : w.report.ptype ≠ .parseError)
    (other : w.report.ptype.isIsb = true → ∀ view ∈ w.report.packet,
      view.pktType ≠ Comm.pktTypeSetData ∧ view.pktType ≠ Comm.pktTypeData) :
    (site.handle node (c, w.report.ptype)).mem = node.mem ∧
      ∃ effects, (site.handle node (c, w.report.ptype)).log = node.log ++ effects ∧
        ∀ call, .received call ∉ effects := by
  unfold Site.handle
  dsimp only
  split
  case isTrue isb =>
    have still := congrArg Comm.Report.packet found.still
    unfold Comm.Instance.report at still
    dsimp only at still
    rw [if_neg sound, if_pos isb] at still
    obtain ⟨setData, data⟩ := other isb _ still.symm
    exact processIsb_quiet setData data
  case isFalse => exact ⟨rfl, [], (List.append_nil _).symm, fun _ => List.not_mem_nil⟩

end Delivering

/-- The packet that `sendAck` sends, with its body. -/
def replyPacket (pktType : UInt8) (body : List UInt8) : Comm.Written :=
  { processor := .isb
    frame := Comm.isbFrame (Comm.sentFlags pktType 0) 0 (Comm.sentPayload 0 body)
    report := Comm.Request.sentReport pktType 0 0 body }

section Replies

variable {pktType : UInt8} {body : List UInt8}

theorem replyPacket_accepted (type : pktType = Comm.pktTypeAck ∨ pktType = Comm.pktTypeNack)
    (short : body.length ≤ 1024) : (replyPacket pktType body).Accepted Comm.pktBufSize 0x0F where
  conforms := by
    have fits : 8 + (Comm.sentPayload 0 body).length ≤ Comm.pktBufSize := by
      show 8 + body.length ≤ 2048
      omega
    rcases type with rfl | rfl
    · exact Comm.sent_conforms _ rfl (show (0 : UInt16).toNat < 256 by decide) (.inl (.head _)) fits
    · exact Comm.sent_conforms _ rfl (show (0 : UInt16).toNat < 256 by decide)
        (.inl (.tail _ (.head _))) fits
  fits := by
    have length : (replyPacket pktType body).frame.length = 8 + body.length := Comm.isbFrame_length ..
    rw [length]
    exact Nat.le_trans (Nat.add_le_add_left short 8) (by decide)
  enabled := by
    show (0x0F : UInt32) &&& 0x01 ≠ 0
    decide

theorem replyPacket_quiet (type : pktType = Comm.pktTypeAck ∨ pktType = Comm.pktTypeNack) :
    (replyPacket pktType body).report.ptype ≠ .parseError ∧
      ((replyPacket pktType body).report.ptype.isIsb = true →
        ∀ view ∈ (replyPacket pktType body).report.packet,
          view.pktType ≠ Comm.pktTypeSetData ∧ view.pktType ≠ Comm.pktTypeData) := by
  rcases type with rfl | rfl
  · refine ⟨nofun, fun _ view same => ?_⟩
    obtain rfl := Option.some.inj same
    show Comm.pktTypeAck &&& Comm.pktTypeMask ≠ Comm.pktTypeSetData ∧
      Comm.pktTypeAck &&& Comm.pktTypeMask ≠ Comm.pktTypeData
    decide
  · refine ⟨nofun, fun _ view same => ?_⟩
    obtain rfl := Option.some.inj same
    show Comm.pktTypeNack &&& Comm.pktTypeMask ≠ Comm.pktTypeSetData ∧
      Comm.pktTypeNack &&& Comm.pktTypeMask ≠ Comm.pktTypeData
    decide

end Replies

/-! ### Runs -/

/-- The instance of the end that calls, and the link to the other one. -/
structure Remote where
  sender : Comm.Instance
  link : Comm.Link Node

/-- A call, `comManagerStepRxInstance` at the other end with so many bytes from `portRead`, or what the
application does there. -/
inductive RemoteAction where
  | call (txPkt : Comm.PortPacket) (call : Call)
  | read (count : Nat)
  | own (own : Own)

namespace RemoteAction

/-- The calls, in order. -/
def calls (actions : List RemoteAction) : List Call :=
  actions.filterMap fun action => match action with
    | .call _ sent => some sent
    | _ => none

/-- What the application does, in order. -/
def owns (actions : List RemoteAction) : List Own :=
  actions.filterMap fun action => match action with
    | .own done => some done
    | _ => none

def atLink : RemoteAction → Comm.LinkAction Own
  | .call _ sent => .write sent.written
  | .read count => .read count
  | .own done => .own done

end RemoteAction

def Site.step (site : Site) (r : Remote) : RemoteAction → Remote × Unit
  | .call txPkt call =>
    ({ sender := (comManagerSend r.link.pipe r.sender txPkt call).2.1
       link := { r.link with pipe := (comManagerSend r.link.pipe r.sender txPkt call).1 } }, ())
  | .read count => ({ r with link := (r.link.step site.handle Node.own (.read count)).1 }, ())
  | .own own => ({ r with link := (r.link.step site.handle Node.own (.own own)).1 }, ())

/-- Nothing is sent, and the parser of the port is fresh. -/
def Remote.start (sender : Comm.Instance) (mem : Nat → UInt8) (node : Node) : Remote :=
  { sender, link := .start mem Comm.pktBufSize 0x0F node }

/-- The bytes of calls. -/
def framesOf (calls : List Call) : List UInt8 := Comm.stream (calls.map Call.written)

/-- The first calls have taken effect, one after the other, between what the application did. The
others are on the way, and the first of them is not read whole. -/
structure TakeEffect (site : Site) (node : Node) (calls : List Call) (owned : List Own)
    (history : List (Call ⊕ Own)) (rest : List Call) (r : Remote) : Prop where
  calls : calls = history.filterMap Sum.getLeft? ++ rest
  owned : history.filterMap Sum.getRight? = owned
  node : r.link.node = history.foldl site.advance node
  unread : r.link.pipe <:+ framesOf rest
  next : ∀ call ∈ rest.head?,
    (framesOf rest).length < r.link.pipe.length + call.written.frame.length

section Runs

variable {site : Site} {node last : Node}

/-- What the handler went through is what the calls went through. -/
theorem passes_advance {history : List (Call ⊕ Own)}
    (valid : ∀ call ∈ history.filterMap Sum.getLeft?, call.Valid)
    (passes : Comm.Passes site.handle Node.own (history.map (Sum.map Call.written id)) node last) :
    last = history.foldl site.advance node := by
  induction history generalizing node with
  | nil =>
    cases passes
    rfl
  | cons entry rest ih =>
    cases entry with
    | inl call =>
      cases passes with
      | found found later =>
        rw [handle_deliver (valid call (.head _)) found] at later
        exact ih (fun other member => valid other (.tail _ member)) later
    | inr own =>
      cases passes with
      | own later => exact ih valid later

private theorem history_calls {calls : List Call} {history : List (Comm.Written ⊕ Own)}
    {rest : List Comm.Written}
    (split : calls.map Call.written = history.filterMap Sum.getLeft? ++ rest) :
    ∃ (history' : List (Call ⊕ Own)) (rest' : List Call),
      history = history'.map (Sum.map Call.written id) ∧ rest = rest'.map Call.written ∧
      calls = history'.filterMap Sum.getLeft? ++ rest' ∧
      history.filterMap Sum.getRight? = history'.filterMap Sum.getRight? := by
  induction history generalizing calls with
  | nil => exact ⟨[], calls, rfl, split.symm, rfl, rfl⟩
  | cons entry history ih =>
    cases entry with
    | inl w =>
      cases calls with
      | nil => cases split
      | cons call calls =>
        obtain ⟨rfl, split'⟩ := List.cons.inj split
        obtain ⟨history', rest', rfl, rfl, rfl, owned⟩ := ih split'
        exact ⟨.inl call :: history', rest', rfl, rfl, rfl, owned⟩
    | inr own =>
      obtain ⟨history', rest', rfl, rfl, rfl, owned⟩ := ih split
      exact ⟨.inr own :: history', rest', rfl, rfl, rfl, congrArg (own :: ·) owned⟩

private theorem run_link {actions : List RemoteAction} (r : Remote)
    (valid : ∀ call ∈ RemoteAction.calls actions, call.Valid) :
    (run site.step r actions).1.link =
      (run (Comm.Link.step site.handle Node.own) r.link (actions.map RemoteAction.atLink)).1 := by
  induction actions generalizing r with
  | nil => rfl
  | cons action actions ih =>
    cases action with
    | call txPkt call =>
      have sent := comManagerSend_eq (valid call (.head _)) r.link.pipe r.sender txPkt
      have same : (site.step r (.call txPkt call)).1.link =
          (r.link.step site.handle Node.own (.write call.written)).1 :=
        congrArg (fun pipe => { r.link with pipe }) sent
      have later := ih (site.step r (.call txPkt call)).1 fun other member =>
        valid other (.tail _ member)
      rw [same] at later
      exact later
    | read => exact ih _ valid
    | own => exact ih _ valid

private theorem atLink_writes (actions : List RemoteAction) :
    Comm.LinkAction.writes (actions.map RemoteAction.atLink) =
      (RemoteAction.calls actions).map Call.written := by
  unfold Comm.LinkAction.writes RemoteAction.calls
  rw [List.filterMap_map, List.map_filterMap]
  congr 1
  funext action
  cases action <;> rfl

private theorem atLink_owns (actions : List RemoteAction) :
    Comm.LinkAction.owns (actions.map RemoteAction.atLink) = RemoteAction.owns actions := by
  unfold Comm.LinkAction.owns RemoteAction.owns
  rw [List.filterMap_map]
  congr 1
  funext action
  cases action <;> rfl

end Runs

/-- A com manager whose data sets are eight bytes at address 100, without broadcasts. -/
def smallNode : Node where
  cm := initComManager false false 1 fun _ => { txPtr := some 100, size := 8, preTxFnc := false }
  mem := fun _ => 0
  log := []
  packets := 0

def smallSite : Site where
  rx := { regData := fun _ => { rxPtr := some 100, size := 8, pstRxFnc := true }, pstRxFnc := false }
  pHandle := 0
  answers := fun _ => { txFree := fun _ _ => 0, preTx := fun _ _ _ => true, rmc := false }

/-- A packet before it is encoded. -/
def blankPkt : Comm.PortPacket := { emptyMsg.pkt.toTxPacket with checksum := { a := 0, b := 0 } }

/-- Three bytes are written and the data set is asked for; the reads do not end where the frames do. -/
def cutActions : List RemoteAction :=
  [.call blankPkt (.sendData 5 4 [1, 2, 3]), .read 7, .call blankPkt (.getData ⟨5, 0, 0, 0⟩),
    .own (.update 100 [9]), .read 11, .read 100]

theorem cutActions_valid : ∀ call ∈ RemoteAction.calls cutActions, call.Valid := by
  intro call member
  change call ∈ [Call.sendData 5 4 [1, 2, 3], Call.getData ⟨5, 0, 0, 0⟩] at member
  rcases List.mem_cons.mp member with rfl | member
  · exact ⟨by decide, by decide, trivial⟩
  · obtain rfl := List.mem_singleton.mp member
    exact ⟨by decide, by decide, by decide⟩

end InertialSense.ComManager
