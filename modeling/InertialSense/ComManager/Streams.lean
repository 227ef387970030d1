import InertialSense.ComManager.Broadcast

/-! Which slots carry the same stream. The search for a matching slot compares the payload
size in the packet header, which counts the offset, with the size that is requested. -/

namespace InertialSense.ComManager

open Foundation

/-- What a client asks for: a part of a data set, on a port. -/
structure Stream where
  port : Int
  id : UInt16
  size : UInt16
  offset : UInt16
deriving DecidableEq

/-- The stream in a slot; `data.size` is the size that was requested. -/
def BroadcastMsg.stream (msg : BroadcastMsg) : Stream :=
  { port := msg.pHandle, id := msg.pkt.id.toUInt16, size := msg.pkt.dataSize, offset := msg.pkt.offset }

def DataGet.stream (req : DataGet) (pHandle : Int) : Stream :=
  { port := pHandle, id := req.id, size := req.size, offset := req.offset }

/-- The slot is in use. -/
def BroadcastMsg.Active (msg : BroadcastMsg) : Prop := msg.period ≠ msgPeriodDisabled

instance (msg : BroadcastMsg) : Decidable msg.Active := inferInstanceAs (Decidable (_ ≠ _))

namespace Instance

/-- Each stream is in one slot at most. -/
def Unique (cm : Instance) : Prop :=
  ∀ i j, (cm.broadcastMessages i).Active → (cm.broadcastMessages j).Active →
    (cm.broadcastMessages i).stream = (cm.broadcastMessages j).stream → i = j

/-- A request for a stream that is in a slot changes the period of that slot, and nothing
else but its counter. -/
def Reuses (cm : Instance) (answers : Answers) (pHandle : Int) (req : DataGet) : Prop :=
  ∀ effective k, cm.answered answers req = some effective → (cm.broadcastMessages k).Active →
    (cm.broadcastMessages k).stream = effective.stream pHandle →
    ∃ counter period, (cm.comManagerGetDataRequest answers pHandle req).1 =
      cm.setMsg k { cm.broadcastMessages k with counter, period }

/-- The operation requests again, from an offset other than 0, a stream that is in a slot. -/
def RepeatsPartial (cm : Instance) : Operation → Prop
  | .getData answers pHandle req =>
    ∃ effective ∈ cm.answered answers req, effective.offset ≠ 0 ∧
      ∃ k, (cm.broadcastMessages k).Active ∧
        (cm.broadcastMessages k).stream = effective.stream pHandle
  | .stepTx _ | .stop _ _ => False

instance (cm : Instance) (operation : Operation) : Decidable (cm.RepeatsPartial operation) :=
  match operation with
  | .getData _ _ _ => inferInstanceAs (Decidable (∃ effective ∈ _, _ ∧ ∃ _, _ ∧ _))
  | .stepTx _ | .stop _ _ => isFalse id

/-- What holds in every run without such a request. -/
structure Tidy (cm : Instance) : Prop where
  /-- The header counts an offset as two bytes more. -/
  encoded : ∀ k, (cm.broadcastMessages k).pkt.payloadSize =
    if (cm.broadcastMessages k).pkt.offset ≠ 0 then (cm.broadcastMessages k).pkt.dataSize + 2
    else (cm.broadcastMessages k).pkt.dataSize
  /-- The packet in use is the answer to a request for its stream. -/
  written : ∀ k, (cm.broadcastMessages k).Active → ∀ req : DataGet, ∀ pHandle,
    (cm.broadcastMessages k).stream = req.stream pHandle →
    (cm.broadcastMessages k).pkt = cm.packetFor req
  /-- The search finds a stream from offset 0 in the slot that is in use. -/
  whole : ∀ i j, i < j → (cm.broadcastMessages j).Active →
    (cm.broadcastMessages j).pkt.offset = 0 →
    (cm.broadcastMessages i).stream ≠ (cm.broadcastMessages j).stream
  /-- Streams from another offset are not requested while they are in use. -/
  parts : ∀ i j, (cm.broadcastMessages i).Active → (cm.broadcastMessages j).Active →
    (cm.broadcastMessages j).pkt.offset ≠ 0 →
    (cm.broadcastMessages i).stream = (cm.broadcastMessages j).stream → i = j

variable {cm : Instance} {answers : Answers} {pHandle : Int} {req effective : DataGet}
  {k : Fin maxNumBcastMsgs}

theorem Tidy.unique (tidy : cm.Tidy) : cm.Unique := by
  intro i j used used' same
  by_cases zero : (cm.broadcastMessages j).pkt.offset = 0
  · have zero' : (cm.broadcastMessages i).pkt.offset = 0 :=
      (congrArg Stream.offset same).trans zero
    rcases Nat.lt_trichotomy i j with before | equal | after
    · exact absurd same (tidy.whole i j before used' zero)
    · exact Fin.ext equal
    · exact absurd same.symm (tidy.whole j i after used zero')
  · exact tidy.parts i j used used' zero same

/-- Without an offset, the header tells the stream. -/
theorem Tidy.matches_iff (tidy : cm.Tidy) (zero : req.offset = 0) :
    MatchesRequest pHandle req (cm.broadcastMessages k) ↔
      (cm.broadcastMessages k).stream = req.stream pHandle := by
  have encoded := tidy.encoded k
  constructor
  · rintro ⟨port, id, size, offset⟩
    rw [if_neg (by simp [offset, zero])] at encoded
    rw [encoded] at size
    unfold BroadcastMsg.stream DataGet.stream
    rw [port, id, size, offset]
  · intro same
    obtain ⟨port, id, size, offset⟩ := Stream.mk.inj same
    rw [if_neg (by simp [offset, zero])] at encoded
    exact ⟨port, id, encoded.trans size, offset⟩

/-- Without an offset, a request gets the first slot that has its stream, if there is one. -/
theorem Tidy.slotFor_whole (tidy : cm.Tidy) (zero : req.offset = 0) :
    (∀ i < cm.slotFor pHandle req, (cm.broadcastMessages i).stream ≠ req.stream pHandle) ∧
      ∀ j, (cm.broadcastMessages j).stream = req.stream pHandle →
        (cm.broadcastMessages (cm.slotFor pHandle req)).stream = req.stream pHandle := by
  rcases cm.slotFor_cases pHandle req with ⟨here, before⟩ | ⟨missing, -⟩
  · refine ⟨?_, fun _ _ => (tidy.matches_iff zero).mp here⟩
    intro i earlier same
    exact before i earlier ((tidy.matches_iff zero).mpr same)
  · have nowhere (i : Fin maxNumBcastMsgs) :
        (cm.broadcastMessages i).stream ≠ req.stream pHandle := by
      intro same
      exact missing i ((tidy.matches_iff zero).mpr same)
    exact ⟨fun i _ => nowhere i, fun j same => absurd same (nowhere j)⟩

/-- Slots that are not written stay as they are. -/
theorem Tidy.fades {after : Instance} (tidy : cm.Tidy) (fades : Fades cm after) : after.Tidy := by
  have stream (k : Fin maxNumBcastMsgs) :
      (after.broadcastMessages k).stream = (cm.broadcastMessages k).stream := by
    unfold BroadcastMsg.stream
    rw [fades.pkt, fades.pHandle]
  have active (k : Fin maxNumBcastMsgs) (used : (after.broadcastMessages k).Active) :
      (cm.broadcastMessages k).Active := by
    rcases fades.period k with same | disabled
    · unfold BroadcastMsg.Active at used ⊢
      rwa [same] at used
    · exact absurd disabled used
  refine ⟨?_, ?_, ?_, ?_⟩
  · intro k
    rw [fades.pkt]
    exact tidy.encoded k
  · intro k used req pHandle same
    rw [stream] at same
    rw [fades.pkt, tidy.written k (active k used) req pHandle same]
    unfold packetFor
    rw [fades.regData]
  · intro i j before used zero
    rw [fades.pkt] at zero
    rw [stream, stream]
    exact tidy.whole i j before (active j used) zero
  · intro i j used used' offset same
    rw [fades.pkt] at offset
    rw [stream, stream] at same
    exact tidy.parts i j (active i used) (active j used') offset same

section Request

variable {counter period : Int}

private theorem answer_stream (known : req.id.toNat < didCount) :
    BroadcastMsg.stream { pkt := cm.packetFor req, counter, period, pHandle } =
      req.stream pHandle := by
  unfold BroadcastMsg.stream DataGet.stream
  rw [packetFor_id known]
  rfl

private theorem packetFor_congr {other : DataGet} {port : Int}
    (same : req.stream pHandle = other.stream port) : cm.packetFor req = cm.packetFor other := by
  obtain ⟨-, id, size, offset⟩ := Stream.mk.inj same
  unfold packetFor
  rw [id, size, offset]

theorem Tidy.answer (tidy : cm.Tidy) (known : req.id.toNat < didCount)
    (fresh : req.offset ≠ 0 → ∀ k, (cm.broadcastMessages k).Active →
      (cm.broadcastMessages k).stream ≠ req.stream pHandle) :
    (cm.setMsg (cm.slotFor pHandle req)
      { pkt := cm.packetFor req, counter, period, pHandle }).Tidy := by
  have stream : BroadcastMsg.stream { pkt := cm.packetFor req, counter, period, pHandle } =
      req.stream pHandle := answer_stream known
  refine ⟨?_, ?_, ?_, ?_⟩
  · intro k
    by_cases own : k = cm.slotFor pHandle req
    · subst own
      rw [setMsg_same]
      rfl
    · rw [setMsg_other own]
      exact tidy.encoded k
  · intro k used other port same
    by_cases own : k = cm.slotFor pHandle req
    · subst own
      rw [setMsg_same] at same ⊢
      exact packetFor_congr (stream.symm.trans same)
    · rw [setMsg_other own] at used same ⊢
      exact tidy.written k used other port same
  · intro i j before used zero
    by_cases own : j = cm.slotFor pHandle req
    · have other : i ≠ cm.slotFor pHandle req := ne_of_lt (own ▸ before)
      rw [own, setMsg_same] at zero
      rw [setMsg_other other, own, setMsg_same, stream]
      exact (tidy.slotFor_whole zero).1 i (own ▸ before)
    · rw [setMsg_other own] at used zero ⊢
      by_cases first : i = cm.slotFor pHandle req
      · -- A later slot with the stream would have had an earlier one with it before, too.
        rw [first, setMsg_same, stream]
        intro same
        have zero' : req.offset = 0 := (congrArg Stream.offset same).trans zero
        have earlier := (tidy.slotFor_whole zero').2 j same.symm
        exact tidy.whole _ j (first ▸ before) used zero (earlier.trans same)
      · rw [setMsg_other first]
        exact tidy.whole i j before used zero
  · intro i j used used' offset same
    by_cases own : j = cm.slotFor pHandle req
    · by_cases first : i = cm.slotFor pHandle req
      · exact first.trans own.symm
      · rw [setMsg_other first] at used same
        rw [own, setMsg_same] at offset same
        exact absurd (same.trans stream) (fresh offset i used)
    · rw [setMsg_other own] at used' offset same
      by_cases first : i = cm.slotFor pHandle req
      · rw [first, setMsg_same, stream] at same
        have offset' : req.offset ≠ 0 := fun zero => offset ((congrArg Stream.offset same).symm.trans zero)
        exact absurd same.symm (fresh offset' j used')
      · rw [setMsg_other first] at used same
        exact tidy.parts i j used used' offset same

end Request

theorem Tidy.operate {operation : Operation} (tidy : cm.Tidy)
    (single : ¬cm.RepeatsPartial operation) : (cm.operate operation).1.Tidy := by
  cases operation with
  | getData answers pHandle req =>
    show (cm.comManagerGetDataRequest answers pHandle req).1.Tidy
    refine getDataRequest_rule tidy fun effective counter period taken => ?_
    obtain ⟨id, -, known⟩ := answered_id taken
    refine tidy.answer (by rwa [id]) ?_
    intro offset k used same
    exact single ⟨effective, taken, offset, k, used, same⟩
  | stepTx answers => exact tidy.fades (cm.stepTx_fades answers)
  | stop pHandle command => exact tidy.fades (cm.processStop_fades pHandle command)

/-- A request for a stream in use finds its slot. -/
theorem Tidy.reuses (tidy : cm.Tidy)
    (single : ¬cm.RepeatsPartial (.getData answers pHandle req)) : cm.Reuses answers pHandle req := by
  intro effective k taken used same
  have zero : effective.offset = 0 := by
    by_contra offset
    exact single ⟨effective, taken, offset, k, used, same⟩
  obtain ⟨first, found⟩ : (∀ i < cm.slotFor pHandle effective,
      (cm.broadcastMessages i).stream ≠ effective.stream pHandle) ∧
      ∀ j, (cm.broadcastMessages j).stream = effective.stream pHandle →
        (cm.broadcastMessages (cm.slotFor pHandle effective)).stream = effective.stream pHandle :=
    tidy.slotFor_whole zero
  have slot : cm.slotFor pHandle effective = k := by
    rcases Nat.lt_trichotomy (cm.slotFor pHandle effective) k with before | equal | after
    · refine absurd ((found k same).trans same.symm) (tidy.whole _ k before used ?_)
      exact (congrArg Stream.offset same).trans zero
    · exact Fin.ext equal
    · exact absurd same (first k after)
  obtain ⟨counter, period, table⟩ := @getDataRequest_table cm answers pHandle req effective taken
  refine ⟨counter, period, ?_⟩
  rw [table, slot, ← tidy.written k used effective pHandle same]
  have port : (cm.broadcastMessages k).pHandle = pHandle := congrArg Stream.port same
  rw [← port]

end Instance

/-- An instance after `comManagerInit` has no slot in use. -/
theorem initComManager_tidy (txFree rmc : Bool) (stepPeriodMilliseconds : Int)
    (regData : UInt16 → RegisteredData) :
    (initComManager txFree rmc stepPeriodMilliseconds regData).Tidy :=
  ⟨fun _ => rfl, fun _ used => absurd rfl used, fun _ _ _ used => absurd rfl used,
    fun _ _ used => absurd rfl used⟩

/-- In every run in which no stream from an offset other than 0 is requested while it is in
a slot, each stream is in one slot at most, and a request for it reuses that slot. -/
theorem run_streams_unique (txFree rmc : Bool) (stepPeriodMilliseconds : Int)
    (regData : UInt16 → RegisteredData) {operations : List Operation}
    (single : Along Instance.operate (fun cm operation => ¬cm.RepeatsPartial operation)
      (initComManager txFree rmc stepPeriodMilliseconds regData) operations) :
    (run Instance.operate (initComManager txFree rmc stepPeriodMilliseconds regData)
        operations).1.Unique ∧
      ∀ answers pHandle req,
        ¬(run Instance.operate (initComManager txFree rmc stepPeriodMilliseconds regData)
          operations).1.RepeatsPartial (.getData answers pHandle req) →
        (run Instance.operate (initComManager txFree rmc stepPeriodMilliseconds regData)
          operations).1.Reuses answers pHandle req := by
  have tidy := run_invariant (fun cm operation => Instance.Tidy.operate)
    (initComManager_tidy txFree rmc stepPeriodMilliseconds regData) single
  exact ⟨tidy.unique, fun answers pHandle req single => tidy.reuses single⟩

/-- The whole data set on two ports, a part of it, a step, and the first request again. -/
def repeatedWhole : List Operation :=
  [.getData (spaceFor 100) 0 ⟨4, 0, 0, 10⟩, .getData (spaceFor 100) 1 ⟨4, 8, 0, 10⟩,
    .getData (spaceFor 4) 0 ⟨4, 2, 4, 0⟩, .stepTx (spaceFor 100),
    .getData (spaceFor 100) 0 ⟨4, 8, 0, 20⟩]

theorem run_streams_unique_repeated :
    (run Instance.operate (initComManager true false 1 eightBytes) repeatedWhole).1.Unique ∧
      ((run Instance.operate (initComManager true false 1 eightBytes) repeatedWhole).1
        |>.broadcastMessages 0).period = 20 :=
  ⟨(run_streams_unique true false 1 eightBytes (by decide +kernel)).1, by decide +kernel⟩

/-- Two bytes from offset 4, requested twice. -/
def repeatedPart : List Operation :=
  [.getData (spaceFor 100) 0 ⟨4, 2, 4, 10⟩, .getData (spaceFor 100) 0 ⟨4, 2, 4, 10⟩]

/-- The second request takes a second slot. -/
theorem repeated_part_not_unique :
    ¬(run Instance.operate (initComManager true false 1 eightBytes) repeatedPart).1.Unique := by
  intro unique
  exact absurd (unique 0 1 (by decide +kernel) (by decide +kernel) (by decide +kernel)) (by decide)

end InertialSense.ComManager
