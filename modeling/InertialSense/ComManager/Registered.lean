import InertialSense.ComManager.Isolation

/-! What the packets of the broadcast table read: the data sets that are registered, where they
have a pointer to be sent from. -/

namespace InertialSense.ComManager

open Foundation

/-- The arguments of `comManagerRegisterInstance` that concern sending; `txPtr` is `none` for a
data set that is received only. -/
structure Registration where
  did : UInt16
  preTxFnc : Bool
  txPtr : Option Nat
  size : UInt16

/-- `comManagerRegisterInstance`. -/
def comManagerRegister (regData : UInt16 → RegisteredData) (registration : Registration) :
    UInt16 → RegisteredData :=
  if didCount ≤ registration.did.toNat then regData
  else
    Function.update regData registration.did
      { txPtr := registration.txPtr
        size := registration.size.toUInt32
        preTxFnc := registration.preTxFnc }

/-- The data sets after these registrations, in order. -/
def registered (registrations : List Registration) : UInt16 → RegisteredData :=
  registrations.foldl comManagerRegister fun _ => { txPtr := none, size := 0, preTxFnc := false }

namespace Instance

/-- The data of the packet lies in the transmit data set that is registered for its id. -/
def ReadsRegistered (cm : Instance) (pkt : Packet) : Prop :=
  ∃ base start, (cm.regData pkt.id.toUInt16).txPtr = some base ∧ pkt.dataPtr = some start ∧
    base ≤ start ∧
    start + pkt.dataSize.toNat ≤ base + (cm.regData pkt.id.toUInt16).size.toNat

/-- What an operation sends lies in registered data, and so does what the packets in the table
read that have been built. -/
structure ReadsOnlyRegistered (cm : Instance) (operation : Operation) : Prop where
  sent : ∀ port pkt, .data port pkt ∈ (cm.operate operation).2 → cm.ReadsRegistered pkt
  built : ∀ k, ((cm.operate operation).1.broadcastMessages k).pkt = emptyMsg.pkt ∨
    cm.ReadsRegistered ((cm.operate operation).1.broadcastMessages k).pkt

/-- A request that is answered is for a data set with a transmit pointer. -/
def AsksTransmitted (cm : Instance) : Operation → Prop
  | .getData answers _ req => cm.answered answers req ≠ none → (cm.regData req.id).txPtr ≠ none
  | .stepTx _ | .stop _ _ => True

/-- A slot is empty, or its packet reads registered data. -/
def Filled (cm : Instance) : Prop :=
  ∀ k, (cm.broadcastMessages k).pkt = emptyMsg.pkt ∧
      (cm.broadcastMessages k).period = msgPeriodDisabled ∨
    cm.ReadsRegistered (cm.broadcastMessages k).pkt

variable {cm : Instance} {answers : Answers} {pHandle : Int} {req effective : DataGet}
  {operation : Operation}

/-- The request that is answered stays within the data set. -/
theorem answered_within (taken : cm.answered answers req = some effective) :
    effective.offset.toNat + effective.size.toNat ≤ (cm.regData req.id).size.toNat := by
  have id := (answered_id taken).1
  have same : effective = cm.clamp (cm.complete req) := by
    unfold answered at taken
    split at taken
    · cases taken
    split at taken
    · cases taken
    split at taken
    · cases taken
    · exact (Option.some.inj taken).symm
  have whole : (cm.complete req).id = req.id := by
    unfold complete
    split
    · rfl
    · rfl
  rw [same]
  unfold clamp
  rw [whole]
  have short : (cm.regData req.id).size.toUInt16.toNat ≤ (cm.regData req.id).size.toNat := by
    rw [UInt32.toNat_toUInt16]
    exact Nat.mod_le ..
  split
  case isTrue beyond =>
    show (0 : UInt16).toNat + (cm.regData req.id).size.toUInt16.toNat ≤ _
    simpa using short
  case isFalse within =>
    have sum : (cm.complete req).offset.toUInt32.toNat + (cm.complete req).size.toUInt32.toNat <
        2 ^ 32 := by
      have offset := (cm.complete req).offset.toNat_lt
      have size := (cm.complete req).size.toNat_lt
      simp only [UInt16.toNat_toUInt32]
      omega
    rw [UInt32.lt_iff_toNat_lt, UInt32.toNat_add, Nat.mod_eq_of_lt sum] at within
    simpa using within

private theorem packetFor_reads_iff (taken : cm.answered answers req = some effective) :
    cm.ReadsRegistered (cm.packetFor effective) ↔ (cm.regData req.id).txPtr ≠ none := by
  obtain ⟨id, -, known⟩ := answered_id taken
  have within := answered_within taken
  unfold ReadsRegistered
  rw [packetFor_id (by rwa [id]), id]
  constructor
  · rintro ⟨base, -, pointer, -⟩
    simp [pointer]
  · intro pointer
    obtain ⟨base, pointer⟩ := Option.ne_none_iff_exists'.mp pointer
    refine ⟨base, base + effective.offset.toNat, pointer, ?_, Nat.le_add_right .., ?_⟩
    · show (cm.regData effective.id).txPtr.map _ = _
      rw [id, pointer]
      rfl
    · show base + effective.offset.toNat + effective.size.toNat ≤ _
      omega

private theorem packetFor_ne (req : DataGet) : cm.packetFor req ≠ emptyMsg.pkt := by
  intro same
  have flags : (cm.packetFor req).flags = 0 := congrArg (fun pkt => pkt.flags) same
  have built : (cm.packetFor req).flags =
      if req.offset ≠ 0 then Comm.pktTypeData ||| Comm.isbFlagsPayloadWOffset
      else Comm.pktTypeData := rfl
  rw [built] at flags
  split at flags
  · exact absurd flags (by decide)
  · exact absurd flags (by decide)

theorem mem_answerRequest_sent {transmission : Transmission}
    (sent : transmission ∈ (cm.answerRequest answers pHandle req).2.2) :
    transmission = .data pHandle (cm.packetFor req) := by
  have own (condition : Bool)
      (member : transmission ∈
        if condition then [Transmission.data pHandle (cm.packetFor req)] else []) :
      transmission = .data pHandle (cm.packetFor req) := by
    split at member
    · exact List.mem_singleton.mp member
    · cases member
  unfold answerRequest at sent
  dsimp only at sent
  split at sent
  · cases sent
  split at sent
  · exact own _ sent
  split at sent
  · exact own _ sent
  · cases sent

private theorem readsRegistered_operate (cm : Instance) (operation : Operation) (pkt : Packet) :
    (cm.operate operation).1.ReadsRegistered pkt ↔ cm.ReadsRegistered pkt := by
  unfold ReadsRegistered
  rw [(cm.operate_config operation).2]

private theorem Filled.fades {after : Instance} (filled : cm.Filled) (fades : Fades cm after) :
    after.Filled := by
  intro k
  unfold ReadsRegistered
  rw [fades.pkt, fades.regData]
  rcases filled k with ⟨empty, disabled⟩ | reads
  · refine .inl ⟨empty, ?_⟩
    rcases fades.period k with same | disabled
    · rwa [same]
    · exact disabled
  · exact .inr reads

private theorem Filled.stepTx (filled : cm.Filled) {port : Int} {pkt : Packet}
    (sent : .data port pkt ∈ (cm.stepComManagerSendMessages answers).2) :
    cm.ReadsRegistered pkt := by
  rw [stepTx_sent] at sent
  obtain ⟨k, -, sent⟩ := List.mem_flatMap.mp sent
  obtain ⟨same, used⟩ := mem_stepMsg_sent sent
  obtain ⟨rfl, rfl⟩ := Transmission.data.inj same
  rcases filled k with ⟨-, disabled⟩ | reads
  · exact absurd disabled used
  · exact reads

private theorem processStop_no_data {port : Int} {pkt : Packet} {stopped : Nat}
    {command : StopCommand} :
    .data port pkt ∉ (cm.processStop stopped command).2 := by
  cases command with
  | broadcastsAllPorts | broadcastsCurrentPort | didBroadcast => simp [processStop]

/-- One operation reads registered data exactly if it answers no request for a data set without a
pointer, and if it does the table stays so. -/
private theorem Filled.reads_iff (filled : cm.Filled) (operation : Operation) :
    (cm.ReadsOnlyRegistered operation ↔ cm.AsksTransmitted operation) ∧
      (cm.ReadsOnlyRegistered operation → (cm.operate operation).1.Filled) := by
  have keeps (asks : cm.AsksTransmitted operation) (after : (cm.operate operation).1.Filled)
      (sent : ∀ port pkt, .data port pkt ∈ (cm.operate operation).2 → cm.ReadsRegistered pkt) :
      (cm.ReadsOnlyRegistered operation ↔ cm.AsksTransmitted operation) ∧
        (cm.ReadsOnlyRegistered operation → (cm.operate operation).1.Filled) := by
    refine ⟨iff_of_true ⟨sent, fun k => ?_⟩ asks, fun _ => after⟩
    exact (after k).imp And.left (readsRegistered_operate ..).mp
  cases operation with
  | stepTx answers =>
    exact keeps trivial (filled.fades (cm.stepTx_fades answers)) fun _ _ => filled.stepTx
  | stop stopped command =>
    refine keeps trivial (filled.fades (cm.processStop_fades stopped command)) fun port pkt sent => ?_
    exact absurd sent processStop_no_data
  | getData answers pHandle req =>
    have nack {port pkt} (sent : .data port pkt ∈ (cm.processGetData answers pHandle req).2) :
        .data port pkt ∈ (cm.comManagerGetDataRequest answers pHandle req).2.2 := by
      rcases List.mem_append.mp sent with sent | reply
      · exact sent
      · split at reply
        · cases List.mem_singleton.mp reply
        · cases reply
    cases taken : cm.answered answers req with
    | none =>
      obtain ⟨table, silent⟩ := @getDataRequest_of_none cm answers pHandle req taken
      refine keeps (fun asked => absurd taken asked) ?_ fun port pkt sent => ?_
      · show (cm.comManagerGetDataRequest answers pHandle req).1.Filled
        rwa [table]
      · have sent := nack sent
        rw [silent] at sent
        cases sent
    | some effective =>
      have reads := packetFor_reads_iff taken
      obtain ⟨counter, period, table⟩ := @getDataRequest_table cm answers pHandle req effective taken
      have after : (cm.operate (.getData answers pHandle req)).1 =
          cm.setMsg (cm.slotFor pHandle effective)
            { pkt := cm.packetFor effective, counter, period, pHandle } := table
      by_cases pointer : (cm.regData req.id).txPtr = none
      · have unread : ¬cm.ReadsOnlyRegistered (.getData answers pHandle req) := by
          intro only
          have built := only.built (cm.slotFor pHandle effective)
          rw [after, setMsg_same] at built
          rcases built with empty | registered
          · exact packetFor_ne effective empty
          · exact reads.mp registered pointer
        refine ⟨iff_of_false unread fun asks => asks ?_ pointer, fun only => absurd only unread⟩
        simp [taken]
      · refine keeps (fun _ => pointer) ?_ fun port pkt sent => ?_
        · rw [after]
          intro k
          by_cases own : k = cm.slotFor pHandle effective
          · subst own
            rw [setMsg_same]
            exact .inr (reads.mpr pointer)
          · rw [setMsg_other own]
            exact filled k
        · have sent := nack sent
          rw [getDataRequest_of_some taken] at sent
          rw [(Transmission.data.inj (mem_answerRequest_sent sent)).2]
          exact reads.mpr pointer

end Instance

/-- In every run of a new instance with whatever registrations, the packets that are sent and
those that are built read registered data, if and only if no request is answered for a data set
without a transmit pointer. -/
theorem reads_registered_iff (txFree rmc : Bool) (stepPeriodMilliseconds : Int)
    (registrations : List Registration) (operations : List Operation) :
    Along Instance.operate Instance.ReadsOnlyRegistered
        (initComManager txFree rmc stepPeriodMilliseconds (registered registrations)) operations ↔
      Along Instance.operate Instance.AsksTransmitted
        (initComManager txFree rmc stepPeriodMilliseconds (registered registrations))
        operations := by
  have filled :
      (initComManager txFree rmc stepPeriodMilliseconds (registered registrations)).Filled :=
    fun _ => .inl ⟨rfl, rfl⟩
  revert filled
  generalize initComManager txFree rmc stepPeriodMilliseconds (registered registrations) = cm
  intro filled
  induction operations generalizing cm with
  | nil => exact Iff.rfl
  | cons operation rest ih =>
    obtain ⟨sound, keeps⟩ := filled.reads_iff operation
    constructor
    · rintro ⟨only, later⟩
      exact ⟨sound.mp only, (ih _ (keeps only)).mp later⟩
    · rintro ⟨asks, later⟩
      have only := sound.mpr asks
      exact ⟨only, (ih _ (keeps only)).mpr later⟩

/-- A data set of eight bytes that is received only. -/
def receiveOnly : List Registration := [{ did := 4, preTxFnc := false, txPtr := none, size := 8 }]

/-- A request for it is answered, with eight bytes at the null pointer. -/
theorem receive_only_is_read :
    ¬∀ registrations operations,
      Along Instance.operate Instance.ReadsOnlyRegistered
        (initComManager false false 1 (registered registrations)) operations := by
  intro reads
  obtain ⟨⟨sent, -⟩, -⟩ := reads receiveOnly [.getData (spaceFor 100) 0 ⟨4, 0, 0, 0⟩]
  have answer : .data 0
        ((initComManager false false 1 (registered receiveOnly)).packetFor ⟨4, 8, 0, 0⟩) ∈
      ((initComManager false false 1 (registered receiveOnly)).operate
        (.getData (spaceFor 100) 0 ⟨4, 0, 0, 0⟩)).2 := by decide +kernel
  obtain ⟨base, -, pointer, -⟩ := sent _ _ answer
  have null : ((registered receiveOnly) 4).txPtr = none := by decide +kernel
  exact absurd (null.symm.trans pointer) (by simp)

end InertialSense.ComManager
