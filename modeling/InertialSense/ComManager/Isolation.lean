import InertialSense.ComManager.Broadcast

/-! What one port sees of the others in a step. The loop ends at the first slot whose packet
does not fit, whatever port it belongs to and whether or not it is in use. -/

namespace InertialSense.ComManager

open Foundation

def sentOn (port : Int) (sent : List Transmission) : List Packet :=
  sent.filterMap fun
    | .data pHandle pkt => if pHandle = port then some pkt else none
    | .reply _ _ => none

/-- The slot is in use for the port. -/
def BroadcastMsg.Own (port : Int) (msg : BroadcastMsg) : Prop :=
  msg.period ≠ msgPeriodDisabled ∧ msg.pHandle = port

instance (port : Int) (msg : BroadcastMsg) : Decidable (msg.Own port) :=
  inferInstanceAs (Decidable (_ ∧ _))

namespace Instance

/-- The port finds the same in both cases: its slots, its space, and its callbacks. -/
structure Agree (port : Int) (cm cm' : Instance) (answers answers' : Answers) : Prop where
  callback : cm.txFree = cm'.txFree
  regData : cm.regData = cm'.regData
  slots : ∀ k, (cm.broadcastMessages k).Own port ∨ (cm'.broadcastMessages k).Own port →
    cm.broadcastMessages k = cm'.broadcastMessages k
  free : ∀ k, answers.txFree k port = answers'.txFree k port
  preTx : ∀ k id, answers.preTx k id port = answers'.preTx k id port

/-- The step sends the same packets on the port, and leaves its slots the same. -/
def Isolated (port : Int) (cm cm' : Instance) (answers answers' : Answers) : Prop :=
  sentOn port (cm.stepComManagerSendMessages answers).2 =
      sentOn port (cm'.stepComManagerSendMessages answers').2 ∧
    ∀ k, (cm.broadcastMessages k).Own port →
      (cm.stepComManagerSendMessages answers).1.broadcastMessages k =
        (cm'.stepComManagerSendMessages answers').1.broadcastMessages k

/-- The step has something to do for the slot: to send its packet, or to count. A packet that
is sent in every step and that `preTxFnc` holds back is not counted. -/
def Due (cm : Instance) (answers : Answers) (k : Fin maxNumBcastMsgs) (msg : BroadcastMsg) : Prop :=
  msg.period = msgPeriodSendOnce ∨
    0 < msg.period ∧
      ¬(msg.period = 1 ∧ msg.counter = 0 ∧ msg.pkt.id.toNat < didCount ∧
        cm.sendData answers k msg.pkt.id.toUInt16 msg.pHandle = false)

variable {port : Int} {cm cm' : Instance} {answers answers' : Answers} {k : Fin maxNumBcastMsgs}
  {msg : BroadcastMsg}

theorem due_iff : cm.Due answers k msg ↔ cm.stepMsg answers k msg ≠ (msg, []) := by
  unfold Due stepMsg
  split
  case isTrue once =>
    refine ⟨fun _ same => ?_, fun _ => .inl once⟩
    cases congrArg Prod.snd same
  case isFalse repeated =>
    split
    case isFalse disabled =>
      refine ⟨fun due => ?_, fun changed => absurd rfl changed⟩
      rcases due with once | ⟨positive, -⟩
      · exact absurd once repeated
      · exact absurd positive disabled
    case isTrue positive =>
      split
      case isFalse counting =>
        refine ⟨fun _ same => ?_, fun _ => .inr ⟨positive, ?_⟩⟩
        · have counter : msg.counter + 1 = msg.counter :=
            congrArg (fun stepped => stepped.1.counter) same
          omega
        · rintro ⟨one, zero, -⟩
          omega
      case isTrue expired =>
        constructor
        · intro due same
          obtain ⟨-, sends⟩ := due.resolve_left repeated
          have zero : 0 = msg.counter := congrArg (fun stepped => stepped.1.counter) same
          have silent := congrArg Prod.snd same
          dsimp only at silent
          split at silent
          · cases silent
          case isFalse refused => exact sends ⟨by omega, zero.symm, by simpa using refused⟩
        · intro changed
          refine .inr ⟨positive, ?_⟩
          rintro ⟨one, zero, small, refused⟩
          apply changed
          rw [if_neg (by simp [small, refused]), ← zero]

/-- A slot that is not the port's sends nothing on it. -/
theorem sentOn_stepMsg_other (other : ¬msg.Own port) :
    sentOn port (cm.stepMsg answers k msg).2 = [] := by
  apply List.filterMap_eq_nil_iff.mpr
  intro transmission sent
  obtain ⟨rfl, used⟩ := mem_stepMsg_sent sent
  refine if_neg ?_
  intro same
  exact other ⟨used, same⟩

theorem sentOn_stepMsg_own (own : msg.Own port) :
    sentOn port (cm.stepMsg answers k msg).2 = [] ↔ (cm.stepMsg answers k msg).2 = [] := by
  refine ⟨fun silent => ?_, fun silent => by rw [silent]; rfl⟩
  apply List.eq_nil_iff_forall_not_mem.mpr
  intro transmission sent
  have kept := List.filterMap_eq_nil_iff.mp silent transmission sent
  obtain ⟨rfl, -⟩ := mem_stepMsg_sent sent
  exact absurd ((if_pos own.2).symm.trans kept) (by nofun)

theorem Agree.own (agree : Agree port cm cm' answers answers')
    (own' : (cm'.broadcastMessages k).Own port) : (cm.broadcastMessages k).Own port := by
  rw [agree.slots k (.inr own')]
  exact own'

theorem Agree.stepMsg (agree : Agree port cm cm' answers answers')
    (own : (cm.broadcastMessages k).Own port) :
    cm'.stepMsg answers' k (cm'.broadcastMessages k) =
      cm.stepMsg answers k (cm.broadcastMessages k) := by
  rw [← agree.slots k (.inl own)]
  unfold Instance.stepMsg sendData
  rw [own.2, agree.preTx, agree.regData]

theorem Agree.sentOn_stepMsg (agree : Agree port cm cm' answers answers') (k : Fin maxNumBcastMsgs) :
    sentOn port (cm'.stepMsg answers' k (cm'.broadcastMessages k)).2 =
      sentOn port (cm.stepMsg answers k (cm.broadcastMessages k)).2 := by
  by_cases own : (cm.broadcastMessages k).Own port
  · rw [agree.stepMsg own]
  · rw [sentOn_stepMsg_other own, sentOn_stepMsg_other fun own' => own (agree.own own')]

theorem sentOn_stepTx (port : Int) (cm : Instance) (answers : Answers) :
    sentOn port (cm.stepComManagerSendMessages answers).2 =
      (cm.reached answers).flatMap fun k =>
        sentOn port (cm.stepMsg answers k (cm.broadcastMessages k)).2 := by
  rw [stepTx_sent]
  exact List.filterMap_flatMap ..

/-- The port's packets are the same, if no slot that sends one is reached in one case only. -/
theorem Agree.sent_iff (agree : Agree port cm cm' answers answers') :
    sentOn port (cm.stepComManagerSendMessages answers).2 =
        sentOn port (cm'.stepComManagerSendMessages answers').2 ↔
      ∀ k, sentOn port (cm.stepMsg answers k (cm.broadcastMessages k)).2 = [] ∨
        (cm.Reached answers k ↔ cm'.Reached answers' k) := by
  rw [sentOn_stepTx, sentOn_stepTx]
  simp only [agree.sentOn_stepMsg]
  unfold reached
  rw [reports_eq_iff (List.nodup_finRange _) visited_prefix visited_prefix]
  simp only [← mem_reached]
  rfl

/-- The port is isolated exactly if no slot of it for which there is something to do is
reached in one case only. -/
theorem isolated_iff (agree : Agree port cm cm' answers answers') :
    Isolated port cm cm' answers answers' ↔
      ∀ k, (cm.broadcastMessages k).Own port → cm.Due answers k (cm.broadcastMessages k) →
        (cm.Reached answers k ↔ cm'.Reached answers' k) := by
  have table (k : Fin maxNumBcastMsgs) (own : (cm.broadcastMessages k).Own port) :
      (cm.stepComManagerSendMessages answers).1.broadcastMessages k =
          (cm'.stepComManagerSendMessages answers').1.broadcastMessages k ↔
        (cm.stepMsg answers k (cm.broadcastMessages k)).1 = cm.broadcastMessages k ∨
          (cm.Reached answers k ↔ cm'.Reached answers' k) := by
    rw [stepTx_table, stepTx_table, agree.stepMsg own, ← agree.slots k (.inl own), ← mem_reached,
      ← mem_reached]
    by_cases there : k ∈ cm.reached answers <;> by_cases there' : k ∈ cm'.reached answers' <;>
      simp [there, there', eq_comm]
  unfold Isolated
  rw [agree.sent_iff]
  constructor
  · rintro ⟨sent, kept⟩ k own due
    by_contra apart
    have silent := (sentOn_stepMsg_own own).mp ((sent k).resolve_right apart)
    have same := ((table k own).mp (kept k own)).resolve_right apart
    exact due_iff.mp due (Prod.ext same silent)
  · intro together
    refine ⟨fun k => ?_, fun k own => (table k own).mpr ?_⟩
    · by_cases own : (cm.broadcastMessages k).Own port
      · by_cases due : cm.Due answers k (cm.broadcastMessages k)
        · exact .inr (together k own due)
        · have idle := not_not.mp (mt due_iff.mpr due)
          exact .inl ((sentOn_stepMsg_own own).mpr (congrArg Prod.snd idle))
      · exact .inl (sentOn_stepMsg_other own)
    · by_cases due : cm.Due answers k (cm.broadcastMessages k)
      · exact .inr (together k own due)
      · exact .inl (congrArg Prod.fst (not_not.mp (mt due_iff.mpr due)))

end Instance

/-- Operations change nothing but the table. -/
theorem Instance.operate_config (cm : Instance) (operation : Operation) :
    (cm.operate operation).1.txFree = cm.txFree ∧ (cm.operate operation).1.regData = cm.regData := by
  cases operation with
  | getData answers pHandle req =>
    exact getDataRequest_rule (P := fun after => after.txFree = cm.txFree ∧ after.regData = cm.regData)
      ⟨rfl, rfl⟩ fun _ _ _ _ => ⟨rfl, rfl⟩
  | stepTx answers => exact ⟨rfl, rfl⟩
  | stop pHandle command =>
    show (cm.processStop pHandle command).1.txFree = cm.txFree ∧
      (cm.processStop pHandle command).1.regData = cm.regData
    rw [processStop_table]
    exact ⟨rfl, rfl⟩

theorem Instance.run_config (cm : Instance) (operations : List Operation) :
    (run operate cm operations).1.txFree = cm.txFree ∧
      (run operate cm operations).1.regData = cm.regData := by
  induction operations generalizing cm with
  | nil => exact ⟨rfl, rfl⟩
  | cons operation rest ih =>
    obtain ⟨callback, regData⟩ := cm.operate_config operation
    obtain ⟨callback', regData'⟩ := ih (cm.operate operation).1
    exact ⟨callback'.trans callback, regData'.trans regData⟩

/-- Port 0 receives a data set; the slot before it was used by another port, which has sent a
stop command since. -/
def besideStopped (other : Nat) : Instance :=
  (run Instance.operate (initComManager true false 1 eightBytes)
    [.getData (spaceFor 100) other ⟨4, 0, 0, 10⟩, .getData (spaceFor 100) 0 ⟨4, 0, 0, 10⟩,
      .stop other .broadcastsCurrentPort]).1

/-- Port 1 has `free` bytes of space, and the other ports have enough. -/
def spaceOnPortOne (free : UInt32) : Answers :=
  { txFree := fun _ port => if port = 1 then free else 100, preTx := fun _ _ _ => true, rmc := false }

private theorem besideStopped_agree (free : UInt32) :
    Instance.Agree 0 (besideStopped 1) (besideStopped 2) (spaceOnPortOne free)
      (spaceOnPortOne free) := by
  obtain ⟨callback, regData⟩ := Instance.run_config (initComManager true false 1 eightBytes) _
  obtain ⟨callback', regData'⟩ := Instance.run_config (initComManager true false 1 eightBytes) _
  exact ⟨callback.trans callback'.symm, regData.trans regData'.symm, by decide +kernel,
    fun _ => rfl, fun _ _ => rfl⟩

theorem isolated_iff_space :
    Instance.Isolated 0 (besideStopped 1) (besideStopped 2) (spaceOnPortOne 50)
      (spaceOnPortOne 50) := by
  refine (Instance.isolated_iff (besideStopped_agree 50)).mpr fun k _ _ => ?_
  have reached : ∀ j, (besideStopped 1).blocked (spaceOnPortOne 50) j
      ((besideStopped 1).broadcastMessages j) = false := by decide +kernel
  have reached' : ∀ j, (besideStopped 2).blocked (spaceOnPortOne 50) j
      ((besideStopped 2).broadcastMessages j) = false := by decide +kernel
  exact ⟨fun _ j _ => reached' j, fun _ j _ => reached j⟩

/-- What the stopped slot was used for decides whether port 0 is served. -/
theorem stopped_slot_blocks_other_port :
    Instance.Agree 0 (besideStopped 1) (besideStopped 2) (spaceOnPortOne 4) (spaceOnPortOne 4) ∧
      ¬Instance.Isolated 0 (besideStopped 1) (besideStopped 2) (spaceOnPortOne 4)
        (spaceOnPortOne 4) := by
  refine ⟨besideStopped_agree 4, ?_⟩
  rintro ⟨-, kept⟩
  exact absurd (kept 1 (by decide +kernel)) (by decide +kernel)

end InertialSense.ComManager
