import InertialSense.ComManager.Broadcast

/-! A stop command silences its ports and data sets until they are requested again, whatever
else happens to the table. -/

namespace InertialSense.ComManager

open Foundation

/-- A part of the data sets and ports. -/
abbrev Scope := Int → UInt16 → Bool

def Operation.requests (scope : Scope) : Operation → Bool
  | .getData _ pHandle req => scope pHandle req.id
  | .stepTx _ | .stop _ _ => false

namespace Instance

variable {cm : Instance} {scope : Scope}

/-- No slot of the scope is in use. -/
def Silent (scope : Scope) (cm : Instance) : Prop :=
  ∀ k, scope (cm.broadcastMessages k).pHandle (cm.broadcastMessages k).pkt.id.toUInt16 →
    (cm.broadcastMessages k).period = msgPeriodDisabled

theorem processStop_silent (cm : Instance) (pHandle : Nat) (command : StopCommand) :
    Silent (command.covers pHandle) (cm.processStop pHandle command).1 := by
  rw [processStop_table]
  intro k member
  rw [disableWhere_table] at member ⊢
  split at member
  case isTrue covered =>
    rw [if_pos covered]
    rfl
  case isFalse other => exact absurd member other

theorem Silent.fades {after : Instance} (silent : Silent scope cm) (fades : Fades cm after) :
    Silent scope after := by
  intro k member
  rw [fades.pHandle, fades.pkt] at member
  rcases fades.period k with same | disabled
  · rw [same]
    exact silent k member
  · exact disabled

private theorem getData_silent {answers : Answers} {pHandle : Int} {req : DataGet}
    (silent : Silent scope cm) (other : scope pHandle req.id = false) :
    Silent scope (cm.comManagerGetDataRequest answers pHandle req).1 := by
  refine getDataRequest_rule silent fun effective counter period taken => ?_
  obtain ⟨id, -, known⟩ := answered_id taken
  intro k member
  by_cases own : k = cm.slotFor pHandle effective
  · subst own
    rw [setMsg_same, packetFor_id (by rwa [id]), id, other] at member
    cases member
  · rw [setMsg_other own] at member ⊢
    exact silent k member

theorem operate_silent {operation : Operation} (silent : Silent scope cm)
    (other : operation.requests scope = false) : Silent scope (cm.operate operation).1 := by
  cases operation with
  | getData answers pHandle req => exact getData_silent silent other
  | stepTx answers => exact silent.fades (cm.stepTx_fades answers)
  | stop pHandle command => exact silent.fades (cm.processStop_fades pHandle command)

/-- Where no slot of the scope is in use, none of its packets is sent. -/
theorem Silent.stepTx_sent {answers : Answers} {port : Int} {pkt : Packet}
    (silent : Silent scope cm)
    (sent : .data port pkt ∈ (cm.stepComManagerSendMessages answers).2) :
    scope port pkt.id.toUInt16 = false := by
  rw [Instance.stepTx_sent] at sent
  obtain ⟨k, -, sent⟩ := List.mem_flatMap.mp sent
  obtain ⟨same, used⟩ := mem_stepMsg_sent sent
  obtain ⟨rfl, rfl⟩ := Transmission.data.inj same
  by_contra covered
  exact used (silent k (by simpa using covered))

end Instance

/-- After a stop command no step sends a packet of its scope, in any run without a request for
it, and the command leaves every slot outside its scope. -/
theorem stop_commands_stop (cm : Instance) (pHandle : Nat) (command : StopCommand)
    {operations : List Operation}
    (unrequested : ∀ operation ∈ operations,
      operation.requests (command.covers pHandle) = false) :
    (∀ answers port pkt,
        .data port pkt ∈
          ((run Instance.operate (cm.operate (.stop pHandle command)).1 operations).1
            |>.stepComManagerSendMessages answers).2 →
        command.covers pHandle port pkt.id.toUInt16 = false) ∧
      ∀ k, command.coversMsg pHandle (cm.broadcastMessages k) = false →
        (cm.operate (.stop pHandle command)).1.broadcastMessages k = cm.broadcastMessages k := by
  refine ⟨?_, ?_⟩
  · have silent := run_invariant (fun cm operation => Instance.operate_silent)
      (cm.processStop_silent pHandle command) (.of_forall unrequested)
    intro answers port pkt sent
    exact silent.stepTx_sent sent
  · intro k other
    show (cm.processStop pHandle command).1.broadcastMessages k = cm.broadcastMessages k
    rw [Instance.processStop_table]
    exact if_neg (by simpa using other)

def twoPorts : Instance :=
  (run Instance.operate (initComManager true false 1 eightBytes)
    [.getData (spaceFor 100) 0 ⟨4, 0, 0, 1⟩, .getData (spaceFor 100) 1 ⟨4, 0, 0, 1⟩]).1

/-- The step and a request of the other port, after the command. -/
def afterStop : Instance :=
  (run Instance.operate (twoPorts.operate (.stop 0 .broadcastsCurrentPort)).1
    [.stepTx (spaceFor 100), .getData (spaceFor 100) 1 ⟨5, 0, 0, 1⟩]).1

theorem stop_commands_stop_port :
    (∀ pkt, .data 0 pkt ∉ (afterStop.stepComManagerSendMessages (spaceFor 100)).2) ∧
      (afterStop.stepComManagerSendMessages (spaceFor 100)).2.length = 1 := by
  refine ⟨?_, by decide +kernel⟩
  intro pkt sent
  have other := (stop_commands_stop twoPorts 0 .broadcastsCurrentPort (by decide +kernel)).1
    (spaceFor 100) 0 pkt sent
  exact absurd other (by simp [StopCommand.covers])

end InertialSense.ComManager
