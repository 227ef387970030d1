import InertialSense.ComManager.Broadcast

/-! Refused data requests: `comManagerGetDataRequestInstance` returns -1, and whether the broadcast
table is then as it was before. -/

namespace InertialSense.ComManager

open Foundation

/-- If the request is refused, the table is as before, and so is whatever is sent later. -/
def RefusalHarmless (cm : Instance) (answers : Answers) (pHandle : Int) (req : DataGet) : Prop :=
  (cm.comManagerGetDataRequest answers pHandle req).2.1 = -1 →
    (cm.comManagerGetDataRequest answers pHandle req).1.broadcastMessages = cm.broadcastMessages ∧
      ∀ operations,
        (run Instance.operate (cm.comManagerGetDataRequest answers pHandle req).1 operations).2 =
          (run Instance.operate cm operations).2

/-- The slot that the request is given holds its packet already, for the same port. -/
def Instance.HoldsAlready (cm : Instance) (pHandle : Int) (effective : DataGet) : Prop :=
  (cm.broadcastMessages (cm.slotFor pHandle effective)).pHandle = pHandle ∧
    (cm.broadcastMessages (cm.slotFor pHandle effective)).pkt = cm.packetFor effective

section Refused

variable {cm : Instance} {answers : Answers} {pHandle : Int} {req effective : DataGet}

private theorem refused_iff (taken : cm.answered answers req = some effective) :
    (cm.comManagerGetDataRequest answers pHandle req).2.1 = -1 ↔ req.id = didReferenceImu := by
  rw [Instance.getDataRequest_of_some taken, ← (Instance.answered_id taken).1]
  unfold Instance.answerRequest
  dsimp only
  split
  case isTrue imu => exact iff_of_true rfl imu
  case isFalse other =>
    refine iff_of_false ?_ other
    split
    · nofun
    · split <;> nofun

private theorem refused_table (taken : cm.answered answers req = some effective)
    (imu : req.id = didReferenceImu) :
    (cm.comManagerGetDataRequest answers pHandle req).1 =
      cm.setMsg (cm.slotFor pHandle effective)
        { cm.broadcastMessages (cm.slotFor pHandle effective) with
          pHandle, pkt := cm.packetFor effective } := by
  rw [Instance.getDataRequest_of_some taken]
  unfold Instance.answerRequest
  dsimp only
  rw [if_pos ((Instance.answered_id taken).1.trans imu)]

private theorem setMsg_own (cm : Instance) (k : Fin maxNumBcastMsgs) :
    cm.setMsg k (cm.broadcastMessages k) = cm := by
  unfold Instance.setMsg
  rw [Function.update_eq_self]

/-- Exactly when a refused request changes nothing. -/
theorem refusal_harmless_iff : RefusalHarmless cm answers pHandle req ↔
    (req.id = didReferenceImu →
      ∀ effective ∈ cm.answered answers req, cm.HoldsAlready pHandle effective) := by
  cases taken : cm.answered answers req with
  | none =>
    refine iff_of_true (fun _ => ?_) fun _ effective none => ?_
    · rw [(Instance.getDataRequest_of_none taken).1]
      exact ⟨rfl, fun _ => rfl⟩
    · cases none
  | some effective =>
    constructor
    · intro harmless imu other same
      obtain rfl := Option.some.inj same
      obtain ⟨table, -⟩ := harmless ((refused_iff taken).mpr imu)
      rw [refused_table taken imu] at table
      have slot := congrFun table (cm.slotFor pHandle effective)
      rw [Instance.setMsg_same] at slot
      exact ⟨(congrArg BroadcastMsg.pHandle slot).symm, (congrArg BroadcastMsg.pkt slot).symm⟩
    · intro already refused
      have imu := (refused_iff taken).mp refused
      obtain ⟨port, pkt⟩ := already imu effective rfl
      have unchanged (msg : BroadcastMsg) (port : msg.pHandle = pHandle)
          (pkt : msg.pkt = cm.packetFor effective) :
          { msg with pHandle, pkt := cm.packetFor effective } = msg := by
        rw [← port, ← pkt]
      rw [refused_table taken imu, unchanged _ port pkt, setMsg_own]
      exact ⟨rfl, fun _ => rfl⟩

end Refused

/-- Every slot broadcasts a data set to port 0. -/
def allBroadcast : Instance :=
  (run Instance.operate (initComManager true false 1 eightBytes)
    ((List.range 12).map fun k => .getData (spaceFor 100) 0 ⟨UInt16.ofNat (k + 1), 0, 0, 10⟩)).1

/-- A refused request of port 1 takes the last stream from port 0. -/
theorem refusal_evicts :
    ¬RefusalHarmless allBroadcast (spaceFor 100) 1 ⟨didReferenceImu, 0, 0, 10⟩ := by
  intro harmless
  obtain ⟨table, -⟩ := harmless (by decide +kernel)
  have port := congrArg BroadcastMsg.pHandle (congrFun table (Fin.last 11))
  exact absurd port (by decide +kernel)

end InertialSense.ComManager
