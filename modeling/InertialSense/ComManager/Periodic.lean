import InertialSense.ComManager.Broadcast

/-! Requests for a period: whether the slot is active afterwards, and how soon its packet is
sent. -/

namespace InertialSense.ComManager

open Foundation

/-- A step of `stepComManagerSendMessagesInstance`. -/
def Operation.isStepTx : Operation → Bool
  | .stepTx _ => true
  | .getData .. | .stop .. => false

namespace Instance

/-- The slot is not given to a request, and no stop command covers it. -/
def Undisturbed (k : Fin maxNumBcastMsgs) (cm : Instance) : Operation → Prop
  | .getData answers pHandle req =>
    ∀ effective ∈ cm.answered answers req, cm.slotFor pHandle effective ≠ k
  | .stepTx _ => True
  | .stop pHandle command => command.coversMsg pHandle (cm.broadcastMessages k) = false

/-- A step finds enough space on all ports, and `preTxFnc`, if there is one, lets the data of the
slot be sent. -/
def Unhindered (k : Fin maxNumBcastMsgs) (cm : Instance) : Operation → Prop
  | .stepTx answers =>
    (∀ j, cm.blocked answers j (cm.broadcastMessages j) = false) ∧
      cm.sendData answers k (cm.broadcastMessages k).pkt.id.toUInt16
        (cm.broadcastMessages k).pHandle = true
  | .getData .. | .stop .. => True

/-- The slot is active, and while it is undisturbed, its packet is sent in any so many steps that
are unhindered. -/
structure Broadcasts (cm : Instance) (k : Fin maxNumBcastMsgs) (port : Int) (pkt : Packet)
    (count : Int) : Prop where
  active : 0 < (cm.broadcastMessages k).period
  sends : ∀ before within, Along operate (Undisturbed k) cm (before ++ within) →
    Along operate (Unhindered k) (run operate cm before).1 within →
      count ≤ within.countP Operation.isStepTx →
        ∃ first answers rest, within = first ++ .stepTx answers :: rest ∧
          .data port pkt ∈ ((run operate cm (before ++ first)).1.operate (.stepTx answers)).2

/-- The slot sends a packet to a port with this period. -/
def Streams (k : Fin maxNumBcastMsgs) (port : Int) (pkt : Packet) (period : Int)
    (cm : Instance) : Prop :=
  ∃ counter, cm.broadcastMessages k = ⟨pkt, counter, period, port⟩ ∧ -1 ≤ counter ∧ counter < period

variable {cm : Instance} {k : Fin maxNumBcastMsgs} {port : Int} {pkt : Packet}
  {period counter : Int} {answers : Answers} {operation : Operation}

private theorem undisturbed_slot (undisturbed : cm.Undisturbed k operation)
    (other : operation.isStepTx = false) :
    (cm.operate operation).1.broadcastMessages k = cm.broadcastMessages k := by
  cases operation with
  | getData answers pHandle req =>
    refine getDataRequest_rule (P := fun after => after.broadcastMessages k = cm.broadcastMessages k)
      rfl fun effective counter period taken => ?_
    exact setMsg_other (undisturbed effective taken).symm
  | stepTx answers => cases other
  | stop pHandle command =>
    show (cm.processStop pHandle command).1.broadcastMessages k = _
    rw [processStop_table, disableWhere_table, if_neg]
    rw [undisturbed]
    nofun

private theorem stepMsg_periodic (cm : Instance) (answers : Answers) (k : Fin maxNumBcastMsgs)
    (positive : 0 < period) :
    cm.stepMsg answers k ⟨pkt, counter, period, port⟩ =
      if period ≤ counter + 1 then
        (⟨pkt, 0, period, port⟩,
          if didCount ≤ pkt.id.toNat || cm.sendData answers k pkt.id.toUInt16 port then
            [.data port pkt]
          else [])
      else (⟨pkt, counter + 1, period, port⟩, []) := by
  have several : period ≠ msgPeriodSendOnce := by
    unfold msgPeriodSendOnce
    omega
  unfold Instance.stepMsg
  rw [if_neg several, if_pos positive]

theorem Streams.operate (streams : Streams k port pkt period cm) (positive : 0 < period)
    (undisturbed : cm.Undisturbed k operation) :
    Streams k port pkt period (cm.operate operation).1 := by
  obtain ⟨counter, slot, started, counting⟩ := streams
  cases step : operation.isStepTx with
  | false => exact ⟨counter, (undisturbed_slot undisturbed step).trans slot, started, counting⟩
  | true =>
    cases operation with
    | getData => cases step
    | stop => cases step
    | stepTx answers =>
      have after := cm.stepTx_table answers k
      rw [slot, stepMsg_periodic cm answers k positive] at after
      split at after
      · split at after
        · exact ⟨0, after, by decide, positive⟩
        case isFalse less => exact ⟨counter + 1, after, by omega, Int.not_le.mp less⟩
      · exact ⟨counter, after, started, counting⟩

private theorem stepTx_unhindered (slot : cm.broadcastMessages k = ⟨pkt, counter, period, port⟩)
    (positive : 0 < period) (unhindered : cm.Unhindered k (.stepTx answers)) :
    .data port pkt ∈ (cm.operate (.stepTx answers)).2 ∨ counter + 1 < period ∧
      (cm.operate (.stepTx answers)).1.broadcastMessages k = ⟨pkt, counter + 1, period, port⟩ := by
  obtain ⟨space, lets⟩ := unhindered
  have there : k ∈ cm.reached answers := mem_reached.mpr fun j _ => space j
  have visited : cm.stepMsg answers k ⟨pkt, counter, period, port⟩ = _ :=
    stepMsg_periodic cm answers k positive
  rcases Int.lt_or_le (counter + 1) period with less | due
  · right
    rw [if_neg (Int.not_le.mpr less)] at visited
    refine ⟨less, (cm.stepTx_table answers k).trans ?_⟩
    rw [if_pos there, slot, visited]
  · left
    rw [if_pos due] at visited
    show _ ∈ (cm.stepComManagerSendMessages answers).2
    rw [stepTx_sent]
    refine List.mem_flatMap.mpr ⟨k, there, ?_⟩
    rw [slot] at lets
    rw [slot, visited]
    show _ ∈ (if _ then _ else _)
    rw [if_pos (by rw [lets, Bool.or_true])]
    exact List.mem_singleton.mpr rfl

/-- As many steps as are left of the period send the packet. -/
private theorem sends_within (positive : 0 < period) (within : List Operation)
    (slot : cm.broadcastMessages k = ⟨pkt, counter, period, port⟩) (counting : counter < period)
    (undisturbed : Along Instance.operate (Undisturbed k) cm within)
    (unhindered : Along Instance.operate (Unhindered k) cm within)
    (enough : period ≤ counter + within.countP Operation.isStepTx) :
    ∃ first answers rest, within = first ++ .stepTx answers :: rest ∧
      .data port pkt ∈ ((run Instance.operate cm first).1.operate (.stepTx answers)).2 := by
  induction within generalizing cm counter with
  | nil =>
    rw [List.countP_nil] at enough
    omega
  | cons operation within ih =>
    have onwards {counter : Int}
        (slot : (cm.operate operation).1.broadcastMessages k = ⟨pkt, counter, period, port⟩)
        (counting : counter < period)
        (enough : period ≤ counter + within.countP Operation.isStepTx) :
        ∃ first answers rest, operation :: within = first ++ .stepTx answers :: rest ∧
          .data port pkt ∈ ((run Instance.operate cm first).1.operate (.stepTx answers)).2 := by
      obtain ⟨first, answers, rest, rfl, sent⟩ :=
        ih slot counting undisturbed.2 unhindered.2 enough
      exact ⟨operation :: first, answers, rest, rfl, sent⟩
    cases step : operation.isStepTx with
    | false =>
      rw [List.countP_cons_of_neg (by rw [step]; nofun)] at enough
      exact onwards ((undisturbed_slot undisturbed.1 step).trans slot) counting enough
    | true =>
      rw [List.countP_cons_of_pos step] at enough
      cases operation with
      | getData => cases step
      | stop => cases step
      | stepTx answers =>
        rcases stepTx_unhindered slot positive unhindered.1 with sent | ⟨less, after⟩
        · exact ⟨[], answers, within, rfl, sent⟩
        · exact onwards after less (by omega)

variable {pHandle : Int} {req effective : DataGet}

theorem limitPeriod_pos {period : UInt16} (periodic : period ≠ 0) : 0 < limitPeriod period := by
  have some : period.toNat ≠ 0 := fun zero => periodic (UInt16.toNat_inj.mp zero)
  unfold limitPeriod
  rw [if_neg periodic]
  split <;> omega

private theorem accepted_slot (taken : cm.answered answers req = some effective)
    (accepted : (cm.comManagerGetDataRequest answers pHandle req).2.1 = 0)
    (periodic : req.period ≠ 0) :
    (cm.operate (.getData answers pHandle req)).1.broadcastMessages (cm.slotFor pHandle effective) =
      ⟨cm.packetFor effective, -1, (limitPeriod req.period).tdiv cm.stepPeriodMilliseconds,
        pHandle⟩ := by
  have positive : 0 < limitPeriod effective.period := by
    rw [(answered_id taken).2.1]
    exact limitPeriod_pos periodic
  show (cm.comManagerGetDataRequest answers pHandle req).1.broadcastMessages _ = _
  rw [getDataRequest_of_some taken] at accepted ⊢
  unfold answerRequest at accepted ⊢
  dsimp only at accepted ⊢
  split at accepted
  case isTrue => cases accepted
  case isFalse ordinary =>
    rw [if_neg ordinary, if_pos positive, setMsg_same]
    unfold enableBroadcastMsg
    rw [if_pos positive, (answered_id taken).2.1]

end Instance

/-- Exactly when an accepted request for a period broadcasts. -/
theorem periodic_broadcasts_iff {cm : Instance} {answers : Answers} {pHandle : Int}
    {req effective : DataGet} (stepping : 1 ≤ cm.stepPeriodMilliseconds)
    (taken : cm.answered answers req = some effective)
    (accepted : (cm.comManagerGetDataRequest answers pHandle req).2.1 = 0)
    (periodic : req.period ≠ 0) :
    (cm.operate (.getData answers pHandle req)).1.Broadcasts (cm.slotFor pHandle effective) pHandle
        (cm.packetFor effective)
        ((Instance.limitPeriod req.period + cm.stepPeriodMilliseconds - 1) /
          cm.stepPeriodMilliseconds + 2) ↔
      cm.stepPeriodMilliseconds ≤ Instance.limitPeriod req.period := by
  have slot := Instance.accepted_slot taken accepted periodic
  have nonneg := Int.le_of_lt (Instance.limitPeriod_pos periodic)
  generalize (cm.operate (.getData answers pHandle req)).1 = after at slot ⊢
  generalize cm.slotFor pHandle effective = k at slot ⊢
  generalize Instance.limitPeriod req.period = period at *
  generalize cm.stepPeriodMilliseconds = stepPeriod at *
  constructor
  · intro broadcasts
    have active := broadcasts.active
    rw [slot] at active
    by_contra shorter
    -- the quotient is 0, which stands for a slot that is disabled
    rw [Int.tdiv_eq_zero_of_lt nonneg (Int.not_le.mp shorter)] at active
    exact absurd active (Int.lt_irrefl 0)
  · intro longer
    have floor : period.tdiv stepPeriod = period / stepPeriod := Int.tdiv_eq_ediv_of_nonneg nonneg
    have positive : 0 < period.tdiv stepPeriod := by
      rw [floor]
      exact Int.le_ediv_of_mul_le stepping (by omega)
    refine ⟨by rw [slot]; exact positive, fun before within undisturbed unhindered enough => ?_⟩
    obtain ⟨early, late⟩ := Along.append.mp undisturbed
    have streams : Instance.Streams k pHandle (cm.packetFor effective) _
        (run Instance.operate after before).1 :=
      run_invariant (fun _ _ streams undisturbed => streams.operate positive undisturbed)
        ⟨-1, slot, by decide, by omega⟩ early
    obtain ⟨counter, slot', started, counting⟩ := streams
    have most : period.tdiv stepPeriod ≤ (period + stepPeriod - 1) / stepPeriod := by
      rw [floor]
      exact Int.ediv_le_ediv stepping (by omega)
    obtain ⟨first, answers, rest, rfl, sent⟩ :=
      Instance.sends_within positive within slot' counting late unhindered (by omega)
    refine ⟨first, answers, rest, rfl, ?_⟩
    rw [run_append]
    exact sent

/-- Every 25 ms, with steps of 10 ms. -/
theorem periodic_broadcasts_longer :
    ((initComManager true false 10 eightBytes).operate
      (.getData (spaceFor 100) 1 ⟨4, 0, 0, 25⟩)).1.Broadcasts 0 1
      ((initComManager true false 10 eightBytes).packetFor ⟨4, 8, 0, 25⟩) 5 :=
  (periodic_broadcasts_iff (by decide) (by decide +kernel) (by decide +kernel) (by decide)).mpr
    (by decide)

/-- A request for 5 ms, with steps of 10 ms, is accepted and leaves its slot disabled. -/
theorem periodic_disabled :
    ((initComManager true false 10 eightBytes).comManagerGetDataRequest (spaceFor 100) 1
      ⟨4, 0, 0, 5⟩).2.1 = 0 ∧
    ¬((initComManager true false 10 eightBytes).operate
      (.getData (spaceFor 100) 1 ⟨4, 0, 0, 5⟩)).1.Broadcasts 0 1
      ((initComManager true false 10 eightBytes).packetFor ⟨4, 8, 0, 5⟩) 3 :=
  ⟨by decide +kernel, fun broadcasts => absurd broadcasts.active (by decide +kernel)⟩

end InertialSense.ComManager
