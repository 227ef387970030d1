import InertialSense.ComManager.Broadcast

/-! A single request that finds no space is answered by a later step. Its reply waits in a
slot with the period -1, which the search for an available slot takes for free. -/

namespace InertialSense.ComManager

open Foundation

namespace Instance

variable (port : Int) (pkt : Packet)

/-- The packet is in the slot, to be sent on the port. -/
def WaitsIn (cm : Instance) (k : Fin maxNumBcastMsgs) : Prop :=
  (cm.broadcastMessages k).pHandle = port ∧ (cm.broadcastMessages k).pkt = pkt ∧
    (cm.broadcastMessages k).period ≠ msgPeriodDisabled

instance (cm : Instance) (k : Fin maxNumBcastMsgs) : Decidable (cm.WaitsIn port pkt k) :=
  inferInstanceAs (Decidable (_ ∧ _ ∧ _))

/-- A slot is not in use. -/
def HasRoom (cm : Instance) : Prop := ∃ k, (cm.broadcastMessages k).period = msgPeriodDisabled

instance : DecidablePred HasRoom := fun _ => inferInstanceAs (Decidable (∃ _, _))

/-- The slot is the first one that matches the request, or none matches and it is the first
one that is disabled or waits to be sent once. -/
def IsGiven (cm : Instance) (pHandle : Int) (req : DataGet) (k : Fin maxNumBcastMsgs) : Prop :=
  MatchesRequest pHandle req (cm.broadcastMessages k) ∧
      (∀ j < k, ¬MatchesRequest pHandle req (cm.broadcastMessages j)) ∨
    (∀ j, ¬MatchesRequest pHandle req (cm.broadcastMessages j)) ∧
      (cm.broadcastMessages k).period ≤ 0 ∧ ∀ j < k, 0 < (cm.broadcastMessages j).period

instance (cm : Instance) (pHandle : Int) (req : DataGet) (k : Fin maxNumBcastMsgs) :
    Decidable (cm.IsGiven pHandle req k) :=
  inferInstanceAs (Decidable (_ ∧ _ ∨ _ ∧ _ ∧ _))

/-- A request that is not answered at once and leaves its slot disabled: a single one that
`preTxFnc` holds back, or one for a period shorter than the step period. -/
def Drops (cm : Instance) (answers : Answers) (pHandle : Int) (req : DataGet)
    (k : Fin maxNumBcastMsgs) : Prop :=
  (cm.fits answers k pHandle (cm.packetFor req) && cm.sendData answers k req.id pHandle) = false ∧
    (0 < limitPeriod req.period ∧ (limitPeriod req.period).tdiv cm.stepPeriodMilliseconds = 0 ∨
      ¬0 < limitPeriod req.period ∧ cm.fits answers k pHandle (cm.packetFor req) = true)

instance (cm : Instance) (answers : Answers) (pHandle : Int) (req : DataGet)
    (k : Fin maxNumBcastMsgs) : Decidable (cm.Drops answers pHandle req k) :=
  inferInstanceAs (Decidable (_ ∧ (_ ∧ _ ∨ _ ∧ _)))

/-- The operation gives no slot in which the packet waits to a request for another one, nor
to one for the same that drops it. -/
def Spares (cm : Instance) : Operation → Prop
  | .getData answers pHandle req =>
    ∀ effective ∈ cm.answered answers req, ∀ k, cm.WaitsIn port pkt k →
      cm.IsGiven pHandle effective k →
      pHandle = port ∧ cm.packetFor effective = pkt ∧ ¬cm.Drops answers pHandle effective k
  | .stepTx _ | .stop _ _ => True

instance (cm : Instance) (operation : Operation) : Decidable (cm.Spares port pkt operation) :=
  match operation with
  | .getData _ _ _ => inferInstanceAs (Decidable (∀ effective ∈ _, ∀ _, _ → _ → _))
  | .stepTx _ | .stop _ _ => isTrue trivial

def stops : Operation → Bool
  | .stop pHandle command => command.covers pHandle port pkt.id.toUInt16
  | .getData _ _ _ | .stepTx _ => false

/-- The packet is in the table. -/
def Waits (cm : Instance) : Prop := ∃ k, cm.WaitsIn port pkt k

instance : DecidablePred (Waits port pkt) := fun _ => inferInstanceAs (Decidable (∃ _, _))

variable {port : Int} {pkt : Packet} {cm : Instance} {answers : Answers} {pHandle : Int}
  {req : DataGet} {k : Fin maxNumBcastMsgs}

/-- While there is room, no slot is overwritten by force. -/
theorem isGiven_slotFor (room : cm.HasRoom) : cm.IsGiven pHandle req (cm.slotFor pHandle req) := by
  rcases cm.slotFor_cases pHandle req with first | ⟨nowhere, given⟩
  · exact .inl first
  · obtain ⟨free, disabled⟩ := room
    rw [given]
    cases search : cm.availableSlot with
    | none =>
      have used := of_decide_eq_false (Fin.find?_eq_none_iff.mp search free)
      exact absurd (Int.le_of_eq disabled) used
    | some k =>
      obtain ⟨here, before⟩ := Fin.find?_eq_some_iff.mp search
      refine .inr ⟨nowhere, of_decide_eq_true here, fun j earlier => ?_⟩
      exact Int.not_le.mp (of_decide_eq_false (before j earlier))

private theorem answer_elsewhere (waits : cm.WaitsIn port pkt k)
    (other : k ≠ cm.slotFor pHandle req) :
    (cm.answerRequest answers pHandle req).1.WaitsIn port pkt k := by
  obtain ⟨counter, period, table⟩ := cm.answerRequest_table answers pHandle req
  rw [table]
  unfold WaitsIn
  rwa [setMsg_other other]

/-- A request for the packet that waits sends it or leaves it in its slot. -/
private theorem answer_same
    (used : (cm.broadcastMessages (cm.slotFor pHandle req)).period ≠ msgPeriodDisabled)
    (keeps : ¬cm.Drops answers pHandle req (cm.slotFor pHandle req)) :
    .data pHandle (cm.packetFor req) ∈ (cm.answerRequest answers pHandle req).2.2 ∨
      (cm.answerRequest answers pHandle req).1.WaitsIn pHandle (cm.packetFor req)
        (cm.slotFor pHandle req) := by
  have waits {counter period : Int} (some : period ≠ msgPeriodDisabled) :
      (cm.setMsg (cm.slotFor pHandle req)
        { pkt := cm.packetFor req, counter, period, pHandle }).WaitsIn pHandle (cm.packetFor req)
          (cm.slotFor pHandle req) := by
    unfold WaitsIn
    rw [setMsg_same]
    exact ⟨rfl, rfl, some⟩
  unfold answerRequest
  dsimp only
  split
  case isTrue => exact .inr (waits used)
  case isFalse =>
    by_cases sent : (cm.fits answers (cm.slotFor pHandle req) pHandle (cm.packetFor req) &&
        cm.sendData answers (cm.slotFor pHandle req) req.id pHandle) = true
    · have fits := (Bool.and_eq_true_iff.mp sent).1
      rw [if_pos sent, if_pos fits]
      split
      · exact .inl (List.mem_singleton.mpr rfl)
      · exact .inl (List.mem_singleton.mpr rfl)
    · have kept := fun dropped => keeps ⟨by simpa using sent, dropped⟩
      split
      case isTrue positive =>
        refine .inr (waits ?_)
        rw [if_pos positive]
        exact fun zero => kept (.inl ⟨positive, zero⟩)
      case isFalse once =>
        have full : ¬cm.fits answers (cm.slotFor pHandle req) pHandle (cm.packetFor req) = true :=
          fun fits => kept (.inr ⟨once, fits⟩)
        rw [if_neg full]
        refine .inr (waits ?_)
        rw [if_neg once]
        decide

/-- A step sends a packet that is to be sent once when it gets to it, and leaves the others. -/
private theorem stepTx_waits (waits : cm.WaitsIn port pkt k) :
    .data port pkt ∈ (cm.stepComManagerSendMessages answers).2 ∨
      (cm.stepComManagerSendMessages answers).1.WaitsIn port pkt k := by
  obtain ⟨rfl, rfl, used⟩ := waits
  by_cases there : k ∈ cm.reached answers
  · by_cases once : (cm.broadcastMessages k).period = msgPeriodSendOnce
    · left
      rw [stepTx_sent]
      refine List.mem_flatMap.mpr ⟨k, there, ?_⟩
      unfold stepMsg
      rw [if_pos once]
      exact List.mem_singleton.mpr rfl
    · right
      unfold WaitsIn
      rw [stepTx_table, if_pos there]
      obtain ⟨kept, port, -⟩ := cm.stepMsg_frame answers k (cm.broadcastMessages k)
      refine ⟨port, kept, ?_⟩
      unfold stepMsg
      rw [if_neg once]
      split
      · split <;> exact used
      · exact used
  · right
    unfold WaitsIn
    rw [stepTx_table, if_neg there]
    exact ⟨rfl, rfl, used⟩

/-- While there is room, an operation that spares the packet and does not stop it sends it, or
leaves it in the table. -/
theorem operate_waits {operation : Operation} (waits : cm.Waits port pkt) (room : cm.HasRoom)
    (goes : stops port pkt operation = false) (spares : cm.Spares port pkt operation) :
    .data port pkt ∈ (cm.operate operation).2 ∨ (cm.operate operation).1.Waits port pkt := by
  obtain ⟨k, waits⟩ := waits
  cases operation with
  | getData answers pHandle req =>
    show .data port pkt ∈ (cm.processGetData answers pHandle req).2 ∨
      (cm.comManagerGetDataRequest answers pHandle req).1.Waits port pkt
    unfold processGetData
    rw [List.mem_append]
    cases taken : cm.answered answers req with
    | none =>
      rw [(getDataRequest_of_none taken).1]
      exact .inr ⟨k, waits⟩
    | some effective =>
      rw [getDataRequest_of_some taken]
      by_cases own : k = cm.slotFor pHandle effective
      · subst own
        obtain ⟨rfl, rfl, keeps⟩ := spares effective taken _ waits (isGiven_slotFor room)
        rcases answer_same waits.2.2 keeps with sent | left
        · exact .inl (.inl sent)
        · exact .inr ⟨_, left⟩
      · exact .inr ⟨k, answer_elsewhere waits own⟩
  | stepTx answers =>
    rcases stepTx_waits waits with sent | left
    · exact .inl sent
    · exact .inr ⟨k, left⟩
  | stop pHandle command =>
    refine .inr ⟨k, ?_⟩
    show (cm.processStop pHandle command).1.WaitsIn port pkt k
    obtain ⟨rfl, rfl, used⟩ := waits
    unfold WaitsIn
    have other : ¬command.coversMsg pHandle (cm.broadcastMessages k) = true := by
      simpa [StopCommand.coversMsg, stops] using goes
    rw [processStop_table, disableWhere_table, if_neg other]
    exact ⟨rfl, rfl, used⟩

theorem run_waits {operations : List Operation} (waits : cm.Waits port pkt)
    (guarded : Along operate (fun cm operation =>
      (cm.HasRoom ∧ stops port pkt operation = false) ∧ cm.Spares port pkt operation)
      cm operations) :
    .data port pkt ∈ (run operate cm operations).2.flatten ∨
      (run operate cm operations).1.Waits port pkt := by
  induction operations generalizing cm with
  | nil => exact .inr waits
  | cons operation rest ih =>
    obtain ⟨⟨⟨room, goes⟩, spares⟩, later⟩ := guarded
    rw [run_cons, List.flatten_cons, List.mem_append]
    rcases operate_waits waits room goes spares with sent | left
    · exact .inl (.inl sent)
    · rcases ih left later with sent | left
      · exact .inl (.inr sent)
      · exact .inr left

/-- A single request is accepted, but there is no space for its reply. -/
structure Defers (cm : Instance) (answers : Answers) (pHandle : Int) (req effective : DataGet) :
    Prop where
  taken : cm.answered answers req = some effective
  single : req.period = 0
  ordinary : req.id ≠ didReferenceImu
  full : cm.fits answers (cm.slotFor pHandle effective) pHandle (cm.packetFor effective) = false

theorem Defers.waits {effective : DataGet} (defers : cm.Defers answers pHandle req effective) :
    (cm.operate (.getData answers pHandle req)).1.Waits pHandle (cm.packetFor effective) := by
  obtain ⟨taken, single, ordinary, full⟩ := defers
  obtain ⟨id, period, -⟩ := answered_id taken
  have once : ¬0 < limitPeriod effective.period := by
    rw [period, single]
    decide
  refine ⟨cm.slotFor pHandle effective, ?_⟩
  show (cm.comManagerGetDataRequest answers pHandle req).1.WaitsIn _ _ _
  rw [getDataRequest_of_some taken]
  unfold answerRequest WaitsIn
  dsimp only
  rw [if_neg (by rwa [id]), if_neg once, if_neg (by simp [full]), setMsg_same]
  unfold enableBroadcastMsg
  rw [if_neg once]
  refine ⟨rfl, rfl, ?_⟩
  show msgPeriodSendOnce ≠ msgPeriodDisabled
  decide

end Instance

/-- While there is room and no stop command covers it, a deferred reply is sent or is still in
the table, in every run whose requests spare it. -/
theorem deferred_reply_kept {cm : Instance} {answers : Answers} {pHandle : Int}
    {req effective : DataGet} (defers : cm.Defers answers pHandle req effective)
    {operations : List Operation}
    (room : Along Instance.operate
      (fun cm operation => cm.HasRoom ∧
        Instance.stops pHandle (cm.packetFor effective) operation = false)
      (cm.operate (.getData answers pHandle req)).1 operations)
    (spared : Along Instance.operate (Instance.Spares pHandle (cm.packetFor effective))
      (cm.operate (.getData answers pHandle req)).1 operations) :
    .data pHandle (cm.packetFor effective) ∈
        (run Instance.operate (cm.operate (.getData answers pHandle req)).1 operations).2.flatten ∨
      (run Instance.operate (cm.operate (.getData answers pHandle req)).1 operations).1.Waits
        pHandle (cm.packetFor effective) :=
  Instance.run_waits defers.waits (room.and spared)

/-- Port 1 receives a data set from the first slot. -/
def firstTaken : Instance :=
  ((initComManager true false 1 eightBytes).operate
    (.getData (spaceFor 100) 1 ⟨5, 0, 0, 10⟩)).1

/-- A step without space, and port 1 asks for another data set after it has stopped the
first. -/
def sparing : List Operation :=
  [.stepTx (spaceFor 4), .stop 1 .broadcastsCurrentPort, .getData (spaceFor 100) 1 ⟨6, 0, 0, 10⟩]

private theorem firstTaken_defers :
    firstTaken.Defers (spaceFor 4) 0 ⟨4, 0, 0, 0⟩ ⟨4, 8, 0, 0⟩ :=
  ⟨by decide +kernel, by decide, by decide, by decide +kernel⟩

theorem deferred_reply_kept_sparing :
    (run Instance.operate (firstTaken.operate (.getData (spaceFor 4) 0 ⟨4, 0, 0, 0⟩)).1 sparing).1
      |>.Waits 0 (firstTaken.packetFor ⟨4, 8, 0, 0⟩) := by
  rcases @deferred_reply_kept _ _ _ _ _ firstTaken_defers sparing (by decide +kernel)
    (by decide +kernel) with sent | waits
  · exact absurd sent (by decide +kernel)
  · exact waits

/-- Nothing is requested before. -/
def untouched : Instance := initComManager true false 1 eightBytes

/-- A request of another port takes the slot of the reply, and the step does not send it. -/
theorem deferred_reply_overwritten :
    let overwriting : List Operation :=
      [.getData (spaceFor 100) 1 ⟨5, 0, 0, 0⟩, .stepTx (spaceFor 100)]
    let deferred := (untouched.operate (.getData (spaceFor 4) 0 ⟨4, 0, 0, 0⟩)).1
    let pkt := untouched.packetFor ⟨4, 8, 0, 0⟩
    untouched.Defers (spaceFor 4) 0 ⟨4, 0, 0, 0⟩ ⟨4, 8, 0, 0⟩ ∧
      Along Instance.operate (fun cm operation => cm.HasRoom ∧
        Instance.stops 0 pkt operation = false) deferred overwriting ∧
      .data 0 pkt ∉ (run Instance.operate deferred overwriting).2.flatten ∧
      ¬(run Instance.operate deferred overwriting).1.Waits 0 pkt :=
  ⟨⟨by decide +kernel, by decide, by decide, by decide +kernel⟩, by decide +kernel,
    by decide +kernel, by decide +kernel⟩

end InertialSense.ComManager
