import InertialSense.FirmwareUpdate.Closing

/-! When a device writes only in a session that it accepted. It stores the id of every
request, also of a refused one, and compares nothing but ids when a chunk arrives. -/

namespace InertialSense.FirmwareUpdate

open Foundation

def Effect.answer? : Effect → Option UpdateStatus
  | .send { message := .updateResp _ _ status, .. } => some status
  | _ => none

/-- The answer to the most recent request. -/
def noteAnswer (answer : Option UpdateStatus) (_ : Device) (_ : Answers × Payload)
    (effects : List Effect) : Option UpdateStatus :=
  (effects.filterMap Effect.answer?).getLast?.or answer

def lastAnswer (d : Device) (inputs : List (Answers × Payload)) : Option UpdateStatus :=
  noted Device.step noteAnswer none d inputs

/-- After `inputs`, the message `input` leads to a write only if the device is updating:
the session id is not zero and the most recent request was answered with a positive status. -/
def WritesOnlyUpdating (d : Device) (inputs : List (Answers × Payload))
    (input : Answers × Payload) : Prop :=
  let before := (run Device.step d inputs).1
  (before.step input).2.filterMap Effect.write? ≠ [] →
    before.toSession.isUpdating = true ∧ before.sessionId ≠ 0 ∧
      ∃ status, lastAnswer d inputs = some status ∧ UpdateStatus.value .notStarted < status.value

/-- The device has no accepted session: it never got a request, or the last one carried
the id zero or was refused, and no chunk has been stored since. -/
def Session.Unopened (s : Session) : Prop :=
  s.sessionId = 0 ∨
    (s.lastChunkId = -1 ∧ s.sessionStatus.value ≤ UpdateStatus.value .notStarted)

instance (s : Session) : Decidable s.Unopened := inferInstanceAs (Decidable (_ ∨ _))

/-- No chunk in sequence and of the right size arrives for a session that was not opened, and none
after the last one of the image. -/
def OpenOnly (d : Device) (input : Answers × Payload) : Prop :=
  ∀ chunk, input.2 = ⟨d.sessionTarget, .updateChunk chunk⟩ →
    d.toSession.Awaits chunk → d.toSession.Sized chunk →
    ¬ d.toSession.Unopened ∧ (d.lastChunkId = -1 ∨ ¬ d.toSession.Complete)

private theorem answer_notable (effects : List Effect) :
    effects.filterMap Effect.answer? =
      (effects.filter Effect.notable).filterMap Effect.answer? := by
  apply filterMap_notable
  intro effect unnotable
  cases effect with
  | send payload =>
    obtain ⟨target, message⟩ := payload
    cases message with
    | updateResp => cases unnotable
    | _ => rfl
  | _ => rfl

/-- The most recent request was answered with a positive status. -/
private def Granted (answer : Option UpdateStatus) : Prop :=
  ∃ status, answer = some status ∧ UpdateStatus.value .notStarted < status.value

/-- A session that waits for its first chunk with a positive status was granted, and so
was one with chunks stored and others missing, which has an id and runs. -/
private structure Opened (answer : Option UpdateStatus) (s : Session) : Prop where
  started : -1 ≤ s.lastChunkId
  fresh : s.lastChunkId = -1 → UpdateStatus.value .notStarted < s.sessionStatus.value →
    Granted answer
  running : 0 ≤ s.lastChunkId → ¬ s.Complete →
    s.sessionId ≠ 0 ∧ UpdateStatus.value .notStarted < s.sessionStatus.value ∧ Granted answer

private theorem Opened.updating {answer : Option UpdateStatus} {d : Device}
    (opened : Opened answer d.toSession) {answers : Answers} {payload : Payload}
    (guarded : OpenOnly d (answers, payload)) {chunk : Chunk}
    (addressed : payload = ⟨d.sessionTarget, .updateChunk chunk⟩)
    (awaited : d.toSession.Awaits chunk) (sized : d.toSession.Sized chunk) :
    d.sessionId ≠ 0 ∧ UpdateStatus.value .notStarted < d.sessionStatus.value ∧
      Granted answer := by
  obtain ⟨started, fresh, running⟩ := opened
  obtain ⟨accepted, missing⟩ := guarded chunk addressed awaited sized
  unfold Session.Unopened at accepted
  by_cases first : d.lastChunkId = -1
  · have positive : UpdateStatus.value .notStarted < d.sessionStatus.value :=
      Int.not_le.mp fun refused => accepted (.inr ⟨first, refused⟩)
    exact ⟨fun zero => accepted (.inl zero), positive, fresh first positive⟩
  · exact running (by omega) (missing.resolve_left first)

private theorem step_opened (answer : Option UpdateStatus) (d : Device)
    (input : Answers × Payload) (opened : Opened answer d.toSession)
    (guarded : OpenOnly d input) :
    Opened (noteAnswer answer d input (d.step input).2) (d.step input).1.toSession := by
  obtain ⟨answers, payload⟩ := input
  have moved := d.processMessage_transition answers payload
  unfold noteAnswer
  dsimp only [Device.step]
  rw [answer_notable]
  generalize (d.processMessage answers payload).effects.filter Effect.notable = notable at moved ⊢
  generalize (d.processMessage answers payload).device.toSession = after at moved ⊢
  cases moved with
  | kept => exact opened
  | failed => exact opened
  | requested request addressed =>
    obtain ⟨_, status, _, _, _, last, _⟩ := d.toSession.startSession_fields answers request
    refine ⟨Int.le_of_eq last.symm, fun _ positive => ⟨_, rfl, positive⟩, fun stored => ?_⟩
    rw [last] at stored
    cases stored
  | stored chunk addressed awaited sized written incomplete =>
    obtain ⟨nonzero, _, granted⟩ := opened.updating guarded addressed awaited sized
    have running : UpdateStatus.value .notStarted < UpdateStatus.value .inProgress := by decide
    refine ⟨by simp [Session.storeChunk], fun none => ?_, fun _ _ => ⟨nonzero, running, granted⟩⟩
    simp [Session.storeChunk] at none
  | completed chunk addressed awaited sized written complete =>
    rw [Session.verifyImage_fields]
    refine ⟨by simp [Session.storeChunk], fun none => ?_, fun _ missing => absurd complete missing⟩
    simp [Session.storeChunk] at none

private theorem step_updating {answer : Option UpdateStatus} {d : Device}
    {input : Answers × Payload} (opened : Opened answer d.toSession) (guarded : OpenOnly d input)
    (written : (d.step input).2.filterMap Effect.write? ≠ []) :
    d.toSession.isUpdating = true ∧ d.sessionId ≠ 0 ∧ Granted answer := by
  obtain ⟨answers, payload⟩ := input
  have found (chunk : Chunk) (addressed : payload = ⟨d.sessionTarget, .updateChunk chunk⟩)
      (awaited : d.toSession.Awaits chunk) (sized : d.toSession.Sized chunk) :
      d.toSession.isUpdating = true ∧ d.sessionId ≠ 0 ∧ Granted answer := by
    obtain ⟨nonzero, positive, granted⟩ := opened.updating guarded addressed awaited sized
    exact ⟨decide_eq_true ⟨nonzero, positive⟩, nonzero, granted⟩
  have moved := d.processMessage_transition answers payload
  dsimp only [Device.step] at written
  rw [write_notable] at written
  generalize (d.processMessage answers payload).effects.filter Effect.notable = notable
    at moved written
  generalize (d.processMessage answers payload).device.toSession = after at moved
  cases moved with
  | kept => exact absurd rfl written
  | requested request addressed => exact absurd rfl written
  | failed chunk addressed awaited sized => exact found chunk addressed awaited sized
  | stored chunk addressed awaited sized => exact found chunk addressed awaited sized
  | completed chunk addressed awaited sized => exact found chunk addressed awaited sized

/-- Where no chunk that fits arrives for a session that was not opened, and none after the last one,
the device writes only while it is updating. -/
theorem run_writes_only_updating (target : UInt32) (inputs : List (Answers × Payload))
    (input : Answers × Payload)
    (guarded : Along Device.step OpenOnly (Device.create target) (inputs ++ [input])) :
    WritesOnlyUpdating (Device.create target) inputs input := by
  obtain ⟨earlier, last⟩ := Along.append.mp guarded
  have initial : Opened none (Device.create target).toSession :=
    ⟨Int.le_refl _, fun _ positive => absurd positive (Int.lt_irrefl _),
      fun stored => absurd stored (by simp [Device.create, Session.resetEngine])⟩
  have opened := noted_invariant step_opened initial earlier
  exact step_updating opened last.1

/-- A granted request and both its chunks. -/
theorem run_writes_only_updating_granted :
    WritesOnlyUpdating (Device.create 0x10)
      [sampleRequest 1 2 Md5.initialState, sampleChunk 1 0 7] (sampleChunk 1 1 8) := by
  apply run_writes_only_updating
  refine ⟨?_, ?_, ?_, trivial⟩
  · intro chunk same
    cases same
  · exact fun _ _ _ _ => ⟨by decide +kernel, .inl (by decide +kernel)⟩
  · exact fun _ _ _ _ => ⟨by decide +kernel, .inr (by decide +kernel)⟩

/-- The device refuses the request and writes its chunk. -/
theorem refused_session_written :
    ¬ WritesOnlyUpdating (Device.create 0x10)
      [({ Answers.granting with startUpdate := .errNotAllowed },
        (sampleRequest 1 2 Md5.initialState).2)] (sampleChunk 1 0 7) := by
  intro updating
  obtain ⟨running, _⟩ := updating (by decide +kernel)
  exact absurd running (by decide +kernel)

end InertialSense.FirmwareUpdate
