import InertialSense.FirmwareUpdate.Transition
import InertialSense.Foundation.Run

/-! Which chunks a device accepts after a request: the ids in order from zero, each at
its place in the image, and all of them hashed. -/

namespace InertialSense.FirmwareUpdate

open Foundation

/-- A chunk that was written: its id and the call that wrote it. -/
structure Accepted where
  chunkId : UInt16
  write : ImageWrite

def Effect.acceptedWrite? : Effect → Option ImageWrite
  | .writeImageChunk write =>
    if UpdateStatus.value .notStarted ≤ write.status.value then some write else none
  | _ => none

def acceptedChunk (input : Answers × Payload) (effects : List Effect) : List Accepted :=
  match input.2.message with
  | .updateChunk chunk =>
    (effects.filterMap Effect.acceptedWrite?).map fun write => ⟨chunk.chunkId, write⟩
  | _ => []

/-- The chunks accepted in a run, in order. -/
def acceptedChunks (inputs : List (Answers × Payload)) (effects : List (List Effect)) :
    List Accepted :=
  (List.zipWith acceptedChunk inputs effects).flatten

/-- The hash of the accepted data, not yet finished. -/
def hashed (context : Md5.Context) (accepted : List Accepted) : Md5.Context :=
  (accepted.map fun entry => entry.write.data).foldl Md5.md5Update (Md5.md5Init context)

/-- Every chunk of the image has been received. -/
def Session.Received (s : Session) : Prop := 0 ≤ s.lastChunkId ∧ s.Complete

instance (s : Session) : Decidable s.Received := inferInstanceAs (Decidable (_ ∧ _))

/-- The message is no new request to this device, and the image is still incomplete. -/
def Receiving (d : Device) (input : Answers × Payload) : Prop :=
  ¬ d.toSession.Received ∧ ∀ request, input.2 ≠ ⟨d.sessionTarget, .reqUpdate request⟩

/-- The session a message leaves before `md5_final` is run on it. -/
def beforeFinal (d : Device) (input : Answers × Payload) : Session :=
  match input.2.message, acceptedChunk input (d.step input).2 with
  | .updateChunk chunk, _ :: _ => d.toSession.storeChunk chunk
  | _, _ => (d.step input).1.toSession

/-- The accepted chunks, the sequence number and the hash are in step. -/
structure InStep (chunkSize : UInt16) (context : Md5.Context) (s : Session)
    (accepted : List Accepted) : Prop where
  ids : accepted.map (fun entry => entry.chunkId.toNat) = List.range (s.lastChunkId + 1).toNat
  offsets : ∀ entry ∈ accepted,
    entry.write.offset.toNat = entry.chunkId.toNat * chunkSize.toNat
  hash : s.md5Context = hashed context accepted

/-- What holds of a session that receives: its parameters stand and it is in step. -/
structure Holds (chunkSize : UInt16) (context : Md5.Context) (s : Session)
    (accepted : List Accepted) : Prop where
  size : s.sessionChunkSize = chunkSize
  started : -1 ≤ s.lastChunkId
  short : ∀ entry ∈ accepted, entry.write.data.length < 2 ^ 16
  inStep : InStep chunkSize context s accepted

private theorem acceptedChunk_notable (input : Answers × Payload) (effects : List Effect) :
    acceptedChunk input effects = acceptedChunk input (effects.filter Effect.notable) := by
  have silent (effect : Effect) (unnotable : effect.notable = false) :
      effect.acceptedWrite? = none := by
    cases effect with
    | writeImageChunk write => cases unnotable
    | _ => rfl
  unfold acceptedChunk
  rw [filterMap_notable silent]

private theorem acceptedWrite_of_written (write : ImageWrite) (written : 0 ≤ write.status.value) :
    (Effect.writeImageChunk write).acceptedWrite? = some write := if_pos written

private theorem acceptedWrite_of_refused (write : ImageWrite) (refused : write.status.value < 0) :
    (Effect.writeImageChunk write).acceptedWrite? = none := if_neg (Int.not_le.mpr refused)

private theorem verifyImage_acceptedWrite (s : Session) (answers : Answers) :
    (s.verifyImage answers).2.filterMap Effect.acceptedWrite? = [] := by
  unfold Session.verifyImage
  dsimp only
  split <;> split <;> rfl

/-- `fwUpdate_finishUpdate` is among the effects. -/
def Finishes (effects : List Effect) : Prop :=
  ∃ targetId slotId flags, Effect.finishUpdate targetId slotId flags ∈ effects

private theorem finishes_notable {effects : List Effect} :
    Finishes effects ↔ Finishes (effects.filter Effect.notable) := by
  simp [Finishes, Effect.notable]

private theorem verifyImage_finishes {s : Session} {answers : Answers}
    (finishes : Finishes (s.verifyImage answers).2) :
    (Md5.md5Final s.md5Context).2 = s.sessionMd5 := by
  obtain ⟨targetId, slotId, flags, member⟩ := finishes
  unfold Session.verifyImage Session.sendDone Effect.toHost at member
  dsimp only at member
  split at member
  · split at member <;> simp at member
  · rename_i same
    exact (not_not.mp same).symm

/-- Only a chunk that passes every check is accepted, and it is stored. It finishes the
update only if the hash agrees. -/
theorem step_accepted (d : Device) (input : Answers × Payload)
    (unrequested : ∀ request, input.2 ≠ ⟨d.sessionTarget, .reqUpdate request⟩) :
    (acceptedChunk input (d.step input).2 = [] ∧ (d.step input).1.toSession = d.toSession ∧
      ¬ Finishes (d.step input).2) ∨
      ∃ chunk, input.2 = ⟨d.sessionTarget, .updateChunk chunk⟩ ∧ d.toSession.Awaits chunk ∧
        d.toSession.Sized chunk ∧
        acceptedChunk input (d.step input).2 =
          [⟨chunk.chunkId, d.toSession.imageWrite chunk input.1.writeImageChunk⟩] ∧
        (d.step input).1.toSession =
          (if (d.toSession.storeChunk chunk).Complete
          then ((d.toSession.storeChunk chunk).verifyImage input.1).1
          else d.toSession.storeChunk chunk) ∧
        (Finishes (d.step input).2 →
          (Md5.md5Final (d.toSession.storeChunk chunk).md5Context).2 = d.sessionMd5) := by
  obtain ⟨answers, payload⟩ := input
  have moved := d.processMessage_transition answers payload
  rw [acceptedChunk_notable, finishes_notable]
  dsimp only [Device.step]
  generalize (d.processMessage answers payload).effects.filter Effect.notable = notable at moved
  generalize (d.processMessage answers payload).device.toSession = after at moved
  cases moved with
  | kept =>
    refine .inl ⟨?_, rfl, by simp [Finishes]⟩
    unfold acceptedChunk
    split <;> rfl
  | requested request addressed => exact absurd addressed (unrequested request)
  | failed chunk addressed awaited sized refused =>
    subst addressed
    have none := acceptedWrite_of_refused
      (d.toSession.imageWrite chunk answers.writeImageChunk) refused
    refine .inl ⟨?_, rfl, by simp [Finishes]⟩
    simp [acceptedChunk, none]
  | stored chunk addressed awaited sized written incomplete =>
    subst addressed
    have some := acceptedWrite_of_written
      (d.toSession.imageWrite chunk answers.writeImageChunk) written
    refine .inr ⟨chunk, rfl, awaited, sized, ?_, ?_, by simp [Finishes]⟩
    · simp [acceptedChunk, some]
    · rw [if_neg incomplete]
  | completed chunk addressed awaited sized written complete =>
    subst addressed
    have some := acceptedWrite_of_written
      (d.toSession.imageWrite chunk answers.writeImageChunk) written
    refine .inr ⟨chunk, rfl, awaited, sized, ?_, ?_, fun finishes => ?_⟩
    · simp [acceptedChunk, some, verifyImage_acceptedWrite]
    · rw [if_pos complete]
    · exact verifyImage_finishes (by simpa [Finishes] using finishes)

theorem step_requested_not_finishes (d : Device) (answers : Answers) (request : UpdateRequest) :
    ¬ Finishes (d.step (answers, ⟨d.sessionTarget, .reqUpdate request⟩)).2 := by
  have moved := d.processMessage_transition answers ⟨d.sessionTarget, .reqUpdate request⟩
  rw [finishes_notable]
  dsimp only [Device.step]
  generalize (d.processMessage answers _).effects.filter Effect.notable = notable at moved
  generalize (d.processMessage answers _).device.toSession = after at moved
  cases moved with
  | kept => simp [Finishes]
  | requested => simp [Finishes, Effect.toHost]
  | failed chunk addressed => simp at addressed
  | stored chunk addressed => simp at addressed
  | completed chunk addressed => simp at addressed

private theorem beforeFinal_of_rejected {d : Device} {input : Answers × Payload}
    (rejected : acceptedChunk input (d.step input).2 = []) :
    beforeFinal d input = (d.step input).1.toSession := by
  unfold beforeFinal
  split
  · rename_i found
    rw [rejected] at found
    cases found
  · rfl

private theorem beforeFinal_of_accepted {d : Device} {input : Answers × Payload} {chunk : Chunk}
    {entry : Accepted} (message : input.2.message = .updateChunk chunk)
    (accepted : acceptedChunk input (d.step input).2 = [entry]) :
    beforeFinal d input = d.toSession.storeChunk chunk := by
  simp only [beforeFinal, message, accepted]

/-- An id taken in sequence keeps ids, places and hash in step. -/
theorem Holds.store {s : Session} {accepted : List Accepted}
    (holds : Holds chunkSize context s accepted) (missing : ¬ s.Received) {chunk : Chunk}
    (awaited : s.Awaits chunk) (status : UpdateStatus) :
    Holds chunkSize context (s.storeChunk chunk)
      (accepted ++ [⟨chunk.chunkId, s.imageWrite chunk status⟩]) := by
  obtain ⟨size, started, short, ids, offsets, hash⟩ := holds
  have bounded : s.lastChunkId < 2 ^ 16 - 1 := by
    have total := UInt16.toNat_lt s.sessionTotalChunks
    simp only [Session.Received, Session.Complete] at missing
    omega
  have next := awaited.chunkId_toNat started bounded
  refine ⟨size, by simp [Session.storeChunk], ?_, ?_, ?_, ?_⟩
  · intro entry member
    rcases List.mem_append.mp member with earlier | latest
    · exact short entry earlier
    · obtain rfl := List.mem_singleton.mp latest
      exact chunk.fits
  · have last : (s.lastChunkId + 1).toNat = chunk.chunkId.toNat := by omega
    simp only [List.map_append, ids, last, List.map_cons, List.map_nil, Session.storeChunk]
    exact List.range_succ.symm
  · intro entry member
    rcases List.mem_append.mp member with earlier | latest
    · exact offsets entry earlier
    · obtain rfl := List.mem_singleton.mp latest
      rw [← size]
      exact s.chunkOffset_toNat chunk.chunkId
  · simp only [hashed, List.map_append, List.foldl_append, Session.storeChunk, hash]
    rfl

/-- One message keeps a receiving session in step up to `md5_final`, and that runs
only when the image has been received. -/
theorem step_holds {d : Device} {input : Answers × Payload} {accepted : List Accepted}
    (holds : Holds chunkSize context d.toSession accepted) (receiving : Receiving d input) :
    Holds chunkSize context (beforeFinal d input)
        (accepted ++ acceptedChunk input (d.step input).2) ∧
      (d.step input).1.lastChunkId = (beforeFinal d input).lastChunkId ∧
      (¬ (d.step input).1.toSession.Received →
        (d.step input).1.toSession = beforeFinal d input) := by
  obtain ⟨missing, unrequested⟩ := receiving
  rcases step_accepted d input unrequested with ⟨rejected, same, _⟩ |
      ⟨chunk, addressed, awaited, _, entry, after, _⟩
  · rw [beforeFinal_of_rejected rejected, rejected, List.append_nil, same]
    exact ⟨holds, by rw [← same], fun _ => rfl⟩
  · have message : input.2.message = .updateChunk chunk := by rw [addressed]
    rw [beforeFinal_of_accepted message entry, entry]
    refine ⟨holds.store missing awaited _, ?_, ?_⟩
    · rw [after]
      split
      · rw [Session.verifyImage_fields]
      · rfl
    · intro unfinished
      rw [after] at unfinished ⊢
      split at unfinished
      · rename_i complete
        rw [Session.verifyImage_fields] at unfinished
        exact absurd ⟨by simp [Session.storeChunk], complete⟩ unfinished
      · rename_i incomplete
        rw [if_neg incomplete]

private theorem acceptedChunks_append (d : Device) (inputs : List (Answers × Payload))
    (input : Answers × Payload) :
    acceptedChunks (inputs ++ [input]) (run Device.step d (inputs ++ [input])).2 =
      acceptedChunks inputs (run Device.step d inputs).2 ++
        acceptedChunk input (Device.step (run Device.step d inputs).1 input).2 := by
  rw [run_append]
  simp [acceptedChunks, List.zipWith_append]

theorem startSession_holds (d : Device) (opening : Answers) (request : UpdateRequest) :
    Holds request.chunkSize d.md5Context
      (d.processMessage opening ⟨d.sessionTarget, .reqUpdate request⟩).device.toSession [] := by
  rw [d.processMessage_requested]
  obtain ⟨_, _, _, size, _, last, hash⟩ := d.toSession.startSession_fields opening request
  refine ⟨size, by simp [last], by simp, by simp [last], by simp, ?_⟩
  simpa [hashed] using hash

private theorem run_holds {d : Device} {inputs : List (Answers × Payload)}
    {accepted : List Accepted} (holds : Holds chunkSize context d.toSession accepted)
    (receiving : Along Device.step Receiving d inputs)
    (missing : ¬ (run Device.step d inputs).1.toSession.Received) :
    Holds chunkSize context (run Device.step d inputs).1.toSession
      (accepted ++ acceptedChunks inputs (run Device.step d inputs).2) := by
  induction inputs generalizing d accepted with
  | nil => simpa [acceptedChunks] using holds
  | cons input rest ih =>
    obtain ⟨now, later⟩ := receiving
    obtain ⟨next, _, unfinished⟩ := step_holds holds now
    have pending : ¬ (d.step input).1.toSession.Received := by
      cases rest with
      | nil => exact missing
      | cons => exact later.1.1
    rw [← unfinished pending] at next
    have final := ih next later missing
    simpa [acceptedChunks, List.append_assoc] using final

/-- After a request with a positive chunk size, and up to the chunk that completes the
image: the accepted ids are `0, 1, …, last_chunk_id`, each chunk was written at its place,
the running hash covers exactly the accepted data, and a message that is not accepted
leaves the session as it was. -/
theorem chunks_accepted_in_sequence (d : Device) (opening : Answers) (request : UpdateRequest)
    (positive : 1 ≤ request.chunkSize.toNat) (inputs : List (Answers × Payload))
    (input : Answers × Payload)
    (receiving : Along Device.step Receiving
      (d.processMessage opening ⟨d.sessionTarget, .reqUpdate request⟩).device
      (inputs ++ [input])) :
    let opened := (d.processMessage opening ⟨d.sessionTarget, .reqUpdate request⟩).device
    let before := (run Device.step opened inputs).1
    let after := (before.step input).1
    let accepted := acceptedChunks (inputs ++ [input])
      (run Device.step opened (inputs ++ [input])).2
    InStep request.chunkSize d.md5Context (beforeFinal before input) accepted ∧
      after.lastChunkId = (beforeFinal before input).lastChunkId ∧
      (¬ after.toSession.Received →
        after.md5Context = (beforeFinal before input).md5Context) ∧
      (acceptedChunk input (before.step input).2 = [] →
        after.lastChunkId = before.lastChunkId ∧ after.md5Context = before.md5Context ∧
          after.sessionStatus = before.sessionStatus) ∧
      .remainderByZero ∉ (before.step input).2 := by
  intro opened before after accepted
  have initial : Holds request.chunkSize d.md5Context opened.toSession [] :=
    startSession_holds d opening request
  obtain ⟨earlier, last⟩ := Along.append.mp receiving
  have now : Receiving before input := last.1
  have held := run_holds initial earlier now.1
  rw [List.nil_append] at held
  obtain ⟨holds, sequence, unfinished⟩ := step_holds held now
  rw [← acceptedChunks_append] at holds
  refine ⟨holds.inStep, sequence, fun missing => ?_, fun rejected => ?_, fun trapped => ?_⟩
  · rw [← unfinished missing]
  · rcases step_accepted before input now.2 with ⟨_, same, _⟩ | ⟨_, _, _, _, entry, _⟩
    · exact ⟨congrArg Session.lastChunkId same, congrArg Session.md5Context same,
        congrArg Session.sessionStatus same⟩
    · rw [rejected] at entry
      cases entry
  · obtain ⟨-, -, -, zero⟩ := Device.processMessage_trap_iff.mp trapped
    rw [held.size] at zero
    rw [zero] at positive
    exact absurd positive (by decide)

/-- A repeated first chunk is rejected, and the second completes the image. -/
theorem chunks_accepted_in_sequence_repeated :
    (acceptedChunks [sampleChunk 1 0 7, sampleChunk 1 0 7, sampleChunk 1 1 8]
      (run Device.step (Device.step (Device.create 0x10) (sampleRequest 1 2 Md5.initialState)).1
        [sampleChunk 1 0 7, sampleChunk 1 0 7, sampleChunk 1 1 8]).2).map
      (fun entry => entry.chunkId.toNat) = [0, 1] := by
  have receiving : Along Device.step Receiving
      (Device.step (Device.create 0x10) (sampleRequest 1 2 Md5.initialState)).1
      ([sampleChunk 1 0 7, sampleChunk 1 0 7] ++ [sampleChunk 1 1 8]) := by
    refine ⟨⟨by decide +kernel, ?_⟩, ⟨by decide +kernel, ?_⟩, ⟨by decide +kernel, ?_⟩, trivial⟩
    all_goals
      intro request same
      cases same
  have inStep := (chunks_accepted_in_sequence (Device.create 0x10) .granting _ (by decide) _ _
    receiving).1
  rw [← List.nil_append [sampleChunk 1 0 7, _, _]]
  exact inStep.ids.trans (by decide +kernel)

end InertialSense.FirmwareUpdate
