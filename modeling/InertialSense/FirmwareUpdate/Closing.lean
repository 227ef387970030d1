import InertialSense.FirmwareUpdate.Transition
import InertialSense.Foundation.Run

/-! When a session that has been reported done stays closed, and when every write
stays inside the image. The device never forgets the id of a finished session, so both
depend on which chunks still arrive. -/

namespace InertialSense.FirmwareUpdate

open Foundation

def Effect.write? : Effect → Option ImageWrite
  | .writeImageChunk write => some write
  | _ => none

/-- The session an `MSG_UPDATE_DONE` closes. -/
def Effect.done? : Effect → Option UInt16
  | .send { message := .updateDone sessionId _, .. } => some sessionId
  | _ => none

/-- The message is an `MSG_REQ_UPDATE` for this device. -/
def Session.Requested (s : Session) (payload : Payload) : Prop :=
  ∃ request, payload = ⟨s.sessionTarget, .reqUpdate request⟩

instance (s : Session) (payload : Payload) : Decidable (s.Requested payload) :=
  decidable_of_iff (payload.targetDevice = s.sessionTarget ∧ payload.message matches .reqUpdate _) <| by
    obtain ⟨target, message⟩ := payload
    cases message <;> simp [Session.Requested]

/-- The sessions reported done since the last request. -/
def noteDone (closed : List UInt16) (d : Device) (input : Answers × Payload)
    (effects : List Effect) : List UInt16 :=
  if d.toSession.Requested input.2 then [] else closed ++ effects.filterMap Effect.done?

def doneSessions (d : Device) (inputs : List (Answers × Payload)) : List UInt16 :=
  noted Device.step noteDone [] d inputs

/-- After `inputs`, the message `input` writes nothing outside the image, and if it is a
chunk of a session reported done it writes nothing and changes neither status nor hash. -/
def ClosedAndInside (d : Device) (inputs : List (Answers × Payload))
    (input : Answers × Payload) : Prop :=
  let before := (run Device.step d inputs).1
  let after := (before.step input).1
  let writes := (before.step input).2.filterMap Effect.write?
  (∀ write ∈ writes,
      write.offset.toNat + write.data.length ≤ before.sessionImageSize.toNat) ∧
    ∀ chunk, input.2.message = .updateChunk chunk → chunk.sessionId ∈ doneSessions d inputs →
      writes = [] ∧ after.sessionStatus = before.sessionStatus ∧
        after.md5Context = before.md5Context

/-- The number of chunks an image takes. -/
def Session.neededChunks (s : Session) : Nat :=
  (s.sessionImageSize.toNat + s.sessionChunkSize.toNat - 1) / s.sessionChunkSize.toNat

/-- A chunk in sequence arrives only while chunks are missing, in a session that does
not count more chunks than the image takes. -/
def MissingOnly (d : Device) (input : Answers × Payload) : Prop :=
  ∀ chunk, input.2 = ⟨d.sessionTarget, .updateChunk chunk⟩ → d.toSession.Awaits chunk →
    ¬ d.toSession.Complete ∧ d.sessionTotalChunks.toNat ≤ d.toSession.neededChunks

theorem write_notable (effects : List Effect) :
    effects.filterMap Effect.write? =
      (effects.filter Effect.notable).filterMap Effect.write? := by
  apply filterMap_notable
  intro effect unnotable
  cases effect with
  | writeImageChunk write => cases unnotable
  | _ => rfl

private theorem done_notable (effects : List Effect) :
    effects.filterMap Effect.done? =
      (effects.filter Effect.notable).filterMap Effect.done? := by
  apply filterMap_notable
  intro effect unnotable
  cases effect with
  | send payload =>
    obtain ⟨target, message⟩ := payload
    cases message with
    | updateDone => cases unnotable
    | _ => rfl
  | _ => rfl

theorem verifyImage_write (s : Session) (answers : Answers) :
    (s.verifyImage answers).2.filterMap Effect.write? = [] := by
  unfold Session.verifyImage
  dsimp only
  split <;> split <;> rfl

private theorem not_requested_of_chunk {s : Session} {payload : Payload} {target : UInt32}
    {chunk : Chunk} (addressed : payload = ⟨target, .updateChunk chunk⟩) :
    ¬ s.Requested payload := by
  rintro ⟨request, same⟩
  rw [addressed] at same
  cases same

/-- A session was reported done only once the image was complete, and no chunk has been
stored since. -/
private def Closed (closed : List UInt16) (d : Device) : Prop :=
  -1 ≤ d.lastChunkId ∧ (closed ≠ [] → d.toSession.Complete)

private theorem step_closed (closed : List UInt16) (d : Device) (input : Answers × Payload)
    (holds : Closed closed d) (missing : MissingOnly d input) :
    Closed (noteDone closed d input (d.step input).2) (d.step input).1 := by
  obtain ⟨answers, payload⟩ := input
  obtain ⟨started, complete⟩ := holds
  have moved := d.processMessage_transition answers payload
  unfold noteDone Closed
  dsimp only [Device.step]
  rw [done_notable]
  generalize (d.processMessage answers payload).effects.filter Effect.notable = notable at moved ⊢
  generalize (d.processMessage answers payload).device.toSession = after at moved ⊢
  cases moved with
  | kept unrequested _ =>
    rw [if_neg fun requested => unrequested _ requested.choose_spec]
    exact ⟨started, by simpa using complete⟩
  | requested request addressed =>
    obtain ⟨_, _, _, _, _, last, _⟩ := d.toSession.startSession_fields answers request
    rw [if_pos ⟨request, addressed⟩]
    exact ⟨Int.le_of_eq last.symm, fun open_ => absurd rfl open_⟩
  | failed chunk addressed =>
    rw [if_neg (not_requested_of_chunk addressed)]
    exact ⟨started, by simpa [Effect.done?] using complete⟩
  | stored chunk addressed awaited =>
    have incomplete := (missing chunk addressed awaited).1
    have none : closed = [] := not_not.mp fun some => incomplete (complete some)
    rw [if_neg (not_requested_of_chunk addressed), none]
    exact ⟨by simp [Session.storeChunk], fun some => absurd rfl some⟩
  | completed chunk addressed awaited sized written finished =>
    rw [Session.verifyImage_fields]
    exact ⟨by simp [Session.storeChunk], fun _ => finished⟩

private theorem chunk_begins_inside {s : Session} (positive : 0 < s.sessionChunkSize.toNat)
    {chunkId : Nat} (needed : chunkId < s.neededChunks) :
    chunkId * s.sessionChunkSize.toNat < s.sessionImageSize.toNat := by
  have reach : (chunkId + 1) * s.sessionChunkSize.toNat ≤
      s.sessionImageSize.toNat + s.sessionChunkSize.toNat - 1 :=
    (Nat.le_div_iff_mul_le positive).mp needed
  rw [Nat.succ_mul] at reach
  omega

private theorem mod_toNat (size : Nat) {chunkSize : UInt16} (positive : 0 < chunkSize.toNat) :
    (UInt16.ofNat (size % chunkSize.toNat)).toNat = size % chunkSize.toNat := by
  have small := Nat.mod_lt size positive
  have wide := chunkSize.toNat_lt
  rw [UInt16.toNat_ofNat', Nat.mod_eq_of_lt (by omega)]

/-- The size the device requires of a missing chunk never reaches past the image. -/
private theorem offset_add_size_le {s : Session} {chunk : Chunk}
    (last : chunk.chunkId.toNat < s.sessionTotalChunks.toNat)
    (count : s.sessionTotalChunks.toNat ≤ s.neededChunks) (sized : s.Sized chunk) :
    (s.chunkOffset chunk.chunkId).toNat + chunk.data.length ≤ s.sessionImageSize.toNat := by
  obtain ⟨nonzero, exact⟩ := sized
  have positive : 0 < s.sessionChunkSize.toNat :=
    Nat.pos_of_ne_zero fun zero => nonzero (UInt16.toNat_inj.mp zero)
  have size := congrArg UInt16.toNat exact
  rw [chunk.dataLen_toNat] at size
  rw [s.chunkOffset_toNat, size, Session.expectedSize]
  have begins := chunk_begins_inside positive (Nat.lt_of_lt_of_le last count)
  have parts := Nat.div_add_mod s.sessionImageSize.toNat s.sessionChunkSize.toNat
  have rest := mod_toNat s.sessionImageSize.toNat positive
  have small := Nat.mod_lt s.sessionImageSize.toNat positive
  have within : chunk.chunkId.toNat ≤ s.sessionImageSize.toNat / s.sessionChunkSize.toNat :=
    (Nat.le_div_iff_mul_le positive).mpr (Nat.le_of_lt begins)
  have place := Nat.mul_le_mul_right s.sessionChunkSize.toNat within
  rw [Nat.mul_comm (s.sessionImageSize.toNat / _)] at place
  split
  · omega
  · rename_i whole
    by_cases final : chunk.chunkId.toNat + 1 = s.sessionTotalChunks.toNat
    · -- the last chunk is a whole one only when chunks divide the image
      have divides : s.sessionImageSize.toNat % s.sessionChunkSize.toNat = 0 := by
        have zero : UInt16.ofNat (s.sessionImageSize.toNat % s.sessionChunkSize.toNat) = 0 :=
          not_not.mp fun nonzero => whole ⟨by omega, nonzero⟩
        rw [← rest, zero]
        rfl
      have short : chunk.chunkId.toNat < s.sessionImageSize.toNat / s.sessionChunkSize.toNat := by
        rw [Nat.lt_div_iff_mul_lt' (Nat.dvd_of_mod_eq_zero divides), Nat.mul_comm]
        exact begins
      have fit := Nat.mul_le_mul_right s.sessionChunkSize.toNat short
      rw [Nat.mul_comm (s.sessionImageSize.toNat / _), Nat.succ_mul] at fit
      omega
    · have next := @chunk_begins_inside s positive (chunk.chunkId.toNat + 1) (by omega)
      rw [Nat.succ_mul] at next
      omega

private theorem step_write_inside {d : Device} {input : Answers × Payload}
    (started : -1 ≤ d.lastChunkId) (missing : MissingOnly d input) :
    ∀ write ∈ (d.step input).2.filterMap Effect.write?,
      write.offset.toNat + write.data.length ≤ d.sessionImageSize.toNat := by
  obtain ⟨answers, payload⟩ := input
  have inside (chunk : Chunk) (addressed : payload = ⟨d.sessionTarget, .updateChunk chunk⟩)
      (awaited : d.toSession.Awaits chunk) (sized : d.toSession.Sized chunk) :
      (d.toSession.chunkOffset chunk.chunkId).toNat + chunk.data.length ≤
        d.sessionImageSize.toNat := by
    obtain ⟨incomplete, count⟩ := missing chunk addressed awaited
    have total := UInt16.toNat_lt d.sessionTotalChunks
    unfold Session.Complete at incomplete
    have next := awaited.chunkId_toNat started (by omega)
    exact offset_add_size_le (by omega) count sized
  have moved := d.processMessage_transition answers payload
  rw [Device.step, write_notable]
  generalize (d.processMessage answers payload).effects.filter Effect.notable = notable at moved ⊢
  generalize (d.processMessage answers payload).device.toSession = after at moved
  cases moved with
  | kept => simp
  | requested request addressed => simp [Effect.toHost, Effect.write?]
  | failed chunk addressed awaited sized =>
    simpa [Effect.write?, Session.imageWrite] using inside chunk addressed awaited sized
  | stored chunk addressed awaited sized =>
    simpa [Effect.write?, Session.imageWrite] using inside chunk addressed awaited sized
  | completed chunk addressed awaited sized =>
    simpa [Effect.write?, Session.imageWrite, verifyImage_write] using
      inside chunk addressed awaited sized

private theorem step_late_chunk {d : Device} {input : Answers × Payload} {chunk : Chunk}
    (complete : d.toSession.Complete) (missing : MissingOnly d input)
    (message : input.2.message = .updateChunk chunk) :
    (d.step input).2.filterMap Effect.write? = [] ∧ (d.step input).1.toSession = d.toSession := by
  obtain ⟨answers, payload⟩ := input
  have late (other : Chunk) (addressed : payload = ⟨d.sessionTarget, .updateChunk other⟩)
      (awaited : d.toSession.Awaits other) : False :=
    (missing other addressed awaited).1 complete
  have moved := d.processMessage_transition answers payload
  dsimp only [Device.step]
  rw [write_notable]
  generalize (d.processMessage answers payload).effects.filter Effect.notable = notable at moved ⊢
  generalize (d.processMessage answers payload).device.toSession = after at moved ⊢
  cases moved with
  | kept => exact ⟨rfl, rfl⟩
  | requested request addressed =>
    rw [addressed] at message
    cases message
  | failed other addressed awaited => exact (late other addressed awaited).elim
  | stored other addressed awaited => exact (late other addressed awaited).elim
  | completed other addressed awaited => exact (late other addressed awaited).elim

/-- A device that gets chunks in sequence only while chunks are missing keeps its
finished sessions closed and writes inside the image. -/
theorem run_closed_and_inside (target : UInt32) (inputs : List (Answers × Payload))
    (input : Answers × Payload)
    (missing : Along Device.step MissingOnly (Device.create target) (inputs ++ [input])) :
    ClosedAndInside (Device.create target) inputs input := by
  obtain ⟨earlier, last⟩ := Along.append.mp missing
  have now := last.1
  obtain ⟨started, complete⟩ := noted_invariant step_closed
    (show Closed [] (Device.create target) from ⟨Int.le_refl _, fun some => absurd rfl some⟩) earlier
  refine ⟨step_write_inside started now, ?_⟩
  intro chunk message done
  have full := complete (List.ne_nil_of_mem done)
  obtain ⟨none, same⟩ := step_late_chunk full now message
  exact ⟨none, congrArg Session.sessionStatus same, congrArg Session.md5Context same⟩

/-- Both chunks of an image of two bytes arrive. -/
theorem run_closed_and_inside_two :
    ClosedAndInside (Device.create 0x10)
      [sampleRequest 1 2 Md5.initialState, sampleChunk 1 0 7] (sampleChunk 1 1 8) := by
  apply run_closed_and_inside
  refine ⟨?_, ?_, ?_, trivial⟩
  · intro chunk same
    cases same
  · exact fun _ _ _ => ⟨by decide +kernel, by decide +kernel⟩
  · exact fun _ _ _ => ⟨by decide +kernel, by decide +kernel⟩

/-- An image of one byte has been received and reported done. The chunk after the last is
still written, past the end of the image. -/
theorem chunk_after_done_written :
    ¬ ClosedAndInside (Device.create 0x10)
      [sampleRequest 1 1 Md5.initialState, sampleChunk 1 0 7] (sampleChunk 1 1 8) := by
  rintro ⟨_, closed⟩
  obtain ⟨none, _⟩ := closed _ rfl (by decide +kernel)
  exact absurd none (by decide +kernel)

end InertialSense.FirmwareUpdate
