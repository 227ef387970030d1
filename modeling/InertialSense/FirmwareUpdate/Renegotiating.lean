import InertialSense.FirmwareUpdate.Updater

/-! The size of a session's chunks, which a device that finds them too large makes the host halve.
Nothing stops the halving. -/

namespace InertialSense.FirmwareUpdate

open Foundation

/-- What `fwUpdate_sendNextChunk` takes a remainder by: only the last chunk may be shorter. -/
def Host.remainders (h : Host) : List UInt16 :=
  if h.nextChunkId < h.sessionTotalChunks ∧
      (h.nextChunkId.toNat : Int) = (h.sessionTotalChunks.toNat : Int) - 1 then [h.sessionChunkSize]
  else []

namespace Updater

def remainders (u : Updater) : Operation → List UInt16
  | .step answers =>
    if (u.host.sessionStatus = .ready ∨ u.host.sessionStatus = .inProgress) ∧
        u.nextChunkSend < answers.clock .chunk then u.host.remainders
    else []
  | .receive answers payload =>
    match payload.message with
    | .reqResendChunk sessionId chunkId _ =>
      if payload.targetDevice = targetHost ∧ sessionId = u.host.sessionId ∧
          ¬u.GivesUp answers chunkId then
        { u.host with nextChunkId := chunkId }.remainders
      else []
    | _ => []

/-- The device is asked again with smaller chunks. -/
def Renegotiates (u : Updater) : Operation → Prop
  | .step _ => u.host.sessionStatus = .errMaxChunkSize ∧ u.host.sessionId ≠ 0
  | .receive _ payload => u.host.Renegotiates payload

/-- The device only responds to requests, and no command is run. -/
def OnlyResponds (u : Updater) : Operation → Prop
  | .step _ => u.Idle → u.commands = []
  | .receive _ payload =>
    ∃ sessionId totlChunks status, payload.message = .updateResp sessionId totlChunks status

/-- The chunks of a session have a size, a new size is smaller, and no remainder is taken by zero. -/
structure Negotiates (u : Updater) (operation : Operation) : Prop where
  some : (u.operate operation).1.Alive → 1 ≤ (u.operate operation).1.host.sessionChunkSize
  smaller : u.Renegotiates operation →
    (u.operate operation).1.host.sessionChunkSize < u.host.sessionChunkSize ∨
      ¬(u.operate operation).1.Alive
  divides : 0 ∉ u.remainders operation

/-- The session's chunks have a size, and there is no error that a step would negotiate. -/
private structure Sized (u : Updater) : Prop where
  some : 1 ≤ u.host.sessionChunkSize
  status : u.host.sessionStatus ≠ .errMaxChunkSize

variable {u : Updater} {answers : UpdaterAnswers}

private theorem Sized.handleCommandError (sized : u.Sized) (cmd message : String) :
    (u.handleCommandError cmd message).Sized := by
  by_cases empty : u.commands = []
  · have host := handleCommandError_host empty cmd message
    exact ⟨host ▸ sized.some, host ▸ sized.status⟩
  · have host : (u.handleCommandError cmd message).host = u.host.resetEngine := by
      unfold Updater.handleCommandError resetSession skipToLabel
      rw [if_neg empty]
      split
      · rfl
      · rfl
    refine ⟨?_, ?_⟩
    · rw [host]
      show (1 : UInt16) ≤ 512
      decide
    · rw [host]
      show UpdateStatus.notStarted ≠ .errMaxChunkSize
      decide

private theorem Sized.attend (sized : u.Sized) : (u.attend answers).1.Sized := by
  rcases @attend_cases u answers with ⟨-, attended⟩ | ⟨sound, -⟩
  · rw [attended]
    exact sized.handleCommandError ..
  · unfold Updater.attend
    unfold Failed at sound
    cases status : u.host.sessionStatus with
    | notStarted =>
      dsimp only
      split
      · have host := @retry_host u answers
        exact ⟨by rw [host]; exact sized.some, by rw [host]; exact sized.status⟩
      · exact sized
    | initializing | finalizing => exact ⟨sized.some, sized.status⟩
    | ready | inProgress =>
      dsimp only
      split
      · obtain ⟨_, _, frame⟩ := u.host.sendNextChunk_frame answers.host
        refine ⟨?_, ?_⟩
        · show 1 ≤ (u.host.sendNextChunk answers.host).1.sessionChunkSize
          rw [frame]
          exact sized.some
        · show (u.host.sendNextChunk answers.host).1.sessionStatus ≠ _
          rw [frame]
          exact sized.status
      · exact ⟨sized.some, sized.status⟩
    | finished =>
      dsimp only
      split
      · exact sized
      · exact ⟨sized.some, by simp⟩
    | errMaxChunkSize => exact absurd status sized.status
    | _ =>
      rw [status] at sound
      exact absurd ⟨by decide, by decide⟩ sound

private theorem Sized.conclude (sized : u.Sized) : (u.conclude answers).Sized := by
  have expired : (u.expire answers).Sized := by
    unfold expire
    split
    · exact ⟨sized.some, by simp⟩
    · exact sized
  show (u.expire answers).closeSource.Sized
  unfold closeSource
  split
  · exact ⟨expired.some, expired.status⟩
  · exact expired

private theorem Sized.step (sized : u.Sized) (quiet : u.Idle → u.commands = []) :
    (u.step answers).1.Sized := by
  have stepped : u.step answers = ((u.attend answers).1.conclude answers, (u.attend answers).2) := by
    by_cases idle : u.Idle
    · exact step_of_empty (quiet idle)
    · exact step_of_not_idle idle
  rw [stepped]
  exact sized.attend.conclude

/-- The size of the chunks that a response leaves: half of it, if the device refuses them. -/
private theorem respond_size {payload : Payload} {sessionId totlChunks : UInt16}
    {status : UpdateStatus} (sized : u.Sized)
    (responds : payload.message = .updateResp sessionId totlChunks status) :
    (u.host.Renegotiates payload ∧
      (u.processMessage answers payload).1.host.sessionChunkSize = u.host.sessionChunkSize / 2 ∧
      (u.processMessage answers payload).1.host.sessionStatus = .notStarted) ∨
    (¬u.host.Renegotiates payload ∧ (u.processMessage answers payload).1.Sized) := by
  obtain ⟨target, message⟩ := payload
  obtain rfl : message = .updateResp sessionId totlChunks status := responds
  unfold processMessage
  by_cases host : target = targetHost
  case neg =>
    rw [if_pos host]
    exact .inr ⟨fun renegotiates => host renegotiates.1, sized⟩
  rw [if_neg (not_not.mpr host)]
  dsimp only [act, Host.processMessage]
  rw [if_neg (not_not.mpr host)]
  by_cases own : sessionId = u.host.sessionId
  case neg =>
    rw [if_neg own]
    refine .inr ⟨?_, sized.some, sized.status⟩
    rintro ⟨-, -, total, same⟩
    obtain ⟨rfl, -⟩ := Message.updateResp.inj same
    exact own rfl
  rw [if_pos own]
  unfold Host.handleUpdateResponse
  by_cases again : u.host.sessionStatus = status ∧ u.host.sessionStatus ≠ .initializing
  case pos =>
    rw [if_pos again]
    refine .inr ⟨?_, sized.some, sized.status⟩
    rintro ⟨-, fresh, total, same⟩
    obtain ⟨-, -, refused⟩ := Message.updateResp.inj same
    exact fresh (again.1.trans refused)
  rw [if_neg again]
  by_cases refused : status = .errMaxChunkSize
  · subst refused
    refine .inl ⟨⟨host, sized.status, totlChunks, ?_⟩, rfl, rfl⟩
    rw [own]
  · refine .inr ⟨?_, ?_⟩
    · rintro ⟨-, -, total, same⟩
      obtain ⟨-, -, same⟩ := Message.updateResp.inj same
      exact refused same
    · cases status with
      | errMaxChunkSize => exact absurd rfl refused
      | _ => exact ⟨sized.some, by simp⟩

private theorem Sized.divides {operation : Operation} (sized : u.Sized)
    (responds : u.OnlyResponds operation) : 0 ∉ u.remainders operation := by
  intro zero
  cases operation with
  | step answers =>
    dsimp only [remainders, Host.remainders] at zero
    split at zero
    · split at zero
      · have some := sized.some
        rw [← List.mem_singleton.mp zero] at some
        exact absurd some (by decide)
      · cases zero
    · cases zero
  | receive answers payload =>
    obtain ⟨sessionId, totlChunks, status, message⟩ := responds
    rw [remainders, message] at zero
    cases zero

private theorem halved (size : UInt16) :
    (1 ≤ size / 2 ↔ 1 < size) ∧ (1 ≤ size → size / 2 < size) := by
  simp only [UInt16.le_iff_toNat_le, UInt16.lt_iff_toNat_lt, UInt16.toNat_div, UInt16.reduceToNat]
  omega

/-- One operation negotiates exactly if it does not halve a chunk size of 1. -/
private theorem Sized.negotiates_iff {operation : Operation} (sized : u.Sized)
    (responds : u.OnlyResponds operation) :
    (u.Negotiates operation ↔ (u.Renegotiates operation → 1 < u.host.sessionChunkSize)) ∧
      (u.Negotiates operation → (u.operate operation).1.Sized) := by
  have kept (keeps : (u.operate operation).1.Sized) (same : ¬u.Renegotiates operation) :
      (u.Negotiates operation ↔ (u.Renegotiates operation → 1 < u.host.sessionChunkSize)) ∧
        (u.Negotiates operation → (u.operate operation).1.Sized) :=
    ⟨iff_of_true ⟨fun _ => keeps.some, fun renegotiates => absurd renegotiates same,
      sized.divides responds⟩ fun renegotiates => absurd renegotiates same, fun _ => keeps⟩
  cases operation with
  | step answers => exact kept (sized.step responds) fun renegotiates => sized.status renegotiates.1
  | receive answers payload =>
    obtain ⟨sessionId, totlChunks, status, message⟩ := id responds
    obtain ⟨renegotiates, size, started⟩ | ⟨same, keeps⟩ :=
      @respond_size u answers _ _ _ _ sized message
    case inr => exact kept keeps same
    have alive : (u.processMessage answers payload).1.Alive :=
      Int.le_of_eq (congrArg UpdateStatus.value started.symm)
    obtain ⟨some_half, smaller_half⟩ := halved u.host.sessionChunkSize
    have size : (u.operate (.receive answers payload)).1.host.sessionChunkSize =
      u.host.sessionChunkSize / 2 := size
    refine ⟨⟨?_, ?_⟩, ?_⟩
    · intro negotiates _
      have some := negotiates.some alive
      rw [size] at some
      exact some_half.mp some
    · intro larger
      have larger := larger renegotiates
      refine ⟨fun _ => ?_, fun _ => .inl ?_, sized.divides responds⟩
      · rw [size]
        exact some_half.mpr larger
      · rw [size]
        exact smaller_half sized.some
    · intro negotiates
      refine ⟨negotiates.some alive, ?_⟩
      show (u.processMessage answers payload).1.host.sessionStatus ≠ _
      rw [started]
      decide

/-- Chunk sizes are renegotiated soundly as long as the device does not refuse chunks of one
byte. -/
theorem renegotiation_sound_iff {operations : List Operation}
    (requested : u.host.sessionStatus = .notStarted) (some : 1 ≤ u.host.sessionChunkSize)
    (responds : Along operate OnlyResponds u operations) :
    Along operate Negotiates u operations ↔
      Along operate (fun u operation => u.Renegotiates operation → 1 < u.host.sessionChunkSize) u
        operations := by
  have sized : u.Sized := ⟨some, by rw [requested]; decide⟩
  clear requested some
  induction operations generalizing u with
  | nil => exact Iff.rfl
  | cons operation rest ih =>
    obtain ⟨responds, later⟩ := responds
    obtain ⟨sound, keeps⟩ := sized.negotiates_iff responds
    constructor
    · rintro ⟨negotiates, others⟩
      exact ⟨sound.mp negotiates, (ih later (keeps negotiates)).mp others⟩
    · rintro ⟨larger, others⟩
      have negotiates := sound.mpr larger
      exact ⟨negotiates, (ih later (keeps negotiates)).mpr others⟩

def requesting (chunkSize : UInt16) : Updater :=
  let u := create DevInfo.zero none 0x10 []
  let arguments : RequestArguments :=
    { target := 0x10, imageSlot := 0, imageFlags := 0, chunkSize, imageSize := 700
      imageMd5 := { a := 0, b := 0, c := 0, d := 0 }, progressRate := 250 }
  { u with requestPending := true, host := (u.host.requestUpdate (.atTime 0 : UpdaterAnswers).host
      arguments).1 }

/-- A response of the device in the session, whose id is always the same here. -/
def responding (totlChunks : UInt16) (status : UpdateStatus) : Operation :=
  .receive (.atTime 0) { targetDevice := targetHost, message := .updateResp 1 totlChunks status }

/-- Chunks of 512 bytes are refused, and chunks of 256 bytes are accepted. -/
theorem renegotiation_sound_iff_halved :
    Along operate Negotiates (requesting 512)
      [responding 0 .errMaxChunkSize, responding 3 .ready, .step (.atTime 100)] := by
  refine (renegotiation_sound_iff rfl (by decide) ?_).mpr ?_
  · exact ⟨⟨_, _, _, rfl⟩, ⟨_, _, _, rfl⟩, fun _ => rfl, trivial⟩
  · refine ⟨fun _ => by decide, fun _ => by decide, fun _ => by decide, trivial⟩

/-- Ten refusals leave chunks of no bytes, and the remainder of the first chunk is taken by
zero. -/
theorem tenth_refusal_divides_by_zero :
    Along operate OnlyResponds (requesting 512)
      (List.replicate 10 (responding 0 .errMaxChunkSize) ++
        [responding 1 .ready, .step (.atTime 100)]) ∧
    ¬Along operate Negotiates (requesting 512)
      (List.replicate 10 (responding 0 .errMaxChunkSize) ++
        [responding 1 .ready, .step (.atTime 100)]) := by
  refine ⟨?_, fun negotiates => ?_⟩
  · refine Along.append.mpr ⟨?_, ⟨_, _, _, rfl⟩, fun _ => rfl, trivial⟩
    exact (Along.of_forall fun _ member => List.eq_of_mem_replicate member).mono
      fun u operation same => same ▸ ⟨_, _, _, rfl⟩
  · obtain ⟨-, -, last, -⟩ := Along.append.mp negotiates
    exact last.divides (by decide)

end Updater

end InertialSense.FirmwareUpdate
