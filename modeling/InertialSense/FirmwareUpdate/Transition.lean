import InertialSense.FirmwareUpdate.Device

/-! Everything one message can do to a session. The invariants of the device are
derived from this case analysis; none of them unfolds a handler again. -/

namespace InertialSense.FirmwareUpdate

/-- Calls into the image and answers that open or close a session, as opposed to
progress reports, resend requests, resets and version information. -/
def Effect.notable : Effect → Bool
  | .writeImageChunk _ => true
  | .finishUpdate .. => true
  | .send { message := .updateResp .., .. } => true
  | .send { message := .updateDone .., .. } => true
  | _ => false

/-- A reading of the effects that only sees notable ones can skip the others. -/
theorem filterMap_notable {read : Effect → Option β}
    (silent : ∀ effect, effect.notable = false → read effect = none) (effects : List Effect) :
    effects.filterMap read = (effects.filter Effect.notable).filterMap read := by
  rw [List.filterMap_filter]
  apply List.filterMap_congr
  intro effect _
  split
  · rfl
  · rename_i unnotable
    exact silent effect (by simpa using unnotable)

namespace Session

/-- The chunk carries the session id and the id the device waits for. -/
def Awaits (s : Session) (chunk : Chunk) : Prop :=
  chunk.sessionId = s.sessionId ∧ chunk.chunkId = UInt16.ofNat (s.lastChunkId + 1).toNat

instance (s : Session) (chunk : Chunk) : Decidable (s.Awaits chunk) :=
  inferInstanceAs (Decidable (_ ∧ _))

/-- The chunk has the size the device requires. -/
def Sized (s : Session) (chunk : Chunk) : Prop :=
  s.sessionChunkSize ≠ 0 ∧ chunk.dataLen = s.expectedSize chunk.chunkId

/-- No chunk is missing any more. -/
def Complete (s : Session) : Prop := (s.sessionTotalChunks.toNat : Int) - 1 ≤ s.lastChunkId

instance (s : Session) : Decidable s.Complete := inferInstanceAs (Decidable (_ ≤ _))

/-- The call of `fwUpdate_writeImageChunk` for a chunk. -/
def imageWrite (s : Session) (chunk : Chunk) (status : UpdateStatus) : ImageWrite :=
  { targetId := s.sessionTarget
    slotId := s.sessionImageSlot
    offset := s.chunkOffset chunk.chunkId
    data := chunk.data
    status }

end Session

namespace Session

/-- `fwUpdate_handleInitialize` starts over whatever the request says. -/
theorem startSession_fields (s : Session) (answers : Answers) (request : UpdateRequest) :
    (s.startSession answers request).sessionTarget = s.sessionTarget ∧
      (s.startSession answers request).sessionStatus = answers.startUpdate ∧
      (s.startSession answers request).sessionId = request.sessionId ∧
      (s.startSession answers request).sessionChunkSize = request.chunkSize ∧
      (s.startSession answers request).sessionImageSize = request.fileSize ∧
      (s.startSession answers request).lastChunkId = -1 ∧
      (s.startSession answers request).md5Context = Md5.md5Init s.md5Context := by
  unfold startSession
  dsimp only
  split <;> split <;> exact ⟨rfl, rfl, rfl, rfl, rfl, rfl, rfl⟩

/-- Confirming the checksum changes the status and consumes the hash, nothing else. -/
theorem verifyImage_fields (s : Session) (answers : Answers) :
    (s.verifyImage answers).1 =
      { s with
        sessionStatus := (s.verifyImage answers).1.sessionStatus
        md5Context := (Md5.md5Final s.md5Context).1 } := by
  unfold verifyImage sendDone
  dsimp only
  split <;> split <;> rfl

theorem chunkOffset_toNat (s : Session) (chunkId : UInt16) :
    (s.chunkOffset chunkId).toNat = chunkId.toNat * s.sessionChunkSize.toNat := by
  have product : chunkId.toNat * s.sessionChunkSize.toNat ≤ (2 ^ 16 - 1) * (2 ^ 16 - 1) :=
    Nat.mul_le_mul (Nat.le_pred_of_lt chunkId.toNat_lt) (Nat.le_pred_of_lt (UInt16.toNat_lt _))
  rw [chunkOffset, UInt32.toNat_mul, UInt16.toNat_toUInt32, UInt16.toNat_toUInt32,
    Nat.mod_eq_of_lt (by omega)]

/-- The id a device waits for is its successor as long as ids have not run out. -/
theorem Awaits.chunkId_toNat {s : Session} {chunk : Chunk} (awaited : s.Awaits chunk)
    (started : -1 ≤ s.lastChunkId) (bounded : s.lastChunkId < 2 ^ 16 - 1) :
    (chunk.chunkId.toNat : Int) = s.lastChunkId + 1 := by
  rw [awaited.2, UInt16.toNat_ofNat', Nat.mod_eq_of_lt (by omega)]
  omega

end Session

/-- What a message does to the session, with the notable effects it has. -/
inductive Transition (s : Session) (answers : Answers) (payload : Payload) :
    Session → List Effect → Prop where
  | kept
      (unrequested : ∀ request, payload ≠ ⟨s.sessionTarget, .reqUpdate request⟩)
      (rejected : ∀ chunk, payload = ⟨s.sessionTarget, .updateChunk chunk⟩ →
        ¬ (s.Awaits chunk ∧ s.Sized chunk)) :
      Transition s answers payload s []
  | requested (request : UpdateRequest)
      (addressed : payload = ⟨s.sessionTarget, .reqUpdate request⟩) :
      Transition s answers payload (s.startSession answers request)
        [.toHost (.updateResp (s.startSession answers request).sessionId
          (s.startSession answers request).sessionTotalChunks
          (s.startSession answers request).sessionStatus)]
  | failed (chunk : Chunk)
      (addressed : payload = ⟨s.sessionTarget, .updateChunk chunk⟩)
      (awaited : s.Awaits chunk) (sized : s.Sized chunk)
      (refused : answers.writeImageChunk.value < 0) :
      Transition s answers payload s
        [.writeImageChunk (s.imageWrite chunk answers.writeImageChunk)]
  | stored (chunk : Chunk)
      (addressed : payload = ⟨s.sessionTarget, .updateChunk chunk⟩)
      (awaited : s.Awaits chunk) (sized : s.Sized chunk)
      (written : 0 ≤ answers.writeImageChunk.value)
      (incomplete : ¬ (s.storeChunk chunk).Complete) :
      Transition s answers payload (s.storeChunk chunk)
        [.writeImageChunk (s.imageWrite chunk answers.writeImageChunk)]
  | completed (chunk : Chunk)
      (addressed : payload = ⟨s.sessionTarget, .updateChunk chunk⟩)
      (awaited : s.Awaits chunk) (sized : s.Sized chunk)
      (written : 0 ≤ answers.writeImageChunk.value)
      (complete : (s.storeChunk chunk).Complete) :
      Transition s answers payload ((s.storeChunk chunk).verifyImage answers).1
        (.writeImageChunk (s.imageWrite chunk answers.writeImageChunk) ::
          ((s.storeChunk chunk).verifyImage answers).2)

/-- A request for this device starts a session, whatever came before. -/
theorem Transition.of_request {s after : Session} {answers : Answers} {request : UpdateRequest}
    {notable : List Effect}
    (moved : Transition s answers ⟨s.sessionTarget, .reqUpdate request⟩ after notable) :
    after = s.startSession answers request ∧
      notable = [.toHost (.updateResp after.sessionId after.sessionTotalChunks
        after.sessionStatus)] := by
  cases moved with
  | kept unrequested => exact absurd rfl (unrequested request)
  | requested other addressed =>
    obtain rfl : request = other := by simpa using addressed
    exact ⟨rfl, rfl⟩
  | failed chunk addressed => simp at addressed
  | stored chunk addressed => simp at addressed
  | completed chunk addressed => simp at addressed

namespace Device

@[simp] theorem sendProgress_toSession (d : Device) (answers : Answers) :
    (d.sendProgress answers).1.toSession = d.toSession := by
  unfold sendProgress
  dsimp only
  split <;> rfl

@[simp] theorem sendProgress_notable (d : Device) (answers : Answers) :
    (d.sendProgress answers).2.filter Effect.notable = [] := by
  unfold sendProgress
  dsimp only
  split <;> rfl

@[simp] theorem sendRetry_notable (s : Session) (reason : ResendReason) :
    (s.sendRetry reason).filter Effect.notable = [] := rfl

theorem verifyImage_notable (s : Session) (answers : Answers) :
    (s.verifyImage answers).2.filter Effect.notable = (s.verifyImage answers).2 := by
  unfold Session.verifyImage
  dsimp only
  split <;> split <;> rfl

private theorem handleChunk_transition (d : Device) (answers : Answers) (chunk : Chunk) :
    Transition d.toSession answers ⟨d.sessionTarget, .updateChunk chunk⟩
      (d.handleChunk answers d.sessionTarget chunk).device.toSession
      ((d.handleChunk answers d.sessionTarget chunk).effects.filter Effect.notable) := by
  have keep (rejected : ¬ (d.toSession.Awaits chunk ∧ d.toSession.Sized chunk)) :
      Transition d.toSession answers ⟨d.sessionTarget, .updateChunk chunk⟩ d.toSession [] := by
    refine .kept (by simp) ?_
    rintro other same
    obtain rfl : chunk = other := by simpa using same
    exact rejected
  unfold handleChunk
  split
  · rename_i foreign
    exact keep fun accepted => foreign accepted.1.1
  · rename_i own
    split
    · rename_i unexpected
      exact keep fun accepted => unexpected accepted.1.2
    · rename_i next
      have awaited : d.toSession.Awaits chunk := ⟨not_not.mp own, not_not.mp next⟩
      split
      · rename_i zero
        exact keep fun accepted => accepted.2.1 zero
      · rename_i positive
        split
        · rename_i odd
          exact keep fun accepted => odd accepted.2.2
        · rename_i exact
          have sized : d.toSession.Sized chunk := ⟨positive, not_not.mp exact⟩
          dsimp only
          split
          · rename_i refused
            exact .failed chunk rfl awaited sized refused
          · rename_i written
            split
            · rename_i complete
              have effects := verifyImage_notable (d.toSession.storeChunk chunk) answers
              simp only [List.filter_append, List.filter_cons, sendProgress_notable,
                sendProgress_toSession, effects]
              exact .completed chunk rfl awaited sized (Int.not_lt.mp written) complete
            · rename_i incomplete
              exact .stored chunk rfl awaited sized (Int.not_lt.mp written) incomplete

private theorem dispatch_transition (d : Device) (answers : Answers) (payload : Payload)
    (addressed : payload.targetDevice = d.sessionTarget) :
    Transition d.toSession answers payload (d.dispatch answers payload).device.toSession
      ((d.dispatch answers payload).effects.filter Effect.notable) := by
  obtain ⟨target, message⟩ := payload
  obtain rfl : target = d.sessionTarget := addressed
  cases message with
  | reqUpdate request => exact .requested request rfl
  | updateChunk chunk => exact handleChunk_transition d answers chunk
  | _ => exact .kept (by simp) (by simp)

theorem processMessage_transition (d : Device) (answers : Answers) (payload : Payload) :
    Transition d.toSession answers payload (d.processMessage answers payload).device.toSession
      ((d.processMessage answers payload).effects.filter Effect.notable) := by
  unfold processMessage
  split
  · rename_i foreign
    refine .kept ?_ ?_
    · rintro request rfl
      exact foreign rfl
    · rintro chunk rfl
      exact absurd rfl foreign
  · rename_i addressed
    have dispatched := dispatch_transition { d with lastMessage := answers.currentTimeMs }
      answers payload (not_not.mp addressed)
    dsimp only
    split
    · simpa only [List.filter_append, sendProgress_notable, sendProgress_toSession,
        List.append_nil] using dispatched
    · exact dispatched

theorem processMessage_requested (d : Device) (answers : Answers) (request : UpdateRequest) :
    (d.processMessage answers ⟨d.sessionTarget, .reqUpdate request⟩).device.toSession =
      d.toSession.startSession answers request :=
  (d.processMessage_transition answers ⟨d.sessionTarget, .reqUpdate request⟩).of_request.1

private theorem verifyImage_no_trap (s : Session) (answers : Answers) :
    Effect.remainderByZero ∉ (s.verifyImage answers).2 := by
  unfold Session.verifyImage
  dsimp only
  split <;> split <;> simp [Session.sendDone, Effect.toHost]

private theorem sendProgress_no_trap (d : Device) (answers : Answers) :
    Effect.remainderByZero ∉ (d.sendProgress answers).2 := by
  unfold sendProgress
  dsimp only
  split <;> simp [Effect.toHost]

private theorem handleChunk_trap_iff {d : Device} {answers : Answers} {target : UInt32}
    {chunk : Chunk} :
    Effect.remainderByZero ∈ (d.handleChunk answers target chunk).effects ↔
      d.toSession.Awaits chunk ∧ d.sessionChunkSize = 0 := by
  unfold handleChunk
  split
  case isTrue foreign => exact iff_of_false (by simp) fun awaited => foreign awaited.1.1
  case isFalse =>
    split
    case isTrue unexpected =>
      refine iff_of_false ?_ fun awaited => unexpected awaited.1.2
      simp [Session.sendRetry, Effect.toHost]
    case isFalse own next =>
      have awaited : d.toSession.Awaits chunk := ⟨not_not.mp own, not_not.mp next⟩
      split
      case isTrue zero => exact iff_of_true (List.mem_singleton.mpr rfl) ⟨awaited, zero⟩
      case isFalse positive =>
        refine iff_of_false ?_ fun zero => positive zero.2
        split
        · simp [Session.sendRetry, Effect.toHost]
        · dsimp only
          split
          · simp [Session.sendRetry, Effect.toHost]
          · split
            · simp [sendProgress_no_trap, verifyImage_no_trap]
            · simp

private theorem dispatch_trap_iff {d : Device} {answers : Answers} {payload : Payload} :
    Effect.remainderByZero ∈ (d.dispatch answers payload).effects ↔
      ∃ chunk, payload.message = .updateChunk chunk ∧ d.toSession.Awaits chunk ∧
        d.sessionChunkSize = 0 := by
  rcases payload with ⟨target, message⟩
  cases message with
  | updateChunk chunk =>
    refine handleChunk_trap_iff.trans ⟨fun zero => ⟨chunk, rfl, zero⟩, ?_⟩
    rintro ⟨other, same, zero⟩
    obtain rfl : chunk = other := by simpa using same
    exact zero
  | reqUpdate request => simp [dispatch, handleInitialize, Effect.toHost]
  | reqReset resetFlags => simp [dispatch, handleReset, Effect.toHost]
  | reqVersionInfo => simp [dispatch, handleVersionInfo, Effect.toHost]
  | _ => exact iff_of_false nofun fun ⟨_, same, _⟩ => nomatch same

/-- A remainder by zero is taken of a chunk that is waited for in a session that has chunks of
size zero. -/
theorem processMessage_trap_iff {d : Device} {answers : Answers} {payload : Payload} :
    Effect.remainderByZero ∈ (d.processMessage answers payload).effects ↔
      ∃ chunk, payload = ⟨d.sessionTarget, .updateChunk chunk⟩ ∧ d.toSession.Awaits chunk ∧
        d.sessionChunkSize = 0 := by
  obtain ⟨target, message⟩ := payload
  unfold processMessage
  by_cases foreign : target ≠ d.sessionTarget
  · rw [if_pos foreign]
    refine iff_of_false nofun ?_
    rintro ⟨chunk, same, -⟩
    cases same
    exact foreign rfl
  · rw [if_neg foreign]
    obtain rfl := not_not.mp foreign
    have dispatched := @dispatch_trap_iff { d with lastMessage := answers.currentTimeMs } answers
      ⟨d.sessionTarget, message⟩
    have silent (d : Device) := sendProgress_no_trap d answers
    dsimp only at dispatched ⊢
    split
    · simpa [silent] using dispatched
    · simpa using dispatched

end Device

end InertialSense.FirmwareUpdate
