import Mathlib.Data.List.Induction
import Mathlib.Data.List.Infix
import Mathlib.Data.List.TakeWhile
import InertialSense.FirmwareUpdate.Updater

/-! When the updater gives up on a chunk that the device requests again and again. The chunk that
was requested last is remembered as chunk 0 forever, so only that chunk is given up. -/

namespace InertialSense.FirmwareUpdate

open Foundation

/-- A `MSG_REQ_RESEND_CHUNK` of the session, and when it was handled. -/
structure Resend where
  chunkId : UInt16
  reason : ResendReason
  time : UInt32
deriving DecidableEq

/-- The requests for chunk 0 after the last one for another chunk; the latest comes first. -/
def streak (resends : List Resend) : Nat := (resends.takeWhile (·.chunkId = 0)).length

/-- When another chunk was requested last. -/
def otherTime (resends : List Resend) : UInt32 :=
  ((resends.find? (·.chunkId ≠ 0)).map (·.time)).getD 0

/-- Chunk 0 is requested, more than ten times in a row and more than 5000 ms after any other
chunk, as far as the counter of 16 bits and the clock of 32 bits can tell. -/
def Exhausted (resends : List Resend) : Prop :=
  ∃ last past, resends = last :: past ∧ last.chunkId = 0 ∧
    10 < streak resends % 65536 ∧ 5000 < last.time - otherTime past

/-- More than 11 requests for one chunk over more than 5000 ms, each with a reason. -/
structure Persists (chunkId : UInt16) (resends : List Resend) : Prop where
  same : ∀ resend ∈ resends, resend.chunkId = chunkId ∧ resend.reason ≠ .none
  many : 11 < resends.length
  long : ∃ first last, resends.getLast? = some first ∧ resends.head? = some last ∧
    5000 < last.time - first.time

def Host.resent (h : Host) : UInt16 × UInt16 × UInt32 :=
  (h.lastResentChunk, h.resentChunkidCount, h.resentChunkidTime)

namespace Updater

/-- The resend request that an operation delivers to the session. -/
def resend? (u : Updater) : Operation → Option Resend
  | .step _ => none
  | .receive answers payload =>
    match payload.message with
    | .reqResendChunk sessionId chunkId reason =>
      if payload.targetDevice = targetHost ∧ sessionId = u.host.sessionId then
        some { chunkId, reason, time := answers.clock .request }
      else none
    | _ => none

/-- The resend requests of a run, the latest first. -/
def resends (u : Updater) (operations : List Operation) : List Resend :=
  noted operate (fun history u operation _ => (u.resend? operation).toList ++ history) [] u
    operations

/-- The host counts the requests for chunk 0, and knows when it was asked for another one. -/
def Tracks (history : List Resend) (u : Updater) : Prop :=
  u.host.resent = (0, UInt16.ofNat (streak history), otherTime history)

/-- At one of the requests of `during` the chunk is exhausted. -/
def ExhaustsWithin (u : Updater) (before during : List Operation) : Prop :=
  ∃ past operation later, during = past ++ operation :: later ∧
    (run operate u (before ++ past)).1.resend? operation ≠ none ∧
    Exhausted (resends u (before ++ past ++ [operation]))

/-- The status is an error at some time in `during`. -/
def FailsWithin (u : Updater) (before during : List Operation) : Prop :=
  ∃ past later, during = past ++ later ∧ ¬(run operate u (before ++ past)).1.Alive

/-- Nothing but a resend request makes the session fail. -/
def OnlyResendFails (u : Updater) (operation : Operation) : Prop :=
  u.resend? operation = none → u.Alive → (u.operate operation).1.Alive

variable {u : Updater} {answers : UpdaterAnswers} {history : List Resend} {operation : Operation}

/-! ### What keeps the bookkeeping -/

private theorem handleUpdateResponse_resent (h : Host) (answers : HostAnswers)
    (totlChunks : UInt16) (status : UpdateStatus) :
    (h.handleUpdateResponse answers totlChunks status).1.resent = h.resent := by
  unfold Host.handleUpdateResponse
  split
  · rfl
  · dsimp only
    split
    · rfl
    · rfl
    · rfl

private theorem handleCommandError_resent (cmd message : String) :
    (u.handleCommandError cmd message).host.resent = u.host.resent := by
  have reset : u.resetSession.host.resent = u.host.resent := by
    unfold resetSession
    split
    · rfl
    · rfl
  unfold handleCommandError skipToLabel
  split
  · exact reset
  · exact reset

private theorem fail_resent {returned : Bool} {cmd message : String} :
    (u.fail returned cmd message).updater.host.resent = u.host.resent :=
  handleCommandError_resent cmd message

private theorem runPackage_resent (name file : String) :
    (u.runPackage answers name file).updater.host.resent = u.host.resent := by
  unfold runPackage
  dsimp only
  split
  · rfl
  · exact fail_resent

private theorem runLabel_resent (step : String) :
    (u.runLabel answers step).updater.host.resent = u.host.resent := by
  unfold runLabel
  dsimp only
  split
  · rfl
  · rfl

private theorem runTarget_resent (name argument : String) :
    (u.runTarget answers name argument).updater.host.resent = u.host.resent := by
  unfold runTarget
  split
  · rfl
  · exact fail_resent

private theorem runOnError_resent (name label : String) :
    (u.runOnError name label).updater.host.resent = u.host.resent := by
  unfold runOnError
  split
  · rfl
  · exact fail_resent

private theorem runWaitfor_resent (name limit : String) (interval : Option String)
    (again : Bool) :
    (u.runWaitfor answers name limit interval again).updater.host.resent = u.host.resent := by
  unfold runWaitfor
  cases again with
  | true => rfl
  | false =>
    simp only [Bool.false_eq_true, ↓reduceIte]
    split
    · rfl
    split
    · rfl
    split
    · exact fail_resent
    split
    · rfl
    · rfl

private theorem uploadFlags_resent : u.uploadFlags.1.host.resent = u.host.resent := by
  unfold uploadFlags
  dsimp only
  split
  · rfl
  split
  · rfl
  split
  · split
    · rfl
    · rfl
  · rfl

private theorem initializeUpdate_resent (flags : UInt8) :
    (u.initializeUpdate answers flags).1.host.resent = u.host.resent := by
  unfold initializeUpdate
  split
  · rfl
  · rfl
  · rfl

private theorem runUpload_resent (name file : String) :
    (u.runUpload answers name file).updater.host.resent = u.host.resent := by
  have started (flags : UInt8) :
      ({ u with filename := file, host := u.host.resetEngine }.uploadFlags.1.initializeUpdate
        answers flags).1.host.resent = u.host.resent :=
    (initializeUpdate_resent flags).trans uploadFlags_resent
  unfold runUpload
  dsimp only
  split
  · exact fail_resent.trans (started _)
  · exact started _

private theorem runCommand_resent (cmd : String) :
    (u.runCommand answers cmd).1.host.resent = u.host.resent := by
  have popped (u : Updater) : u.pop.host.resent = u.host.resent := by
    unfold pop
    split
    · rfl
    · rfl
  unfold runCommand
  cases Command.decode cmd with
  | none => exact popped u
  | some decoded =>
    obtain ⟨name, command⟩ := decoded
    have performed :
        ((u.activate name).perform answers name command).updater.host.resent = u.host.resent := by
      unfold perform
      cases command with
      | package file => exact runPackage_resent name file
      | label step => exact runLabel_resent step
      | target argument => exact runTarget_resent name argument
      | onError label => exact runOnError_resent name label
      | waitfor limit interval again => exact runWaitfor_resent name limit interval again
      | upload file => exact runUpload_resent name file
      | _ => rfl
    dsimp only
    split
    · exact performed
    · exact (popped _).trans performed

private theorem attend_resent : (u.attend answers).1.host.resent = u.host.resent := by
  have retried : (u.retry answers).1.host.resent = u.host.resent := by rw [retry_host]
  unfold attend
  cases u.host.sessionStatus with
  | notStarted =>
    dsimp only
    split
    · exact retried
    · rfl
  | initializing | finalizing => rfl
  | ready | inProgress =>
    dsimp only
    split
    · obtain ⟨_, _, frame⟩ := u.host.sendNextChunk_frame answers.host
      show (u.host.sendNextChunk answers.host).1.resent = u.host.resent
      rw [frame]
      rfl
    · rfl
  | finished | errMaxChunkSize =>
    dsimp only
    split
    · rfl
    · rfl
  | _ => exact handleCommandError_resent ..

private theorem conclude_resent : (u.conclude answers).host.resent = u.host.resent := by
  have expired : (u.expire answers).host.resent = u.host.resent := by
    unfold expire
    split
    · rfl
    · rfl
  refine Eq.trans ?_ expired
  show (u.expire answers).closeSource.host.resent = _
  unfold closeSource
  split
  · rfl
  · rfl

private theorem step_resent : (u.step answers).1.host.resent = u.host.resent := by
  have attended := (@conclude_resent (u.attend answers).1 answers).trans attend_resent
  unfold step
  split
  · split
    · split
      · rfl
      · exact conclude_resent.trans (runCommand_resent _)
    · exact attended
  · exact attended

private theorem processMessage_host (payload : Payload) :
    (u.processMessage answers payload).1.host = (u.host.processMessage answers.host payload).1 := by
  unfold processMessage
  by_cases host : payload.targetDevice = targetHost
  case neg =>
    rw [if_pos host]
    unfold Host.processMessage
    rw [if_pos host]
  rw [if_neg (not_not.mpr host)]
  dsimp only [act]
  cases payload.message with
  | reqResendChunk sessionId chunkId reason =>
    dsimp only
    split
    · rfl
    · rfl
  | versionInfoResp resTarget info =>
    dsimp only
    unfold handleVersionResponse
    split
    · rfl
    · rfl
  | _ => rfl

/-- Only a resend request changes the bookkeeping. -/
theorem operate_resent (other : u.resend? operation = none) :
    (u.operate operation).1.host.resent = u.host.resent := by
  cases operation with
  | step answers => exact step_resent
  | receive answers payload =>
    show (u.processMessage answers payload).1.host.resent = u.host.resent
    rw [processMessage_host]
    obtain ⟨target, message⟩ := payload
    unfold Host.processMessage
    by_cases host : target = targetHost
    case neg => rw [if_pos host]
    rw [if_neg (not_not.mpr host)]
    cases message with
    | updateResp sessionId totlChunks status =>
      dsimp only
      split
      · exact handleUpdateResponse_resent ..
      · rfl
    | reqResendChunk sessionId chunkId reason =>
      have foreign : sessionId ≠ u.host.sessionId := by
        intro own
        simp [resend?, host, own] at other
      dsimp only
      rw [if_neg foreign]
      rfl
    | updateProgress | updateDone =>
      dsimp only
      split
      · rfl
      · rfl
    | _ => rfl

/-! ### What a request does -/

/-- The error that a host gives up with, which it does not without a reason. -/
def givingUp (status : UpdateStatus) : ResendReason → UpdateStatus
  | .none => status
  | .writeError => .errFlashWriteFailure
  | .invalidSeqId | .invalidSize => .errInvalidChunk

private theorem streak_cons (last : Resend) (past : List Resend) :
    streak (last :: past) = if last.chunkId = 0 then streak past + 1 else 0 := by
  by_cases zero : last.chunkId = 0
  · simp [streak, zero]
  · simp [streak, zero]

private theorem otherTime_cons (last : Resend) (past : List Resend) :
    otherTime (last :: past) = if last.chunkId = 0 then otherTime past else last.time := by
  by_cases zero : last.chunkId = 0
  · simp [otherTime, zero]
  · simp [otherTime, zero]

/-- A request in which the host has counted and timed the requests before it. -/
private theorem handleResendChunk_acts {h : Host} (answers : HostAnswers) (reason : ResendReason)
    (tracked : h.resent = (0, UInt16.ofNat (streak history), otherTime history)) {last : Resend}
    (time : last.time = answers.currentTimeMs) :
    (h.handleResendChunk answers last.chunkId reason).1.resent =
        (0, UInt16.ofNat (streak (last :: history)), otherTime (last :: history)) ∧
      (Exhausted (last :: history) →
        (h.handleResendChunk answers last.chunkId reason).1.sessionStatus =
          givingUp h.sessionStatus reason) ∧
      (¬Exhausted (last :: history) →
        (h.handleResendChunk answers last.chunkId reason).1.sessionStatus = h.sessionStatus) := by
  obtain ⟨chunk, count, clock⟩ : h.lastResentChunk = 0 ∧
      h.resentChunkidCount = UInt16.ofNat (streak history) ∧
      h.resentChunkidTime = otherTime history := by
    simpa [Host.resent] using tracked
  have exhausted_iff : Exhausted (last :: history) ↔ last.chunkId = 0 ∧
      10 < streak (last :: history) % 65536 ∧ 5000 < last.time - otherTime history := by
    refine ⟨?_, fun exhausted => ⟨last, history, rfl, exhausted⟩⟩
    rintro ⟨last, past, same, exhausted⟩
    obtain ⟨rfl, rfl⟩ := List.cons.inj same
    exact exhausted
  rw [exhausted_iff, streak_cons, otherTime_cons]
  unfold Host.handleResendChunk
  by_cases zero : last.chunkId = 0
  · have counted : (10 < h.resentChunkidCount + 1 ∧
        5000 < answers.currentTimeMs - h.resentChunkidTime) ↔
        10 < (streak history + 1) % 65536 ∧ 5000 < last.time - otherTime history := by
      rw [count, clock, time, UInt16.lt_iff_toNat_lt, UInt16.toNat_add, UInt16.toNat_ofNat']
      simp
    rw [if_pos (zero.trans chunk.symm), if_pos zero, if_pos zero, ← counted]
    dsimp only
    by_cases out : 10 < h.resentChunkidCount + 1 ∧
        5000 < answers.currentTimeMs - h.resentChunkidTime
    · rw [if_pos out]
      refine ⟨?_, fun _ => ?_, fun kept => absurd ⟨zero, out⟩ kept⟩
      · cases reason with
        | none | writeError | invalidSeqId | invalidSize =>
          simp [Host.resent, chunk, count, clock]
      · cases reason with
        | none | writeError | invalidSeqId | invalidSize => rfl
    · rw [if_neg out]
      obtain ⟨_, _, frame⟩ := Host.sendNextChunk_frame
        { h with resentChunkidCount := h.resentChunkidCount + 1 } answers
      rw [frame]
      refine ⟨?_, fun exhausted => absurd exhausted.2 out, fun _ => rfl⟩
      simp [Host.resent, chunk, count, clock]
  · obtain ⟨_, _, frame⟩ := Host.sendNextChunk_frame
      { h with resentChunkidCount := 0, resentChunkidTime := answers.currentTimeMs } answers
    rw [if_neg fun same => zero (same.trans chunk), if_neg zero, if_neg zero, frame]
    refine ⟨?_, fun exhausted => absurd exhausted.1 zero, fun _ => rfl⟩
    rw [time]
    simp [Host.resent, chunk]

/-- A request is counted, and turns the status into an error exactly if it exhausts the chunk. -/
theorem Tracks.request {resend : Resend} (tracked : Tracks history u)
    (requested : u.resend? operation = some resend) :
    Tracks (resend :: history) (u.operate operation).1 ∧
      (Exhausted (resend :: history) →
        (u.operate operation).1.host.sessionStatus =
          givingUp u.host.sessionStatus resend.reason) ∧
      (¬Exhausted (resend :: history) →
        (u.operate operation).1.host.sessionStatus = u.host.sessionStatus) := by
  cases operation with
  | step answers => cases requested
  | receive answers payload =>
    obtain ⟨target, message⟩ := payload
    cases message with
    | reqResendChunk sessionId chunkId reason =>
      simp only [resend?, Option.ite_none_right_eq_some] at requested
      obtain ⟨⟨host, own⟩, found⟩ := requested
      obtain rfl := Option.some.inj found
      have handled := @handleResendChunk_acts history
        { u.host with
          lastMessage := answers.host.currentTimeMs
          resendCount := u.host.resendCount + (u.host.nextChunkId.toUInt32 - chunkId.toUInt32)
          nextChunkId := chunkId } answers.host reason tracked
        { chunkId, reason, time := answers.clock .request } rfl
      have acted : (u.operate (.receive answers
          { targetDevice := target, message := .reqResendChunk sessionId chunkId reason })).1.host =
          (Host.handleResendChunk
            { u.host with
              lastMessage := answers.host.currentTimeMs
              resendCount := u.host.resendCount + (u.host.nextChunkId.toUInt32 - chunkId.toUInt32)
              nextChunkId := chunkId } answers.host chunkId reason).1 := by
        show (u.processMessage answers _).1.host = _
        rw [processMessage_host]
        unfold Host.processMessage
        rw [if_neg (not_not.mpr host)]
        dsimp only
        rw [if_pos own]
      unfold Tracks
      rw [acted]
      exact handled
    | _ => cases requested

/-! ### Runs -/

variable {devInfo : DevInfo} {gpxVersion : Option GpxVersion} {target : UInt32}
  {commands : List String}

/-- In every run of a new updater the requests are counted. -/
theorem tracks_run (operations : List Operation) :
    Tracks (resends (create devInfo gpxVersion target commands) operations)
      (run operate (create devInfo gpxVersion target commands) operations).1 := by
  refine noted_invariant ?_ rfl (Along.of_forall fun _ _ => trivial)
  intro history u operation tracked _
  cases requested : u.resend? operation with
  | none => exact (operate_resent requested).trans tracked
  | some resend => exact (tracked.request requested).1

theorem resends_append (before during : List Operation) :
    resends u (before ++ during) = resends (run operate u before).1 during ++ resends u before := by
  unfold resends
  rw [noted_append]
  generalize noted _ _ _ u before = history
  generalize (run operate u before).1 = u
  induction during generalizing u history with
  | nil => rfl
  | cons operation rest ih =>
    simp only [noted]
    rw [ih, ih ((u.resend? operation).toList ++ [])]
    simp

private theorem resends_concat {before : List Operation} {resend : Resend}
    (requested : (run operate u before).1.resend? operation = some resend) :
    resends u (before ++ [operation]) = resend :: resends u before := by
  rw [resends_append]
  simp [resends, noted, requested]

private theorem run_concat (before : List Operation) :
    (run operate u (before ++ [operation])).1 = ((run operate u before).1.operate operation).1 := by
  rw [run_append]
  rfl

private theorem exhausted_latest {resends : List Resend} (exhausted : Exhausted resends) :
    11 ≤ resends.length ∧ ∀ resend ∈ resends.take 11, resend.chunkId = 0 := by
  obtain ⟨-, -, -, -, counted, -⟩ := exhausted
  have long : 11 ≤ streak resends := by omega
  obtain ⟨rest, whole⟩ := List.takeWhile_prefix (l := resends) (·.chunkId = 0)
  have inside : resends.take 11 = (resends.takeWhile (·.chunkId = 0)).take 11 := by
    conv_lhs => rw [← whole]
    exact List.take_append_of_le_length long
  refine ⟨Nat.le_trans long (List.takeWhile_prefix _).length_le, fun resend member => ?_⟩
  rw [inside] at member
  simpa using List.mem_takeWhile_imp (List.mem_of_mem_take member)

private theorem givingUp_negative {reason : ResendReason} (reasoned : reason ≠ .none)
    (status : UpdateStatus) : (givingUp status reason).value < 0 := by
  cases reason with
  | none => exact absurd rfl reasoned
  | writeError | invalidSeqId | invalidSize => exact Int.negSucc_lt_zero _

/-- In every run of a new updater, a chunk that is requested again and again makes the session
fail if it is exhausted, and if nothing else makes it fail only then. A request that changes the
status is one of at least eleven for the same chunk. -/
theorem exhausted_gives_up (created : u = create devInfo gpxVersion target commands)
    {before during : List Operation} {chunkId : UInt16}
    (persists : Persists chunkId (resends (run operate u before).1 during)) :
    (u.ExhaustsWithin before during → u.FailsWithin before during) ∧
    ((run operate u before).1.Alive → Along operate OnlyResendFails (run operate u before).1 during →
      u.FailsWithin before during → u.ExhaustsWithin before during) ∧
    ∀ operations operation resend,
      (run operate u operations).1.resend? operation = some resend →
      (run operate u (operations ++ [operation])).1.host.sessionStatus ≠
        (run operate u operations).1.host.sessionStatus →
      11 ≤ (u.resends (operations ++ [operation])).length ∧
      ∀ other ∈ (u.resends (operations ++ [operation])).take 11,
        other.chunkId = resend.chunkId := by
  have request {operations operation resend}
      (requested : (run operate u operations).1.resend? operation = some resend) :=
    (created ▸ tracks_run operations : Tracks (u.resends operations) _).request requested
  refine ⟨?_, ?_, ?_⟩
  · rintro ⟨past, operation, later, rfl, requested, exhausted⟩
    obtain ⟨resend, requested⟩ := Option.ne_none_iff_exists'.mp requested
    rw [resends_concat requested] at exhausted
    have status := (request requested).2.1 exhausted
    have reasoned : resend.reason ≠ .none := by
      refine (persists.same resend ?_).2
      rw [run_append] at requested
      rw [← List.singleton_append, ← List.append_assoc, resends_append, resends_concat requested]
      simp
    refine ⟨past ++ [operation], later, by simp, ?_⟩
    rw [← List.append_assoc, run_concat, Alive, status]
    exact Int.not_le.mpr (givingUp_negative reasoned _)
  · rintro alive quiet ⟨past, later, rfl, failed⟩
    by_contra spared
    refine failed ?_
    clear failed
    induction past using List.reverseRecOn generalizing later with
    | nil => rwa [List.append_nil]
    | append_singleton past operation ih =>
      rw [List.append_assoc] at *
      have still := ih ([operation] ++ later) persists quiet spared
      rw [← List.append_assoc, run_concat]
      cases requested : (run operate u (before ++ past)).1.resend? operation with
      | none =>
        obtain ⟨-, now, -⟩ := Along.append.mp quiet
        rw [run_append] at requested still ⊢
        exact now requested still
      | some resend =>
        have kept := (request requested).2.2 fun exhausted => spared
          ⟨past, operation, later, rfl, by simp [requested], by rwa [resends_concat requested]⟩
        rwa [Alive, kept]
  · intro operations operation resend requested changed
    rw [run_concat] at changed
    have exhausted : Exhausted (resend :: u.resends operations) := by
      by_contra kept
      exact changed ((request requested).2.2 kept)
    rw [resends_concat requested]
    obtain ⟨long, zero⟩ := exhausted_latest exhausted
    refine ⟨long, fun other member => ?_⟩
    have first : resend.chunkId = 0 := zero resend (by simp)
    rw [zero other member, first]

/-- An updater that uploads an image of six bytes, one byte in a chunk. -/
def uploading : Updater :=
  create DevInfo.zero none 0x10 ["chunk=1", "upload=firmware.bin"]

/-- The upload starts, and the device accepts it. -/
def accepted : List Operation :=
  let start : UpdaterAnswers :=
    { UpdaterAnswers.atTime 3000 with source := .image [1, 2, 3, 4, 5, 6] { a := 0, b := 0, c := 0, d := 0 } }
  [.step start, .step start,
    .receive (.atTime 3001) { targetDevice := targetHost, message := .updateResp 1 6 .ready }]

/-- A device that cannot write a chunk requests it thirteen times in six seconds. -/
def rewriting (chunkId : UInt16) : List Operation :=
  (List.range 13).map fun attempt =>
    .receive (.atTime (UInt32.ofNat (4000 + 500 * attempt)))
      { targetDevice := targetHost, message := .reqResendChunk 1 chunkId .writeError }

/-- Chunk 0 is given up at the eleventh request. -/
theorem exhausted_gives_up_first : uploading.FailsWithin accepted (rewriting 0) := by
  have persists : Persists 0 (resends (run operate uploading accepted).1 (rewriting 0)) := by
    refine ⟨by decide +kernel, by decide +kernel, ?_⟩
    exact ⟨⟨0, .writeError, 4000⟩, ⟨0, .writeError, 10000⟩, by decide +kernel, by decide +kernel,
      by decide⟩
  refine (exhausted_gives_up rfl persists).1 ?_
  refine ⟨(rewriting 0).take 10, _, (rewriting 0).drop 11, rfl, by decide +kernel, ?_⟩
  exact ⟨⟨0, .writeError, 9000⟩, resends uploading (accepted ++ (rewriting 0).take 10),
    by decide +kernel, rfl, by decide +kernel, by decide +kernel⟩

/-- Chunk 5 is requested as often, and the session goes on. -/
theorem last_chunk_never_given_up :
    Persists 5 (resends (run operate uploading accepted).1 (rewriting 5)) ∧
      ¬uploading.FailsWithin accepted (rewriting 5) := by
  refine ⟨⟨by decide +kernel, by decide +kernel, ⟨5, .writeError, 4000⟩, ⟨5, .writeError, 10000⟩,
    by decide +kernel, by decide +kernel, by decide⟩, ?_⟩
  rintro ⟨past, later, same, failed⟩
  have alive : ∀ past ∈ (rewriting 5).inits, (run operate uploading (accepted ++ past)).1.Alive := by
    decide +kernel
  exact failed (alive past ((List.mem_inits ..).mpr ⟨later, same.symm⟩))

end Updater

end InertialSense.FirmwareUpdate
