import InertialSense.FirmwareUpdate.Transition
import InertialSense.Foundation.Run
import Mathlib.Data.List.Induction

/-! When the device divides by zero. The divisor is the chunk size of the last request, whatever
that was answered with, and zero before the first one. -/

namespace InertialSense.FirmwareUpdate

open Foundation

/-- What the handlers divide by: `fwUpdate_handleInitialize` by the chunk size of a request that
`fwUpdate_startUpdate` grants, `fwUpdate_handleChunk` by that of the session, once the ids of a
chunk are those it waits for. -/
def Device.divisors (d : Device) (input : Answers × Payload) : List UInt16 :=
  if input.2.targetDevice ≠ d.sessionTarget then []
  else
    match input.2.message with
    | .reqUpdate request =>
      let s := d.toSession.startSession input.1 request
      if UpdateStatus.value .notStarted < s.sessionStatus.value then [s.sessionChunkSize] else []
    | .updateChunk chunk => if d.toSession.Awaits chunk then [d.sessionChunkSize] else []
    | _ => []

/-- The message makes one of the two handlers divide by zero. -/
def DividesByZero (d : Device) (input : Answers × Payload) : Prop := 0 ∈ d.divisors input

instance (d : Device) (input : Answers × Payload) : Decidable (DividesByZero d input) :=
  inferInstanceAs (Decidable (_ ∈ _))

section Step

variable {d : Device} {input : Answers × Payload}

private theorem zero_mem_ite {c : Prop} [Decidable c] {divisor : UInt16} :
    0 ∈ (if c then [divisor] else []) ↔ c ∧ divisor = 0 := by
  split
  case isTrue holds => exact List.mem_singleton.trans (eq_comm.trans (and_iff_right holds).symm)
  case isFalse fails => exact iff_of_false (List.not_mem_nil) fun both => fails both.1

theorem dividesByZero_iff : DividesByZero d input ↔
    (∃ request, input.2 = ⟨d.sessionTarget, .reqUpdate request⟩ ∧
      UpdateStatus.value .notStarted < input.1.startUpdate.value ∧ request.chunkSize = 0) ∨
    ∃ chunk, input.2 = ⟨d.sessionTarget, .updateChunk chunk⟩ ∧ d.toSession.Awaits chunk ∧
      d.sessionChunkSize = 0 := by
  obtain ⟨answers, target, message⟩ := input
  unfold DividesByZero Device.divisors
  by_cases foreign : target ≠ d.sessionTarget
  · rw [if_pos foreign]
    refine iff_of_false List.not_mem_nil ?_
    rintro (⟨request, same, -⟩ | ⟨chunk, same, -⟩)
    all_goals
      cases same
      exact foreign rfl
  rw [if_neg foreign]
  obtain rfl := not_not.mp foreign
  dsimp only
  cases message with
  | reqUpdate request =>
    obtain ⟨-, status, -, chunkSize, -⟩ := d.toSession.startSession_fields answers request
    dsimp only
    rw [zero_mem_ite, status, chunkSize]
    constructor
    · exact fun zero => .inl ⟨request, rfl, zero⟩
    · rintro (⟨other, same, zero⟩ | ⟨chunk, same, -⟩)
      · cases same
        exact zero
      · cases same
  | updateChunk chunk =>
    refine zero_mem_ite.trans ⟨fun zero => .inr ⟨chunk, rfl, zero⟩, ?_⟩
    rintro (⟨request, same, -⟩ | ⟨other, same, zero⟩)
    · cases same
    · cases same
      exact zero
  | _ =>
    refine iff_of_false List.not_mem_nil ?_
    rintro (⟨request, same, -⟩ | ⟨chunk, same, -⟩) <;> cases same

theorem remainderByZero_iff : Effect.remainderByZero ∈ (d.step input).2 ↔
    DividesByZero d input ∧ ∃ chunk, input.2.message = .updateChunk chunk := by
  refine Device.processMessage_trap_iff.trans ?_
  rw [dividesByZero_iff]
  constructor
  · rintro ⟨chunk, same, zero⟩
    exact ⟨.inr ⟨chunk, same, zero⟩, chunk, by rw [same]⟩
  · rintro ⟨⟨request, same, -⟩ | zero, chunk, message⟩
    · rw [same] at message
      cases message
    · exact zero

end Step

def requestFor (target : UInt32) (input : Answers × Payload) : Option UpdateRequest :=
  match input.2.message with
  | .reqUpdate request => if input.2.targetDevice = target then some request else none
  | _ => none

def lastRequest (target : UInt32) (inputs : List (Answers × Payload)) : Option UpdateRequest :=
  (inputs.filterMap (requestFor target)).getLast?

/-- After these messages for the target, the next one is no request for chunks of size zero that
is granted, and no first chunk with the session id of the last request (zero, if there was none)
unless that request was for chunks of another size than zero. -/
structure Divisible (target : UInt32) (before : List (Answers × Payload))
    (input : Answers × Payload) : Prop where
  request : ∀ request, input.2 = ⟨target, .reqUpdate request⟩ →
    UpdateStatus.value .notStarted < input.1.startUpdate.value → request.chunkSize ≠ 0
  chunk : ∀ chunk, input.2 = ⟨target, .updateChunk chunk⟩ → chunk.chunkId = 0 →
    chunk.sessionId = (lastRequest target before).elim 0 UpdateRequest.sessionId →
    ∃ request ∈ lastRequest target before, request.chunkSize ≠ 0

/-- The session is that of the last request. No chunk of size zero is ever stored. -/
private structure Follows (target : UInt32) (last : Option UpdateRequest) (s : Session) :
    Prop where
  target : s.sessionTarget = target
  sessionId : s.sessionId = last.elim 0 UpdateRequest.sessionId
  chunkSize : s.sessionChunkSize = last.elim 0 UpdateRequest.chunkSize
  unstored : s.sessionChunkSize = 0 → s.lastChunkId = -1

section Run

variable {target : UInt32} {last : Option UpdateRequest}

private theorem requestFor_eq_some {input : Answers × Payload} {request : UpdateRequest} :
    requestFor target input = some request ↔ input.2 = ⟨target, .reqUpdate request⟩ := by
  obtain ⟨answers, device, message⟩ := input
  unfold requestFor
  cases message <;> simp [and_comm]

private theorem step_follows {d : Device} (follows : Follows target last d.toSession)
    (input : Answers × Payload) :
    Follows target ((requestFor target input).or last) (d.step input).1.toSession := by
  obtain ⟨answers, payload⟩ := input
  obtain ⟨rfl, sessionId, chunkSize, unstored⟩ := follows
  have other (unrequested : ∀ request, payload ≠ ⟨d.sessionTarget, .reqUpdate request⟩) :
      requestFor d.sessionTarget (answers, payload) = none :=
    Option.eq_none_iff_forall_ne_some.mpr fun request found =>
      unrequested request (requestFor_eq_some.mp found)
  have chunkOnly {chunk : Chunk} (addressed : payload = ⟨d.sessionTarget, .updateChunk chunk⟩) :
      requestFor d.sessionTarget (answers, payload) = none := by
    rw [addressed]
    rfl
  have moved := d.processMessage_transition answers payload
  dsimp only [Device.step]
  generalize (d.processMessage answers payload).effects.filter Effect.notable = notable at moved
  generalize (d.processMessage answers payload).device.toSession = after at moved ⊢
  cases moved with
  | kept unrequested =>
    rw [other unrequested]
    exact ⟨rfl, sessionId, chunkSize, unstored⟩
  | requested request addressed =>
    obtain ⟨device, -, id, size, -, none, -⟩ := d.toSession.startSession_fields answers request
    rw [requestFor_eq_some.mpr addressed]
    exact ⟨device, id, size, fun _ => none⟩
  | failed chunk addressed =>
    rw [chunkOnly addressed]
    exact ⟨rfl, sessionId, chunkSize, unstored⟩
  | stored chunk addressed awaited sized =>
    rw [chunkOnly addressed]
    exact ⟨rfl, sessionId, chunkSize, fun zero => absurd zero sized.1⟩
  | completed chunk addressed awaited sized =>
    rw [chunkOnly addressed, Session.verifyImage_fields]
    exact ⟨rfl, sessionId, chunkSize, fun zero => absurd zero sized.1⟩

private theorem run_follows (target : UInt32) (inputs : List (Answers × Payload)) :
    Follows target (lastRequest target inputs)
      (run Device.step (Device.create target) inputs).1.toSession := by
  induction inputs using List.reverseRecOn with
  | nil => exact ⟨rfl, rfl, rfl, fun _ => rfl⟩
  | append_singleton before input ih =>
    have last : lastRequest target (before ++ [input]) =
        (requestFor target input).or (lastRequest target before) := by
      unfold lastRequest
      rw [List.filterMap_append, List.getLast?_append]
      cases found : requestFor target input with
      | none => simp [found]
      | some request => simp [found]
    rw [run_append, last]
    exact step_follows ih input

/-- One message, after any others. -/
private theorem dividesByZero_iff_not_divisible (target : UInt32)
    (before : List (Answers × Payload)) (input : Answers × Payload) :
    DividesByZero (run Device.step (Device.create target) before).1 input ↔
      ¬Divisible target before input := by
  obtain ⟨device, sessionId, chunkSize, unstored⟩ := run_follows target before
  rw [dividesByZero_iff, device]
  constructor
  · rintro (⟨request, addressed, granted, zero⟩ | ⟨chunk, addressed, awaited, zero⟩) divisible
    · exact divisible.request request addressed granted zero
    · have first : chunk.chunkId = 0 := by
        rw [awaited.2, unstored zero]
        rfl
      obtain ⟨request, last, nonzero⟩ :=
        divisible.chunk chunk addressed first (awaited.1.trans sessionId)
      rw [chunkSize, last] at zero
      exact nonzero zero
  · intro indivisible
    by_contra whole
    obtain ⟨requests, chunks⟩ := not_or.mp whole
    refine indivisible ⟨fun request addressed granted zero => ?_, fun chunk addressed first id => ?_⟩
    · exact requests ⟨request, addressed, granted, zero⟩
    · by_contra none
      have zero : (run Device.step (Device.create target) before).1.sessionChunkSize = 0 := by
        rw [chunkSize]
        cases last : lastRequest target before with
        | none => rfl
        | some request =>
          exact not_not.mp fun nonzero => none ⟨request, last, nonzero⟩
      refine chunks ⟨chunk, addressed, ⟨id.trans sessionId.symm, ?_⟩, zero⟩
      rw [first, unstored zero]
      rfl

/-- Exactly when no message of a run makes the device divide by zero. -/
theorem run_divides_iff (target : UInt32) (inputs : List (Answers × Payload)) :
    Along Device.step (fun d input => ¬DividesByZero d input) (Device.create target) inputs ↔
      ∀ before input after, inputs = before ++ input :: after → Divisible target before input := by
  rw [Along.iff_forall]
  refine forall_congr' fun before => forall_congr' fun input => forall_congr' fun after => ?_
  rw [dividesByZero_iff_not_divisible, not_not]

end Run

/-- The first chunk of the session zero arrives before any request. -/
theorem divides_without_request :
    ¬Along Device.step (fun d input => ¬DividesByZero d input) (Device.create 0x10)
      [sampleChunk 0 0 7] := by
  decide

end InertialSense.FirmwareUpdate
