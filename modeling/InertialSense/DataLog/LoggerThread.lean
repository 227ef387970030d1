import InertialSense.DataLog.DeviceLog
import InertialSense.Foundation.Queues
import InertialSense.Foundation.Run

/-! The logger of `InertialSense.cpp`: `StepLogger` queues packets, `LoggerThread` takes them out
and passes them on, and `DisableLogging` ends the thread. What is done under `m_logMutex` is one
step, and so is each group of statements outside of it. -/

namespace InertialSense.DataLog

open Foundation

/-- `cISLogger::eLogType`. -/
inductive LogType where
  | dat
  | raw
  | sdat
  | csv
  | kml
  | json
deriving DecidableEq

/-- Where `LoggerThread` is, with its `running`: at `SLEEP_MS` in front of the locked section,
behind this section, in front of `Update`, or at its end. -/
inductive ThreadPoint where
  | collecting
  | logging (running : Bool)
  | updating (running : Bool)
  | terminated
deriving DecidableEq

def ThreadPoint.running : ThreadPoint → Bool
  | .collecting => true
  | .logging running => running
  | .updating running => running
  | .terminated => false

/-- Where `DisableLogging` is: not called yet, in front of `EnableLogging(false)`, in
`threadJoinAndFree`, or at its end. -/
inductive DisablePoint where
  | notCalled
  | clearing
  | joining
  | returned
deriving DecidableEq

/-- What `InertialSense` keeps for its logger, the private map of `LoggerThread`, and the places
the two threads have reached. -/
structure LoggerState where
  logType : LogType
  enabled : Bool
  logThread : Bool
  logPackets : Queues Int Record
  packets : Queues Int Record
  thread : ThreadPoint
  disable : DisablePoint

/-- `StepLogger` has queued a packet, or `LoggerThread` has passed one to `m_logger.LogData`. -/
inductive LoggerEvent where
  | queued (pHandle : Int) (data : Record)
  | logged (pHandle : Int) (data : Record)
deriving DecidableEq

/-- The call or the thread that makes the next step. -/
inductive LoggerAction where
  | stepLogger (data : Record) (pHandle : Int)
  | loggerThread
  | disableLogging

namespace LoggerState

/-- After `EnableLogging`. -/
def enableLogging (logType : LogType) : LoggerState :=
  { logType
    enabled := true
    logThread := true
    logPackets := ∅
    packets := ∅
    thread := .collecting
    disable := .notCalled }

def stepLogger (s : LoggerState) (data : Record) (pHandle : Int) :
    LoggerState × List LoggerEvent :=
  if s.enabled then
    ({ s with logPackets := s.logPackets.pushBack pHandle data }, [.queued pHandle data])
  else (s, [])

/-- The locked section of `LoggerThread`. -/
def collect (s : LoggerState) : LoggerState :=
  { s with
    packets := s.packets.assign s.logPackets
    logPackets := ∅
    thread := .logging s.enabled }

def passed (s : LoggerState) : List LoggerEvent :=
  if s.logType ≠ .raw then s.packets.items.map fun item => .logged item.1 item.2 else []

/-- `LoggerThread` up to its next step. -/
def loggerThread (s : LoggerState) : LoggerState × List LoggerEvent :=
  match s.thread with
  | .collecting => (s.collect, [])
  | .logging true => ({ s with packets := s.packets.clear, thread := .updating true }, s.passed)
  | .logging false => ({ s with thread := .updating false }, [])
  | .updating true => ({ s with thread := .collecting }, [])
  | .updating false => ({ s with thread := .terminated }, [])
  | .terminated => (s, [])

/-- `DisableLogging` up to its next step; `threadJoinAndFree` waits for the end of the thread. -/
def disableLogging (s : LoggerState) : LoggerState :=
  match s.disable with
  | .notCalled =>
    if s.enabled ∨ s.logThread then { s with disable := .clearing }
    else { s with disable := .returned }
  | .clearing => { s with enabled := false, disable := .joining }
  | .joining =>
    if s.thread = .terminated then { s with logThread := false, disable := .returned } else s
  | .returned => s

def step (s : LoggerState) : LoggerAction → LoggerState × List LoggerEvent
  | .stepLogger data pHandle => s.stepLogger data pHandle
  | .loggerThread => s.loggerThread
  | .disableLogging => (s.disableLogging, [])

def queuedOf (port : Int) (events : List LoggerEvent) : List Record :=
  events.filterMap fun event =>
    match event with
    | .queued pHandle data => if pHandle = port then some data else none
    | .logged _ _ => none

/-- The packets of a port that were passed on. -/
def loggedOf (port : Int) (events : List LoggerEvent) : List Record :=
  events.filterMap fun event =>
    match event with
    | .queued _ _ => none
    | .logged pHandle data => if pHandle = port then some data else none

def inFlight (s : LoggerState) (port : Int) : List Record :=
  s.packets.queue port ++ s.logPackets.queue port

/-- What holds of every state: packets stay with the thread only while it is about to pass them
on or has seen that it is not to, and from then on none are queued. -/
structure Sound (s : LoggerState) : Prop where
  emptied : s.thread.running = true → s.thread ≠ .logging true → ∀ port, s.packets.queue port = []
  ended : s.thread.running = false → s.enabled = false ∧ ∀ port, s.logPackets.queue port = []
  cleared : s.enabled = false ↔ s.disable = .joining ∨ s.disable = .returned
  returned : s.disable = .returned → s.thread = .terminated
  started : s.disable ≠ .returned → s.logThread = true

section Steps

variable {s : LoggerState} {port : Int}

theorem enableLogging_sound (logType : LogType) : (enableLogging logType).Sound :=
  ⟨fun _ _ _ => Queues.queue_empty, fun ended => Bool.noConfusion ended, by simp [enableLogging],
    fun returned => DisablePoint.noConfusion returned, fun _ => rfl⟩

theorem Sound.running (sound : s.Sound) (enabled : s.enabled = true) : s.thread.running = true := by
  by_contra ended
  rw [(sound.ended (Bool.eq_false_of_not_eq_true ended)).1] at enabled
  cases enabled

theorem stepLogger_sound (sound : s.Sound) (data : Record) (pHandle : Int) :
    (s.stepLogger data pHandle).1.Sound := by
  unfold stepLogger
  split
  case isTrue enabled =>
    have running := sound.running enabled
    exact ⟨sound.emptied, fun ended => absurd (running.symm.trans ended) (by decide),
      sound.cleared, sound.returned, sound.started⟩
  case isFalse => exact sound

theorem loggerThread_sound (sound : s.Sound) : s.loggerThread.1.Sound := by
  have still (point : ThreadPoint) (here : s.thread = point) (more : point ≠ .terminated) :
      s.disable ≠ .returned := by
    intro returned
    exact more (here.symm.trans (sound.returned returned))
  unfold loggerThread
  split
  case h_1 point =>
    refine ⟨fun running other => absurd (congrArg ThreadPoint.logging running) other,
      fun ended => ⟨ended, fun _ => Queues.queue_empty⟩, sound.cleared,
      fun returned => absurd returned (still _ point (by decide)), sound.started⟩
  case h_2 point =>
    exact ⟨fun _ _ _ => Queues.queue_clear, fun ended => Bool.noConfusion ended, sound.cleared,
      fun returned => absurd returned (still _ point (by decide)), sound.started⟩
  case h_3 point =>
    have ended := sound.ended (congrArg ThreadPoint.running point)
    exact ⟨fun running => Bool.noConfusion running, fun _ => ended, sound.cleared,
      fun returned => absurd returned (still _ point (by decide)), sound.started⟩
  case h_4 point =>
    have running : s.thread.running = true := congrArg ThreadPoint.running point
    have emptied := sound.emptied running (by rw [point]; decide)
    exact ⟨fun _ _ => emptied, fun ended => Bool.noConfusion ended, sound.cleared,
      fun returned => absurd returned (still _ point (by decide)), sound.started⟩
  case h_5 point =>
    have ended := sound.ended (congrArg ThreadPoint.running point)
    exact ⟨fun running => Bool.noConfusion running, fun _ => ended, sound.cleared, fun _ => rfl,
      sound.started⟩
  case h_6 => exact sound

theorem disableLogging_sound (sound : s.Sound) : s.disableLogging.Sound := by
  unfold disableLogging
  split
  case h_1 point =>
    have started : s.enabled ∨ s.logThread := .inr (sound.started (by rw [point]; decide))
    have cleared := sound.cleared
    rw [point] at cleared
    rw [if_pos started]
    refine ⟨sound.emptied, sound.ended, cleared.trans (by simp), ?_, fun _ => ?_⟩
    · exact fun returned => DisablePoint.noConfusion returned
    · exact sound.started (by rw [point]; decide)
  case h_2 point =>
    have started := sound.started (by rw [point]; decide)
    refine ⟨sound.emptied, fun ended => ⟨rfl, (sound.ended ended).2⟩, by simp, ?_, fun _ => started⟩
    exact fun returned => DisablePoint.noConfusion returned
  case h_3 point =>
    have disabled := sound.cleared.mpr (.inl point)
    split
    case isTrue terminated =>
      exact ⟨sound.emptied, sound.ended, by simp [disabled], fun _ => terminated,
        fun more => absurd rfl more⟩
    case isFalse => exact sound
  case h_4 => exact sound

theorem step_sound (sound : s.Sound) (action : LoggerAction) : (s.step action).1.Sound := by
  cases action with
  | stepLogger data pHandle => exact stepLogger_sound sound data pHandle
  | loggerThread => exact loggerThread_sound sound
  | disableLogging => exact disableLogging_sound sound

theorem passed_logged (notRaw : s.logType ≠ .raw) :
    loggedOf port s.passed = s.packets.queue port := by
  unfold passed loggedOf
  rw [if_pos notRaw, List.filterMap_map]
  exact Queues.itemsOf_items

theorem passed_queued (s : LoggerState) (port : Int) : queuedOf port s.passed = [] := by
  unfold passed queuedOf
  split
  · rw [List.filterMap_map]
    exact List.filterMap_eq_nil_iff.mpr fun _ _ => rfl
  · rfl

/-- What a step passes on was next on its way, what it queues comes last. -/
def MovesOn (s : LoggerState) (next : LoggerState × List LoggerEvent) : Prop :=
  ∀ port, loggedOf port next.2 ++ next.1.inFlight port = s.inFlight port ++ queuedOf port next.2

theorem MovesOn.of_same {next : LoggerState} (same : ∀ port, next.inFlight port = s.inFlight port) :
    s.MovesOn (next, []) :=
  fun port => (same port).trans (List.append_nil _).symm

theorem queuedOf_singleton (pHandle : Int) (data : Record) :
    queuedOf port [.queued pHandle data] = if pHandle = port then [data] else [] := by
  unfold queuedOf
  split <;> simp_all

theorem stepLogger_movesOn (s : LoggerState) (data : Record) (pHandle : Int) :
    s.MovesOn (s.stepLogger data pHandle) := by
  unfold stepLogger
  split
  case isTrue =>
    intro port
    show [] ++ (s.packets.queue port ++ (s.logPackets.pushBack pHandle data).queue port) =
      s.packets.queue port ++ s.logPackets.queue port ++ queuedOf port [.queued pHandle data]
    rw [Queues.queue_pushBack, List.nil_append, ← List.append_assoc, queuedOf_singleton]
  case isFalse => exact .of_same fun _ => rfl

theorem loggerThread_movesOn (sound : s.Sound) (notRaw : s.logType ≠ .raw) :
    s.MovesOn s.loggerThread := by
  unfold loggerThread
  split
  case h_1 point =>
    have empty := sound.emptied (congrArg ThreadPoint.running point) (by rw [point]; decide)
    refine .of_same fun port => ?_
    show (s.packets.assign s.logPackets).queue port ++ (∅ : Queues Int Record).queue port =
      s.packets.queue port ++ s.logPackets.queue port
    rw [Queues.queue_assign empty, empty, Queues.queue_empty, List.append_nil, List.nil_append]
  case h_2 point =>
    intro port
    show loggedOf port s.passed ++ (s.packets.clear.queue port ++ s.logPackets.queue port) =
      s.packets.queue port ++ s.logPackets.queue port ++ queuedOf port s.passed
    rw [passed_logged notRaw, passed_queued, Queues.queue_clear, List.nil_append, List.append_nil]
  all_goals exact .of_same fun _ => rfl

theorem disableLogging_movesOn (s : LoggerState) : s.MovesOn (s.disableLogging, []) := by
  refine .of_same fun port => ?_
  unfold disableLogging
  split
  case h_1 => split <;> rfl
  case h_2 => rfl
  case h_3 => split <;> rfl
  case h_4 => rfl

theorem step_movesOn (sound : s.Sound) (notRaw : s.logType ≠ .raw) (action : LoggerAction) :
    s.MovesOn (s.step action) := by
  cases action with
  | stepLogger data pHandle => exact stepLogger_movesOn s data pHandle
  | loggerThread => exact loggerThread_movesOn sound notRaw
  | disableLogging => exact disableLogging_movesOn s

theorem step_logType (s : LoggerState) (action : LoggerAction) :
    (s.step action).1.logType = s.logType := by
  cases action with
  | stepLogger data pHandle =>
    show (s.stepLogger data pHandle).1.logType = _
    unfold stepLogger
    split <;> rfl
  | loggerThread =>
    show s.loggerThread.1.logType = _
    unfold loggerThread
    split <;> rfl
  | disableLogging =>
    show s.disableLogging.logType = _
    unfold disableLogging
    split
    case h_1 => split <;> rfl
    case h_2 => rfl
    case h_3 => split <;> rfl
    case h_4 => rfl

end Steps

section Runs

variable {s : LoggerState} {actions : List LoggerAction} {port : Int}

theorem queuedOf_append (first second : List LoggerEvent) :
    queuedOf port (first ++ second) = queuedOf port first ++ queuedOf port second :=
  List.filterMap_append

theorem loggedOf_append (first second : List LoggerEvent) :
    loggedOf port (first ++ second) = loggedOf port first ++ loggedOf port second :=
  List.filterMap_append

/-- Over any run, what was passed on and what is on its way is what was queued. -/
theorem run_movesOn (sound : s.Sound) (notRaw : s.logType ≠ .raw) (actions : List LoggerAction) :
    s.MovesOn ((run step s actions).1, (run step s actions).2.flatten) := by
  induction actions generalizing s with
  | nil => exact .of_same fun _ => rfl
  | cons action rest ih =>
    intro port
    have first := step_movesOn sound notRaw action port
    have later := ih (step_sound sound action) (by rwa [step_logType]) port
    dsimp only at later
    rw [run_cons]
    dsimp only
    rw [List.flatten_cons, loggedOf_append, queuedOf_append, List.append_assoc, later,
      ← List.append_assoc, first, List.append_assoc]

theorem run_sound (sound : s.Sound) (actions : List LoggerAction) :
    (run step s actions).1.Sound := by
  induction actions generalizing s with
  | nil => exact sound
  | cons action rest ih => exact ih (step_sound sound action)

/-- Nothing is passed on twice, and nothing out of order. -/
theorem logged_prefix {logType : LogType} (notRaw : logType ≠ .raw)
    (actions : List LoggerAction) (port : Int) :
    loggedOf port (run step (enableLogging logType) actions).2.flatten <+:
      queuedOf port (run step (enableLogging logType) actions).2.flatten := by
  have moved := run_movesOn (enableLogging_sound logType) notRaw actions port
  exact ⟨_, moved⟩

/-- The packets of a port that are lost if nothing is queued any more: those in the shared map as
long as the thread does not know that it is to end, and then those it has collected last. -/
def leftBehind (s : LoggerState) (port : Int) : List Record :=
  if s.thread.running then s.logPackets.queue port else s.packets.queue port

theorem step_leftBehind (sound : s.Sound) (disabled : s.enabled = false) (action : LoggerAction)
    (port : Int) :
    (s.step action).1.enabled = false ∧ (s.step action).1.leftBehind port = s.leftBehind port := by
  cases action with
  | stepLogger data pHandle =>
    have ignored : s.stepLogger data pHandle = (s, []) := by
      unfold stepLogger
      rw [disabled, if_neg Bool.false_ne_true]
    show (s.stepLogger data pHandle).1.enabled = false ∧
      (s.stepLogger data pHandle).1.leftBehind port = _
    rw [ignored]
    exact ⟨disabled, rfl⟩
  | loggerThread =>
    show s.loggerThread.1.enabled = false ∧ s.loggerThread.1.leftBehind port = _
    unfold loggerThread leftBehind
    split
    case h_1 point =>
      have empty := sound.emptied (congrArg ThreadPoint.running point) (by rw [point]; decide)
      refine ⟨disabled, ?_⟩
      rw [point]
      show (if s.enabled then (∅ : Queues Int Record).queue port
        else (s.packets.assign s.logPackets).queue port) = s.logPackets.queue port
      rw [disabled, if_neg Bool.false_ne_true, Queues.queue_assign empty]
    all_goals
      rw [‹s.thread = _›]
      exact ⟨disabled, rfl⟩
  | disableLogging =>
    show s.disableLogging.enabled = false ∧ s.disableLogging.leftBehind port = _
    unfold disableLogging
    split
    case h_1 => split <;> exact ⟨disabled, rfl⟩
    case h_2 => exact ⟨rfl, rfl⟩
    case h_3 => split <;> exact ⟨disabled, rfl⟩
    case h_4 => exact ⟨disabled, rfl⟩

theorem run_leftBehind (sound : s.Sound) (disabled : s.enabled = false)
    (actions : List LoggerAction) (port : Int) :
    (run step s actions).1.leftBehind port = s.leftBehind port := by
  induction actions generalizing s with
  | nil => rfl
  | cons action rest ih =>
    obtain ⟨disabled', same⟩ := step_leftBehind sound disabled action port
    exact (ih (step_sound sound action) disabled').trans same

/-- No packet waits in the shared map when `DisableLogging` clears the flag. -/
def Drained (s : LoggerState) (action : LoggerAction) : Prop :=
  action = .disableLogging → s.disable = .clearing → ∀ port, s.logPackets.queue port = []

theorem along_drained (disabled : s.disable = .joining ∨ s.disable = .returned) (sound : s.Sound)
    (actions : List LoggerAction) : Along step Drained s actions := by
  induction actions generalizing s with
  | nil => exact trivial
  | cons action rest ih =>
    refine ⟨fun _ clearing => ?_, ih ?_ (step_sound sound action)⟩
    · rw [clearing] at disabled
      simp at disabled
    · have off := sound.cleared.mpr disabled
      exact (step_sound sound action).cleared.mp (step_leftBehind sound off action 0).1

theorem step_clears {action : LoggerAction} (enabled : s.enabled = true)
    (disabled : (s.step action).1.enabled = false) :
    action = .disableLogging ∧ s.disable = .clearing := by
  cases action with
  | stepLogger data pHandle =>
    change (s.stepLogger data pHandle).1.enabled = false at disabled
    unfold stepLogger at disabled
    rw [if_pos enabled] at disabled
    exact absurd (enabled.symm.trans disabled) (by decide)
  | loggerThread =>
    change s.loggerThread.1.enabled = false at disabled
    have same : s.loggerThread.1.enabled = s.enabled := by
      unfold loggerThread
      split <;> rfl
    exact absurd (enabled.symm.trans (same.symm.trans disabled)) (by decide)
  | disableLogging =>
    change s.disableLogging.enabled = false at disabled
    refine ⟨rfl, ?_⟩
    by_contra other
    have same : s.disableLogging.enabled = s.enabled := by
      unfold disableLogging
      split
      case h_1 => split <;> rfl
      case h_2 clearing => exact absurd clearing other
      case h_3 => split <;> rfl
      case h_4 => rfl
    exact absurd (enabled.symm.trans (same.symm.trans disabled)) (by decide)

/-- The packets that are left behind in the end are those in the shared map when the flag is
cleared. -/
theorem along_drained_iff (sound : s.Sound) (enabled : s.enabled = true)
    (returned : (run step s actions).1.disable = .returned) :
    Along step Drained s actions ↔ ∀ port, (run step s actions).1.leftBehind port = [] := by
  induction actions generalizing s with
  | nil =>
    have disabled := sound.cleared.mpr (.inr returned)
    rw [enabled] at disabled
    cases disabled
  | cons action rest ih =>
    have sound' := step_sound sound action
    obtain on | off := Bool.eq_false_or_eq_true (s.step action).1.enabled
    · have kept : Drained s action := by
        rintro rfl clearing
        have off : s.disableLogging.enabled = false := by
          unfold disableLogging
          rw [clearing]
        exact absurd (on.symm.trans off) (by decide)
      exact (and_iff_right kept).trans (ih sound' on returned)
    · obtain ⟨rfl, clearing⟩ := step_clears enabled off
      have next : (s.step .disableLogging).1 = { s with enabled := false, disable := .joining } := by
        show s.disableLogging = _
        unfold disableLogging
        rw [clearing]
      have joining : (s.step .disableLogging).1.disable = .joining := by rw [next]
      have waiting (port : Int) :
          (run step s (.disableLogging :: rest)).1.leftBehind port = s.logPackets.queue port := by
        refine (run_leftBehind sound' off rest port).trans ?_
        rw [next]
        exact if_pos (sound.running enabled)
      refine (and_iff_left (along_drained (.inl joining) sound' rest)).trans ?_
      refine ⟨fun drained port => ?_, fun empty _ _ port => ?_⟩
      · rw [waiting, drained rfl clearing]
      · rw [← waiting, empty]

/-- When `DisableLogging` has returned, every packet that was queued has been passed on, once and
in the order of its port, if and only if none waited when the flag was cleared. -/
theorem all_logged_iff {logType : LogType} (notRaw : logType ≠ .raw)
    (returned : (run step (enableLogging logType) actions).1.disable = .returned) :
    (∀ port, loggedOf port (run step (enableLogging logType) actions).2.flatten =
        queuedOf port (run step (enableLogging logType) actions).2.flatten) ↔
      Along step Drained (enableLogging logType) actions := by
  have sound := enableLogging_sound logType
  have moved := run_movesOn sound notRaw actions
  have ended := run_sound sound actions
  rw [along_drained_iff sound rfl returned]
  refine forall_congr' fun port => ?_
  have off : (run step (enableLogging logType) actions).1.thread.running = false :=
    congrArg ThreadPoint.running (ended.returned returned)
  have left : (run step (enableLogging logType) actions).1.leftBehind port =
      (run step (enableLogging logType) actions).1.inFlight port := by
    unfold leftBehind inFlight
    rw [off, if_neg Bool.false_ne_true, (ended.ended off).2, List.append_nil]
  have whole : loggedOf port _ ++ _ = queuedOf port _ := moved port
  rw [left, ← whole]
  exact List.self_eq_append_right

def samplePacket (byte : UInt8) : Record :=
  { hdr := { id := 4, size := 1, offset := 0 }, data := [byte], sized := rfl }

/-- Two ports, with the flag cleared while the thread has packets to pass on. -/
def drainedRun : List LoggerAction :=
  [.stepLogger (samplePacket 1) 0, .stepLogger (samplePacket 2) 1, .disableLogging,
    .stepLogger (samplePacket 3) 0, .loggerThread, .disableLogging, .loggerThread, .loggerThread,
    .disableLogging, .loggerThread, .loggerThread, .loggerThread, .disableLogging]

theorem all_logged_drained :
    (run step (enableLogging .dat) drainedRun).1.disable = .returned ∧
      ∀ port, loggedOf port (run step (enableLogging .dat) drainedRun).2.flatten =
        queuedOf port (run step (enableLogging .dat) drainedRun).2.flatten := by
  have returned : (run step (enableLogging .dat) drainedRun).1.disable = .returned := by
    decide +kernel
  refine ⟨returned, (all_logged_iff (by decide) returned).mpr ?_⟩
  exact ⟨nofun, nofun, fun _ clearing => absurd clearing (by decide +kernel), nofun, nofun,
    fun _ _ _ => Queues.queue_empty, nofun, nofun,
    fun _ clearing => absurd clearing (by decide +kernel), nofun, nofun, nofun,
    fun _ clearing => absurd clearing (by decide +kernel), trivial⟩

/-- A packet is queued, and then the flag is cleared before the thread has looked. -/
def lostRun : List LoggerAction :=
  [.stepLogger (samplePacket 1) 0, .disableLogging, .disableLogging, .loggerThread,
    .loggerThread, .loggerThread, .disableLogging]

theorem last_packet_lost :
    (run step (enableLogging .dat) lostRun).1.disable = .returned ∧
      queuedOf 0 (run step (enableLogging .dat) lostRun).2.flatten = [samplePacket 1] ∧
      loggedOf 0 (run step (enableLogging .dat) lostRun).2.flatten = [] := by
  decide +kernel

end Runs

end LoggerState

end InertialSense.DataLog
