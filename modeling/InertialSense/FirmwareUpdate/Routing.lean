import InertialSense.FirmwareUpdate.Updater

/-! Where the queue goes on after an error. `handleCommandError` leaves the label at the front,
but the end of `runCommand` removes the command that is there. -/

namespace InertialSense.FirmwareUpdate

open Foundation

/-- The commands after the label. -/
def afterLabel (label : String) (queue : List String) : List String :=
  (queue.dropWhile (· ≠ label)).tail

namespace Updater

def frontName (u : Updater) : Option String :=
  u.commands.head?.bind fun cmd => (Command.decode cmd).map Prod.fst

/-- The next step that does not pause executes the label, no run executes another command
before it, and what comes after the label stays. -/
structure Routed (u : Updater) (label : String) (queue : List String) : Prop where
  next : ∀ answers, ¬u.Paused answers → (u.step answers).2.head? = some (.executes label)
  first : ∀ operations, ∀ cmd ∈ firstExecuted (run operate u operations).2.flatten, cmd = label
  kept : afterLabel label queue <:+ u.commands

variable {u : Updater} {answers : UpdaterAnswers} {cmd name label : String} {queue : List String}

/-! ### Where errors are raised -/

private theorem OnlySends.not_raises {events : List UpdaterEvent} (sends : OnlySends events) :
    .raises cmd queue label ∉ events := by
  intro raised
  obtain ⟨payload, same⟩ := sends _ raised
  cases same

def Handles (after : Updater) (cmd : String) (queue : List String) (label : String) : Prop :=
  ∃ (before : Updater) (message : String), queue = before.commands ∧ label = before.failLabel ∧
    after = before.handleCommandError cmd message

/-- An error that a branch raises has the name of the command; `runCommand` returns there or
not. -/
def Ran.FailsAs (ran : Ran) (name : String) (returned : Bool) : Prop :=
  ∀ cmd queue label, .raises cmd queue label ∈ ran.events →
    cmd = name ∧ ran.returned = returned ∧ ran.updater.Handles cmd queue label

private theorem fail_failsAs {returned : Bool} {message : String} :
    (u.fail returned name message).FailsAs name returned := by
  intro cmd queue label raised
  obtain ⟨rfl, rfl, rfl⟩ := UpdaterEvent.raises.inj (List.mem_singleton.mp raised)
  exact ⟨rfl, rfl, u, message, rfl, rfl, rfl⟩

private theorem OnlySends.failsAs {ran : Ran} (sends : OnlySends ran.events) (returned : Bool) :
    ran.FailsAs name returned :=
  fun _ _ _ raised => absurd raised sends.not_raises

private theorem write_sends (payload : Payload) : OnlySends (u.write answers payload).2 := by
  unfold write
  dsimp only
  split
  · intro event sent
    exact ⟨_, List.mem_singleton.mp sent⟩
  · exact OnlySends.nil

private theorem runPackage_fails (file : String) :
    (u.runPackage answers name file).FailsAs name false := by
  unfold runPackage
  dsimp only
  split
  · exact OnlySends.nil.failsAs false
  · exact fail_failsAs

private theorem runTarget_fails (argument : String) :
    (u.runTarget answers name argument).FailsAs name false := by
  unfold runTarget
  split
  · exact OnlySends.nil.failsAs false
  · exact fail_failsAs

private theorem runOnError_fails (label : String) :
    (u.runOnError name label).FailsAs name false := by
  unfold runOnError
  split
  · exact OnlySends.nil.failsAs false
  · exact fail_failsAs

private theorem runWaitfor_fails (limit : String) (interval : Option String) (again : Bool) :
    (u.runWaitfor answers name limit interval again).FailsAs name true := by
  unfold runWaitfor
  generalize (if again then _ else u) = u
  dsimp only
  split
  · exact OnlySends.nil.failsAs true
  split
  · exact OnlySends.nil.failsAs true
  split
  · exact fail_failsAs
  split
  · exact (write_sends _).failsAs true
  · exact OnlySends.nil.failsAs true

private theorem initializeUpdate_sends (flags : UInt8) :
    OnlySends (u.initializeUpdate answers flags).2.2 := by
  unfold initializeUpdate
  split
  · exact OnlySends.nil
  · exact OnlySends.nil
  · dsimp only
    exact (act_keeps _).2

private theorem runUpload_fails (file : String) :
    (u.runUpload answers name file).FailsAs name false := by
  unfold runUpload
  dsimp only
  split
  · exact fail_failsAs
  · exact (initializeUpdate_sends _).failsAs false

/-- Only `waitfor` returns after an error. -/
theorem perform_fails {command : Command} (keyed : command.Keyed name) :
    (u.perform answers name command).FailsAs name (decide (name = "waitfor")) := by
  unfold perform
  cases command with
  | package file =>
    obtain rfl : "package" = name := Option.some.inj (keyed.resolve_left nofun)
    exact runPackage_fails file
  | target argument =>
    obtain rfl : "target" = name := Option.some.inj (keyed.resolve_left nofun)
    exact runTarget_fails argument
  | onError label =>
    obtain rfl : "on-error" = name := Option.some.inj (keyed.resolve_left nofun)
    exact runOnError_fails label
  | waitfor limit interval again =>
    obtain rfl : "waitfor" = name := Option.some.inj (keyed.resolve_left nofun)
    exact runWaitfor_fails limit interval again
  | upload file =>
    obtain rfl : "upload" = name := Option.some.inj (keyed.resolve_left nofun)
    exact runUpload_fails file
  | reset hard => exact (write_sends _).failsAs _
  | _ => exact OnlySends.nil.failsAs _

private theorem runCommand_raises (raised : .raises cmd queue label ∈ (u.runCommand answers name).2) :
    ∃ handled : Updater, handled.Handles cmd queue label ∧
      (u.runCommand answers name).1 =
        if (Command.decode name).map Prod.fst ≠ some "waitfor" then handled.pop else handled := by
  unfold runCommand at raised ⊢
  cases decoded : Command.decode name with
  | none =>
    rw [decoded] at raised
    cases List.mem_singleton.mp raised
  | some found =>
    obtain ⟨word, command⟩ := found
    rw [decoded] at raised
    have inside : .raises cmd queue label ∈
        ((u.activate word).perform answers word command).events := by
      rcases List.mem_cons.mp raised with same | inside
      · cases same
      · exact inside
    obtain ⟨rfl, returned, handled⟩ := perform_fails (Command.decode_keyed decoded) _ _ _ inside
    refine ⟨_, handled, ?_⟩
    dsimp only
    rw [returned]
    by_cases waits : cmd = "waitfor"
    · simp [waits]
    · simp [waits]

/-- An error of the session, or of `waitfor`, leaves the queue as it is handled; after an error
of another command the front is removed. -/
theorem step_raises (raised : .raises cmd queue label ∈ (u.step answers).2) :
    ∃ handled : Updater, handled.Handles cmd queue label ∧
      (u.step answers).1 =
        (if u.Idle ∧ u.frontName ≠ some "waitfor" then handled.pop else handled).conclude answers := by
  by_cases idle : u.Idle
  · cases queued : u.commands with
    | nil =>
      rw [step_of_empty queued] at raised
      rcases @attend_cases u answers with ⟨failed, -⟩ | ⟨-, -, sends⟩
      · exact absurd idle failed.not_idle
      · exact absurd raised sends.not_raises
    | cons front rest =>
      have named : u.frontName = (Command.decode front).map Prod.fst := by
        unfold frontName
        rw [queued]
        rfl
      by_cases paused : u.Paused answers
      · rw [step_of_paused idle queued paused] at raised
        cases raised
      · rw [step_of_idle idle queued paused] at raised ⊢
        obtain ⟨handled, handles, ran⟩ := runCommand_raises raised
        refine ⟨handled, handles, ?_⟩
        rw [ran, named]
        simp only [idle, true_and]
  · rw [step_of_not_idle idle] at raised ⊢
    rcases @attend_cases u answers with ⟨-, attended⟩ | ⟨-, -, sends⟩
    · rw [attended] at raised ⊢
      obtain ⟨rfl, rfl, rfl⟩ := UpdaterEvent.raises.inj (List.mem_singleton.mp raised)
      refine ⟨_, ⟨u, failureMessage u.host.sessionStatus, rfl, rfl, rfl⟩, ?_⟩
      rw [if_neg (fun both => idle both.1)]
    · exact absurd raised sends.not_raises

/-! ### Until the next command -/

/-- The label is at the front, and errors lead to it. -/
structure AtLabel (u : Updater) (label : String) : Prop where
  labelled : label ≠ ""
  failLabel : u.failLabel = label
  front : u.commands.head? = some label

private theorem AtLabel.of_keeps (here : u.AtLabel label) {after : Updater} (keeps : u.Keeps after) :
    after.AtLabel label := by
  refine ⟨here.labelled, keeps.failLabel.trans here.failLabel, ?_⟩
  rw [keeps.commands]
  exact here.front

private theorem AtLabel.handleCommandError (here : u.AtLabel label) (cmd message : String) :
    (u.handleCommandError cmd message).AtLabel label := by
  obtain ⟨labelled, failLabel, front⟩ := here
  obtain ⟨rest, queued⟩ := List.head?_eq_some_iff.mp front
  refine ⟨labelled, (handleCommandError_failLabel ..).trans failLabel, ?_⟩
  rw [handleCommandError_commands (failLabel ▸ labelled), failLabel, queued,
    List.dropWhile_cons_of_neg (by simp)]
  rfl

private theorem AtLabel.operate (here : u.AtLabel label) (operation : Operation) :
    firstExecuted (u.operate operation).2 = some label ∨
      firstExecuted (u.operate operation).2 = none ∧ (u.operate operation).1.AtLabel label := by
  cases operation with
  | receive answers payload =>
    obtain ⟨keeps, sends⟩ := @processMessage_keeps u answers payload
    exact .inr ⟨sends.firstExecuted, here.of_keeps keeps⟩
  | step answers =>
    show firstExecuted (u.step answers).2 = some label ∨
      firstExecuted (u.step answers).2 = none ∧ (u.step answers).1.AtLabel label
    by_cases idle : u.Idle
    · obtain ⟨rest, queued⟩ := List.head?_eq_some_iff.mp here.front
      by_cases paused : u.Paused answers
      · rw [step_of_paused idle queued paused]
        exact .inr ⟨rfl, here⟩
      · obtain ⟨events, executed⟩ := @runCommand_executes u.resume answers label
        rw [step_of_idle idle queued paused, executed]
        exact .inl rfl
    · rw [step_of_not_idle idle]
      rcases @attend_cases u answers with ⟨-, attended⟩ | ⟨-, keeps, sends⟩
      · rw [attended]
        exact .inr ⟨rfl, (here.handleCommandError "upload" _).of_keeps conclude_keeps⟩
      · exact .inr ⟨sends.firstExecuted, (here.of_keeps keeps).of_keeps conclude_keeps⟩

private theorem AtLabel.run (here : u.AtLabel label) (operations : List Operation) :
    ∀ cmd ∈ firstExecuted (Foundation.run Updater.operate u operations).2.flatten, cmd = label := by
  induction operations generalizing u with
  | nil => exact nofun
  | cons operation rest ih =>
    rw [run_cons, List.flatten_cons, firstExecuted_append]
    rcases here.operate operation with executed | ⟨nothing, there⟩
    · rw [executed]
      intro cmd member
      exact (Option.some.inj member).symm
    · rw [nothing]
      exact ih there

/-! ### After an error -/

private theorem dropWhile_label (present : label ∈ queue) :
    queue.dropWhile (· ≠ label) = label :: afterLabel label queue := by
  unfold afterLabel
  induction queue with
  | nil => cases present
  | cons front rest ih =>
    by_cases same : front = label
    · rw [List.dropWhile_cons_of_neg (by simp [same]), same]
      rfl
    · rw [List.dropWhile_cons_of_pos (by simp [same])]
      exact ih ((List.mem_cons.mp present).resolve_left (Ne.symm same))

/-- An idle updater that errors lead to the label of goes on with it exactly if it is at the
front. -/
private theorem routed_iff (idle : u.Idle) (labelled : label ≠ "") (failLabel : u.failLabel = label)
    (kept : afterLabel label queue <:+ u.commands) :
    u.Routed label queue ↔ u.commands.head? = some label := by
  constructor
  · intro routed
    have awake : ¬u.Paused (.atTime u.pauseUntil) := fun paused => UInt32.lt_irrefl _ paused.2
    have next := routed.next _ awake
    cases queued : u.commands with
    | nil =>
      rw [step_of_empty queued] at next
      rcases @attend_cases u (.atTime u.pauseUntil) with ⟨failed, -⟩ | ⟨-, -, sends⟩
      · exact absurd idle failed.not_idle
      · obtain ⟨payload, same⟩ := sends _ (List.mem_of_mem_head? next)
        cases same
    | cons front rest =>
      obtain ⟨events, executed⟩ := @runCommand_executes u.resume (.atTime u.pauseUntil) front
      rw [step_of_idle idle queued awake, executed] at next
      exact congrArg some (UpdaterEvent.executes.inj (Option.some.inj next))
  · intro front
    obtain ⟨rest, queued⟩ := List.head?_eq_some_iff.mp front
    refine ⟨fun answers awake => ?_, AtLabel.run ⟨labelled, failLabel, front⟩, kept⟩
    obtain ⟨events, executed⟩ := @runCommand_executes u.resume answers label
    rw [step_of_idle idle queued awake, executed]
    rfl

private theorem pop_frame {front : String} {rest : List String} (queued : u.commands = front :: rest) :
    u.pop.commands = rest ∧ u.pop.failLabel = u.failLabel ∧ u.pop.host = u.host ∧
      u.pop.requestPending = u.requestPending := by
  unfold pop
  rw [queued]
  exact ⟨rfl, rfl, rfl, rfl⟩

end Updater

/-- An error with a label that is in the queue leads to the label exactly if it is an error of
the session or of `waitfor`, or the label comes twice in a row. -/
theorem error_routed_iff {u : Updater} {answers : UpdaterAnswers} {cmd label : String}
    {queue : List String} (raised : .raises cmd queue label ∈ (u.step answers).2)
    (labelled : label ≠ "") (present : label ∈ queue) :
    (u.step answers).1.Routed label queue ↔
      (u.Idle → u.frontName = some "waitfor" ∨ (afterLabel label queue).head? = some label) := by
  obtain ⟨_, ⟨before, message, rfl, rfl, rfl⟩, after⟩ := Updater.step_raises raised
  have idle := Updater.handleCommandError_idle (List.ne_nil_of_mem present) cmd message
  have failLabel := @Updater.handleCommandError_failLabel before cmd message
  have commands := Updater.handleCommandError_commands labelled cmd message
  rw [Updater.dropWhile_label present] at commands
  generalize before.handleCommandError cmd message = handled at idle failLabel commands after
  rw [after]
  by_cases popped : u.Idle ∧ u.frontName ≠ some "waitfor"
  · rw [if_pos popped]
    obtain ⟨rest, label, host, pending⟩ := Updater.pop_frame commands
    have popIdle : handled.pop.Idle := ⟨host ▸ idle.1, pending ▸ idle.2⟩
    have keeps := @Updater.conclude_keeps handled.pop answers
    rw [Updater.routed_iff popIdle.conclude labelled (keeps.failLabel.trans (label.trans failLabel))
      (by simp [keeps.commands, rest]), keeps.commands, rest]
    constructor
    · exact fun next _ => .inr next
    · exact fun routes => (routes popped.1).resolve_left popped.2
  · rw [if_neg popped]
    have keeps := @Updater.conclude_keeps handled answers
    rw [Updater.routed_iff idle.conclude labelled (keeps.failLabel.trans failLabel)
      (by simp [keeps.commands, commands]), keeps.commands, commands]
    refine ⟨fun _ idle => .inl ?_, fun _ => rfl⟩
    by_contra other
    exact popped ⟨idle, other⟩

/-- The label for errors is set, and the updater waits for a device. -/
def beforeTimeout : Updater :=
  (run Updater.operate
    (Updater.create DevInfo.zero none 0
      ["on-error=:FIX", "waitfor=10", "slot=1", ":FIX", "echo=done"])
    [.step (.atTime 1), .step (.atTime 1)]).1

theorem error_routed_iff_waitfor :
    (beforeTimeout.step (.atTime 100)).1.Routed ":FIX"
      ["waitfor=10", "slot=1", ":FIX", "echo=done"] := by
  have raised : .raises "waitfor" ["waitfor=10", "slot=1", ":FIX", "echo=done"] ":FIX" ∈
      (beforeTimeout.step (.atTime 100)).2 := by decide +kernel
  exact (error_routed_iff raised (by decide) (by decide)).mpr fun _ => .inl (by decide +kernel)

/-- The label for errors is set, and the target of the next command is not known. -/
def beforeTarget : Updater :=
  (run Updater.operate
    (Updater.create DevInfo.zero none 0
      ["on-error=:FIX", "target=NONE", "slot=1", ":FIX", "echo=done"]) [.step (.atTime 1)]).1

/-- The command after the label is executed next, and the label never. -/
theorem label_skipped :
    .raises "target" ["target=NONE", "slot=1", ":FIX", "echo=done"] ":FIX" ∈
        (beforeTarget.step (.atTime 1)).2 ∧
      ¬(beforeTarget.step (.atTime 1)).1.Routed ":FIX"
        ["target=NONE", "slot=1", ":FIX", "echo=done"] := by
  refine ⟨by decide +kernel, fun routed => ?_⟩
  have next : ((beforeTarget.step (.atTime 1)).1.step (.atTime 1)).2.head? =
      some (.executes "echo=done") := by decide +kernel
  have label := routed.next (.atTime 1) (by decide +kernel)
  rw [next] at label
  exact absurd label (by decide)

end InertialSense.FirmwareUpdate
