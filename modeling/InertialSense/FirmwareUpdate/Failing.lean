import InertialSense.FirmwareUpdate.Updater

/-! How a failed upload ends. `handleCommandError` resets the session only while there are
commands left; after the last one the error stays and is entered again and again. -/

namespace InertialSense.FirmwareUpdate

open Foundation

namespace Updater

/-- The updater goes on with the next command, or is done. -/
def Settled (u : Updater) : Prop := u.commands ≠ [] ∧ u.Idle ∨ u.isDone = true

/-- The next step settles a failed session, and all the steps until another command is executed
enter one error. -/
structure EndsOnce (u : Updater) : Prop where
  settles : ∀ answers, (u.step answers).1.Settled
  entered : ∃ entry, ∀ answers later,
    firstExecuted (run step u (answers :: later)).2.flatten = none →
      (run step u (answers :: later)).1.stepErrors = u.stepErrors ++ [entry]

variable {u : Updater} {answers : UpdaterAnswers}

private theorem step_of_failed (failed : u.Failed) (answers : UpdaterAnswers) :
    u.step answers =
      ((u.handleCommandError "upload" (failureMessage u.host.sessionStatus)).conclude answers,
        [.raises "upload" u.commands u.failLabel]) := by
  rw [step_of_not_idle failed.not_idle]
  rcases @attend_cases u answers with ⟨-, attended⟩ | ⟨sound, -⟩
  · rw [attended]
  · exact absurd failed sound

private theorem step_of_failed_stepErrors (failed : u.Failed) (answers : UpdaterAnswers) :
    (u.step answers).1.stepErrors =
      u.stepErrors ++ [u.errorEntry "upload" (failureMessage u.host.sessionStatus)] := by
  rw [step_of_failed failed]
  exact conclude_keeps.stepErrors.trans (handleCommandError_stepErrors ..)

private theorem Failed.executes_nothing (failed : u.Failed) (answers : UpdaterAnswers) :
    firstExecuted (u.step answers).2 = none := by
  rw [step_of_failed failed]
  rfl

private theorem attend_of_idle (idle : u.Idle) : u.attend answers = (u, []) := by
  unfold attend
  rw [idle.1]
  dsimp only
  rw [if_neg (by simp [idle.2])]

private theorem Idle.step (idle : u.Idle) (nothing : firstExecuted (u.step answers).2 = none) :
    (u.step answers).1.Idle ∧ (u.step answers).1.stepErrors = u.stepErrors := by
  cases queued : u.commands with
  | nil =>
    rw [step_of_empty queued, attend_of_idle idle]
    exact ⟨idle.conclude, conclude_keeps.stepErrors⟩
  | cons cmd rest =>
    by_cases paused : u.Paused answers
    · rw [step_of_paused idle queued paused]
      exact ⟨idle, rfl⟩
    · obtain ⟨events, executed⟩ := @runCommand_executes u.resume answers cmd
      rw [step_of_idle idle queued paused, executed] at nothing
      cases nothing

private theorem Idle.run (idle : u.Idle) (steps : List UpdaterAnswers)
    (nothing : firstExecuted (Foundation.run Updater.step u steps).2.flatten = none) :
    (Foundation.run Updater.step u steps).1.stepErrors = u.stepErrors := by
  induction steps generalizing u with
  | nil => rfl
  | cons answers rest ih =>
    rw [run_cons, List.flatten_cons, firstExecuted_append, Option.or_eq_none_iff] at nothing
    obtain ⟨still, kept⟩ := idle.step nothing.1
    exact (ih still nothing.2).trans kept

private theorem Failed.idle (failed : u.Failed) (remain : u.commands ≠ []) (answers : UpdaterAnswers) :
    (u.step answers).1.Idle := by
  rw [step_of_failed failed]
  exact (handleCommandError_idle remain ..).conclude

private theorem Failed.endsOnce (failed : u.Failed) (remain : u.commands ≠ []) : u.EndsOnce := by
  refine ⟨fun answers => ?_, u.errorEntry "upload" (failureMessage u.host.sessionStatus),
    fun answers later nothing => ?_⟩
  · have idle := failed.idle remain answers
    by_cases empty : (u.step answers).1.commands = []
    · right
      simp [isDone, empty, idle.1, idle.2, UpdateStatus.value]
    · exact .inl ⟨empty, idle⟩
  · rw [run_cons, List.flatten_cons, firstExecuted_append, Option.or_eq_none_iff] at nothing
    have kept := (failed.idle remain answers).run later nothing.2
    exact kept.trans (step_of_failed_stepErrors failed answers)

private theorem Failed.stays (failed : u.Failed) (empty : u.commands = []) (answers : UpdaterAnswers) :
    (u.step answers).1.Failed := by
  have host := handleCommandError_host empty "upload" (failureMessage u.host.sessionStatus)
  rw [step_of_failed failed]
  apply Failed.conclude
  unfold Failed
  rwa [host]

end Updater

/-- In every run, the error of a failed session is entered once, and the next step goes on or is
the last, exactly if there are commands left. -/
theorem failed_ends_once_iff (u : Updater) (operations : List Updater.Operation)
    (failed : (run Updater.operate u operations).1.Failed) :
    (run Updater.operate u operations).1.EndsOnce ↔
      (run Updater.operate u operations).1.commands ≠ [] := by
  generalize (run Updater.operate u operations).1 = u at failed
  refine ⟨fun once empty => ?_, failed.endsOnce⟩
  obtain ⟨entry, entered⟩ := once.entered
  have again := failed.stays empty (.atTime 0)
  have first := Updater.step_of_failed_stepErrors failed (.atTime 0)
  have second := Updater.step_of_failed_stepErrors again (.atTime 0)
  have nothing : firstExecuted (run Updater.step u [.atTime 0, .atTime 0]).2.flatten = none := by
    rw [run_cons, run_cons, run_nil, List.flatten_cons, List.flatten_cons, List.flatten_nil,
      Updater.firstExecuted_append, Updater.firstExecuted_append, failed.executes_nothing,
      again.executes_nothing]
    rfl
  have twice : ((u.step (.atTime 0)).1.step (.atTime 0)).1.stepErrors = u.stepErrors ++ [entry] :=
    entered (.atTime 0) [.atTime 0] nothing
  rw [second, first] at twice
  have length := congrArg List.length twice
  simp at length

/-- An image of one byte can be read. -/
def UpdaterAnswers.withImage (time : UInt32) : UpdaterAnswers :=
  { UpdaterAnswers.atTime time with source := .image [7] { a := 0, b := 0, c := 0, d := 0 } }

/-- An upload, and no response to it for longer than the timeout. -/
def unanswered : List Updater.Operation :=
  [.step (.withImage 0), .step (.withImage 20001)]

theorem failed_ends_once_iff_unanswered :
    (run Updater.operate
      (Updater.create DevInfo.zero none 0x10 ["upload=image", "slot=1"]) unanswered).1.EndsOnce :=
  (failed_ends_once_iff _ unanswered (by decide +kernel)).mpr (by decide +kernel)

/-- The upload is the last command, and every step enters the error again. -/
theorem last_upload_never_ends :
    let failing := (run Updater.operate
      (Updater.create DevInfo.zero none 0x10 ["upload=image"]) unanswered).1
    failing.Failed ∧ ¬failing.EndsOnce := by
  refine ⟨by decide +kernel, fun once => ?_⟩
  obtain ⟨entry, entered⟩ := once.entered
  have twice := entered (.withImage 20002) [.withImage 20003] (by decide +kernel)
  have length := congrArg List.length twice
  rw [List.length_append, List.length_singleton] at length
  exact absurd length (by decide +kernel)

end InertialSense.FirmwareUpdate
