import InertialSense.Bootloader.IsbProgress
import Mathlib.Order.WellFounded

/-! When `verify_image` comes to an end: it starts a pass again as long as the device answers with
nothing, or with lines without data. -/

namespace InertialSense.Bootloader.Isb

open Foundation

namespace Verify

/-- The next step is a pass over a page. -/
def Passing (s : Verify) : Prop :=
  s.returned = none ∧ s.selected = true ∧ s.pageOffset < flashPageSize

/-- The pass has its command accepted, and reads nothing that it can go on with. -/
def PassIdle (image : Image) (s : Verify) (input : Input) : Prop :=
  input.answer = true ∧
    Idle s.pageOffset input.callback 0 s.c (input.bytes.take (s.requested image))

end Verify

/-- The function comes to an end, each pass over a page returns or comes on, and no read is outside of
the bytes that came. -/
structure Verifies (image : Image) (inputs : Nat → Input) : Prop where
  terminates : ∃ n, (Verify.after image inputs n).returned ≠ none
  progress : ∀ n, (Verify.after image inputs n).Passing →
    (Verify.after image inputs (n + 1)).returned ≠ none ∨
      (Verify.after image inputs n).pageOffset < (Verify.after image inputs (n + 1)).pageOffset
  inside : ∀ n, (Verify.after image inputs n).returned ≠ some .fault

namespace Verify

variable {image : Image} {inputs : Nat → Input}

/-- More than what is to come of any page. -/
def whole (image : Image) : Nat :=
  (max flashPageSize (flashPageSize - image.appOffset)).toNat + 2

/-- The pages to come, and what is left of the one selected. -/
def remaining (image : Image) (s : Verify) : Nat :=
  (image.currentPage + 1 - s.i).toNat * whole image +
    if s.selected then (flashPageSize - s.pageOffset).toNat + 1 else whole image

/-- What holds of the variables in a page. -/
structure InPage (image : Image) (s : Verify) : Prop where
  page : s.selected = true → s.i ≤ image.currentPage
  inside : s.returned ≠ some .fault

private theorem pass_cases {s : Verify} (running : s.returned = none) (input : Input) :
    input.answer = true ∧
        Outcome input.callback 0 (input.bytes.take (s.requested image)) s (s.pass image input) ∨
      input.answer = false ∧ s.pass image input = { s with returned := some (.result .error) } := by
  unfold pass
  cases input.answer with
  | true => exact .inl ⟨rfl, readLines_outcome _ (Nat.le_refl _) (Nat.zero_le _) running⟩
  | false => exact .inr ⟨rfl, rfl⟩

private theorem step_passing {s : Verify} (passing : s.Passing) (input : Input) :
    (step image s input).1 = s.pass image input := by
  obtain ⟨running, selected, within⟩ := passing
  unfold step
  rw [running, if_neg (by decide), if_pos selected, if_pos within]

/-- The function passes over a page, leaves it, comes to the next one or returns. -/
private theorem step_cases {s : Verify} (running : s.returned = none) (input : Input) :
    s.Passing ∨
      (s.selected = true ∧ flashPageSize ≤ s.pageOffset ∧
        (step image s input).1 = { s with i := s.i + 1, selected := false }) ∨
      (s.selected = false ∧ s.i ≤ image.currentPage ∧
        (step image s input).1 =
          { s with selected := true, pageOffset := if s.i = 0 then image.appOffset else 0 }) ∨
      ∃ result, (step image s input).1 = { s with returned := some (.result result) } := by
  unfold step
  rw [running, if_neg (by decide)]
  by_cases selected : s.selected = true
  · rw [if_pos selected]
    by_cases within : s.pageOffset < flashPageSize
    · exact .inl ⟨running, selected, within⟩
    · rw [if_neg within]
      exact .inr (.inl ⟨selected, Int.not_lt.mp within, rfl⟩)
  · rw [if_neg selected]
    by_cases more : s.i ≤ image.currentPage
    · rw [if_pos more]
      by_cases answer : input.answer = true
      · rw [if_pos answer]
        exact .inr (.inr (.inl ⟨Bool.eq_false_iff.mpr selected, more, rfl⟩))
      · rw [if_neg answer]
        exact .inr (.inr (.inr ⟨_, rfl⟩))
    · rw [if_neg more]
      exact .inr (.inr (.inr ⟨_, rfl⟩))

private theorem step_returned {s : Verify} (returned : s.returned ≠ none) (input : Input) :
    (step image s input).1 = s := if_pos (Option.isSome_iff_ne_none.mpr returned)

private theorem step_inPage {s : Verify} (inPage : InPage image s) (input : Input) :
    InPage image (step image s input).1 := by
  obtain ⟨page, inside⟩ := inPage
  by_cases running : s.returned = none
  · obtain passing | ⟨-, -, same⟩ | ⟨-, more, same⟩ | ⟨result, same⟩ :=
      @step_cases image s running input
    · rw [step_passing passing]
      obtain ⟨-, outcome⟩ | ⟨-, same⟩ := @pass_cases image s running input
      · exact ⟨fun _ => outcome.i ▸ page passing.2.1, outcome.inside⟩
      · exact same ▸ ⟨page, nofun⟩
    · exact same ▸ ⟨nofun, inside⟩
    · exact same ▸ ⟨fun _ => more, inside⟩
    · exact same ▸ ⟨page, nofun⟩
  · rw [step_returned running]
    exact ⟨page, inside⟩

private theorem after_inPage (n : Nat) : InPage image (after image inputs n) := by
  induction n with
  | zero => exact ⟨nofun, nofun⟩
  | succ n ih =>
    rw [after_succ]
    exact step_inPage ih (inputs n)

private theorem step_remaining {s : Verify} (inPage : InPage image s) (running : s.returned = none)
    {input : Input} (onward : s.Passing → (step image s input).1.returned ≠ none ∨
      s.pageOffset < (step image s input).1.pageOffset) :
    (step image s input).1.returned ≠ none ∨
      remaining image (step image s input).1 < remaining image s := by
  obtain passing | ⟨selected, full, same⟩ | ⟨between, more, same⟩ | ⟨result, same⟩ :=
    @step_cases image s running input
  · refine (onward passing).imp_right fun onward => ?_
    rw [step_passing passing] at onward ⊢
    obtain ⟨-, outcome⟩ | ⟨-, same⟩ := @pass_cases image s running input
    · have within := passing.2.2
      unfold remaining
      rw [outcome.i, outcome.selected, if_pos passing.2.1, if_pos passing.2.1]
      omega
    · rw [same] at onward
      exact absurd onward (Int.lt_irrefl _)
  · have page := inPage.page selected
    have pages : (image.currentPage + 1 - s.i).toNat =
        (image.currentPage + 1 - (s.i + 1)).toNat + 1 := by omega
    unfold remaining
    rw [same, if_pos selected, pages, Nat.succ_mul]
    simp only [Bool.false_eq_true, if_false]
    omega
  · refine .inr ?_
    unfold remaining
    rw [same, if_neg (Bool.eq_false_iff.mp between)]
    dsimp only
    rw [if_pos rfl]
    refine Nat.add_lt_add_left ?_ _
    unfold whole
    split <;> omega
  · rw [same]
    exact .inl nofun

/-- A pass comes on unless it is idle. -/
private theorem progress_iff {s : Verify} (passing : s.Passing) (input : Input) :
    ((step image s input).1.returned ≠ none ∨ s.pageOffset < (step image s input).1.pageOffset) ↔
      ¬PassIdle image s input := by
  rw [step_passing passing]
  unfold PassIdle
  obtain ⟨answer, outcome⟩ | ⟨answer, same⟩ := @pass_cases image s passing.1 input
  · have onward := outcome.onward
    rw [← outcome.idle, and_iff_right answer, not_and_or]
    refine or_congr_right ?_
    omega
  · rw [same, answer]
    exact iff_of_true (.inl nofun) (fun both => nomatch both.1)

end Verify

/-- Verification comes to an end, page by page, if and only if no pass over a page reads nothing, or
only lines without data. -/
theorem verifies_iff (image : Image) (inputs : Nat → Input) :
    Verifies image inputs ↔ ∀ n, (Verify.after image inputs n).Passing →
      ¬Verify.PassIdle image (Verify.after image inputs n) (inputs n) := by
  constructor
  · intro verifies n passing
    have onward := verifies.progress n passing
    rw [Verify.after_succ] at onward
    exact (Verify.progress_iff passing _).mp onward
  · intro busy
    have progress (n : Nat) (passing : (Verify.after image inputs n).Passing) :
        (Verify.after image inputs (n + 1)).returned ≠ none ∨
          (Verify.after image inputs n).pageOffset < (Verify.after image inputs (n + 1)).pageOffset := by
      rw [Verify.after_succ]
      exact (Verify.progress_iff passing _).mpr (busy n passing)
    refine ⟨?_, progress, fun n => (Verify.after_inPage n).inside⟩
    -- what remains cannot fall forever
    obtain ⟨n, stays⟩ := @WellFounded.not_rel_apply_succ Nat (· < ·) _
      fun n => (Verify.after image inputs n).remaining image
    by_cases running : (Verify.after image inputs n).returned = none
    · have onward := progress n
      rw [Verify.after_succ] at onward stays
      have next := Verify.step_remaining (Verify.after_inPage n) running onward
      refine ⟨n + 1, ?_⟩
      rw [Verify.after_succ]
      exact next.resolve_right stays
    · exact ⟨n, running⟩

/-- A device that takes its commands and sends nothing. -/
def silence : Input := ⟨true, [], fun _ => true⟩

/-- A single page is selected, and read over and over again. -/
theorem silence_stalls :
    ¬Verifies ⟨24576, 1024, 0, 0, true⟩ (fun _ => silence) := by
  intro verifies
  obtain ⟨n, ended⟩ := verifies.terminates
  have stays (n : Nat) :
      Verify.after ⟨24576, 1024, 0, 0, true⟩ (fun _ => silence) (n + 1) =
        { Verify.start ⟨24576, 1024, 0, 0, true⟩ with
          selected := true, pageOffset := 24576 } := by
    induction n with
    | zero => rfl
    | succ n ih =>
      rw [Verify.after_succ, ih]
      rfl
  cases n with
  | zero => exact ended rfl
  | succ n =>
    rw [stays n] at ended
    exact ended rfl

end InertialSense.Bootloader.Isb
