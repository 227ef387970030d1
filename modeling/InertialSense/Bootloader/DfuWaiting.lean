import InertialSense.Bootloader.DfuUpdate
import InertialSense.Foundation.Loop

/-! `waitForState` with a device that may answer anything, any number of times. -/

namespace InertialSense.Bootloader

open Foundation

/-- What the control transfer of `getStatus` returns, and the buffer, which is zero before it. -/
structure StatusTransfer where
  result : Int
  buf : Fin 6 → UInt8

/-- What `getStatus` stores. -/
structure StatusAnswer where
  status : UInt8
  delay : Nat
  state : UInt8
  stringIndex : UInt8
deriving DecidableEq

def StatusTransfer.answer (transfer : StatusTransfer) : StatusAnswer :=
  { status := transfer.buf 0
    delay := (transfer.buf 3).toNat <<< 16 ||| (transfer.buf 2).toNat <<< 8 ||| (transfer.buf 1).toNat
    state := transfer.buf 4
    stringIndex := transfer.buf 5 }

def dfuStatusOk : UInt8 := 0

def libusbSuccess : Int := 0

/-- How many answers `waitForState` has had, and its `tryCounter`. -/
structure Waiting where
  asked : Nat
  tryCounter : UInt8
deriving DecidableEq

/-- What `waitForState` returns, and which answer was the last one: its state is the actual state. -/
structure Waited where
  result : Int
  last : Nat
deriving DecidableEq

section Wait

variable (transfers : Nat → StatusTransfer) (required : UInt8)

/-- One pass of the loop. Errors are cleared, but only states are counted. -/
def waitPass (w : Waiting) : Waiting ⊕ Waited :=
  let answer := (transfers w.asked).answer
  if answer.state ≠ required then
    if w.tryCounter > 5 then .inr ⟨(transfers w.asked).result, w.asked⟩
    else .inl ⟨w.asked + 1, w.tryCounter + 1⟩
  else if answer.status ≠ dfuStatusOk then .inl ⟨w.asked + 1, w.tryCounter⟩
  else .inr ⟨libusbSuccess, w.asked⟩

/-- `waitForState` returns this. -/
def WaitsForState : Waited → Prop := Ends (fun w next => next = waitPass transfers required w) ⟨0, 0⟩

def Reached (n : Nat) : Prop := (transfers n).answer.state = required

/-- An answer with the required state and no error. -/
def Good (n : Nat) : Prop := Reached transfers required n ∧ (transfers n).answer.status = dfuStatusOk

instance (n : Nat) : Decidable (Reached transfers required n) := inferInstanceAs (Decidable (_ = _))

instance (n : Nat) : Decidable (Good transfers required n) := inferInstanceAs (Decidable (_ ∧ _))

/-- The answers before this one that had another state. -/
def misses (n : Nat) : Nat := (List.range n).countP fun k => ¬Reached transfers required k

/-- Waiting ends, it is successful only after a good answer, and returns an error otherwise. -/
structure WaitsSoundly : Prop where
  ends : ∃ waited, WaitsForState transfers required waited
  success : ∀ waited, WaitsForState transfers required waited → libusbSuccess ≤ waited.result →
    Good transfers required waited.last
  otherwise : ∀ waited, WaitsForState transfers required waited → ¬Good transfers required waited.last →
    waited.result < 0

variable {transfers required}

theorem misses_succ (n : Nat) : misses transfers required (n + 1) =
    misses transfers required n + if Reached transfers required n then 0 else 1 := by
  unfold misses
  rw [List.range_succ, List.countP_append, List.countP_singleton]
  by_cases reached : Reached transfers required n
  · simp [reached]
  · simp [reached]

/-- What a pass comes to, for the number of answers that had another state. -/
theorem waitPass_eq {w : Waiting} (few : w.tryCounter.toNat ≤ 6) : waitPass transfers required w =
    if Reached transfers required w.asked then
      if Good transfers required w.asked then .inr ⟨libusbSuccess, w.asked⟩
      else .inl ⟨w.asked + 1, w.tryCounter⟩
    else if w.tryCounter.toNat = 6 then .inr ⟨(transfers w.asked).result, w.asked⟩
    else .inl ⟨w.asked + 1, w.tryCounter + 1⟩ := by
  have full : w.tryCounter > 5 ↔ w.tryCounter.toNat = 6 := by
    rw [gt_iff_lt, UInt8.lt_iff_toNat_lt, show (5 : UInt8).toNat = 5 from rfl]
    omega
  unfold waitPass Good Reached
  by_cases reached : (transfers w.asked).answer.state = required
  · by_cases good : (transfers w.asked).answer.status = dfuStatusOk
    · simp [reached, good]
    · simp [reached, good]
  · simp only [ne_eq, reached, not_false_eq_true, if_true, if_false, full]

/-- The loop is at an answer, with the misses before it counted. -/
structure WaitsAt (transfers : Nat → StatusTransfer) (required : UInt8) (w : Waiting) : Prop where
  counted : w.tryCounter.toNat = misses transfers required w.asked
  few : w.tryCounter.toNat ≤ 6
  before : ∀ k < w.asked, ¬Good transfers required k

theorem WaitsAt.next {w next : Waiting} (waits : WaitsAt transfers required w)
    (goes : waitPass transfers required w = .inl next) :
    next.asked = w.asked + 1 ∧ WaitsAt transfers required next := by
  have before (here : ¬Good transfers required w.asked) (k : Nat) (inside : k < w.asked + 1) :
      ¬Good transfers required k := by
    obtain earlier | rfl := Nat.lt_succ_iff_lt_or_eq.mp inside
    · exact waits.before k earlier
    · exact here
  rw [waitPass_eq waits.few] at goes
  split at goes
  case isTrue reached =>
    split at goes
    case isTrue => cases goes
    case isFalse bad =>
      obtain rfl := Sum.inl.inj goes
      refine ⟨rfl, ?_, waits.few, before bad⟩
      rw [misses_succ, if_pos reached]
      exact waits.counted
  case isFalse other =>
    split at goes
    case isTrue => cases goes
    case isFalse more =>
      obtain rfl := Sum.inl.inj goes
      have counted : (w.tryCounter + 1).toNat = w.tryCounter.toNat + 1 := by
        have few := waits.few
        rw [UInt8.toNat_add, show (1 : UInt8).toNat = 1 from rfl]
        omega
      refine ⟨rfl, ?_, ?_, before fun good => other good.1⟩
      · rw [misses_succ, if_neg other, ← waits.counted]
        exact counted
      · have few := waits.few
        show (w.tryCounter + 1).toNat ≤ 6
        omega

/-- The answer with which the loop ends. -/
def Stops (transfers : Nat → StatusTransfer) (required : UInt8) (waited : Waited) : Prop :=
  (∀ k < waited.last, ¬Good transfers required k) ∧
    (Good transfers required waited.last ∧ misses transfers required waited.last ≤ 6 ∧
        waited.result = libusbSuccess ∨
      ¬Reached transfers required waited.last ∧ misses transfers required waited.last = 6 ∧
        waited.result = (transfers waited.last).result)

theorem WaitsAt.stops {w : Waiting} {waited : Waited} (waits : WaitsAt transfers required w)
    (left : waitPass transfers required w = .inr waited) : Stops transfers required waited := by
  have few := waits.few
  rw [waits.counted] at few
  rw [waitPass_eq waits.few] at left
  split at left
  case isTrue =>
    split at left
    case isTrue good =>
      obtain rfl := Sum.inr.inj left
      exact ⟨waits.before, .inl ⟨good, few, rfl⟩⟩
    case isFalse => cases left
  case isFalse other =>
    split at left
    case isTrue full =>
      obtain rfl := Sum.inr.inj left
      exact ⟨waits.before, .inr ⟨other, waits.counted.symm.trans full, rfl⟩⟩
    case isFalse => cases left

theorem misses_mono {m n : Nat} (le : m ≤ n) : misses transfers required m ≤ misses transfers required n := by
  induction le with
  | refl => exact Nat.le_refl _
  | step _ ih =>
    rw [misses_succ]
    exact ih.trans (Nat.le_add_right ..)

/-- Up to the answer with which it ends, the loop goes on. -/
theorem WaitsAt.ends {w : Waiting} {waited : Waited} (waits : WaitsAt transfers required w)
    (stops : Stops transfers required waited) (inside : w.asked ≤ waited.last) :
    Ends (fun w next => next = waitPass transfers required w) w waited := by
  obtain ⟨before, outcome⟩ := stops
  induction more : waited.last - w.asked generalizing w with
  | zero =>
    have here : w.asked = waited.last := by omega
    refine .leave ?_
    rw [waitPass_eq waits.few, waits.counted, here]
    obtain ⟨good, -, result⟩ | ⟨other, full, result⟩ := outcome
    · rw [if_pos good.1, if_pos good, ← result]
    · rw [if_neg other, if_pos full, ← result]
  | succ more ih =>
    have bad := before w.asked (by omega)
    have counted := @misses_mono transfers required (w.asked + 1) waited.last (by omega)
    have few : misses transfers required waited.last ≤ 6 := by
      obtain ⟨-, few, -⟩ | ⟨-, full, -⟩ := outcome <;> omega
    have goes : ∃ next, waitPass transfers required w = .inl next := by
      rw [waitPass_eq waits.few, waits.counted]
      rw [misses_succ] at counted
      by_cases reached : Reached transfers required w.asked
      · exact ⟨_, (if_pos reached).trans (if_neg bad)⟩
      · rw [if_neg reached] at counted
        exact ⟨_, (if_neg reached).trans (if_neg (by omega))⟩
    obtain ⟨next, goes⟩ := goes
    obtain ⟨asked, waits'⟩ := waits.next goes
    exact .again goes.symm (ih waits' (by omega) (by omega))

theorem waitsForState_iff {waited : Waited} :
    WaitsForState transfers required waited ↔ Stops transfers required waited := by
  have start : WaitsAt transfers required ⟨0, 0⟩ := ⟨rfl, by decide, fun k none => absurd none (Nat.not_lt_zero k)⟩
  constructor
  · intro waits
    have kept (w next : Waiting) (waits : WaitsAt transfers required w)
        (goes : .inl next = waitPass transfers required w) : WaitsAt transfers required next :=
      (waits.next goes.symm).2
    have established (w : Waiting) (waited : Waited) (waits : WaitsAt transfers required w)
        (left : .inr waited = waitPass transfers required w) : Stops transfers required waited :=
      waits.stops left.symm
    exact Ends.satisfies kept established start waits
  · intro stops
    exact start.ends stops (Nat.zero_le _)

/-- There is one answer with which the loop ends, which decides all. -/
theorem Stops.sound {waited : Waited} (stops : Stops transfers required waited)
    (success : libusbSuccess ≤ waited.result → Good transfers required waited.last)
    (otherwise : ¬Good transfers required waited.last → waited.result < 0) :
    WaitsSoundly transfers required := by
  have ends := waitsForState_iff.mpr stops
  have determined (w : Waiting) (answer answer' : Waiting ⊕ Waited)
      (one : answer = waitPass transfers required w) (other : answer' = waitPass transfers required w) :
      answer = answer' := one.trans other.symm
  refine ⟨⟨waited, ends⟩, fun waited' ends' => ?_, fun waited' ends' => ?_⟩
  · obtain rfl := Ends.unique determined ends ends'
    exact success
  · obtain rfl := Ends.unique determined ends ends'
    exact otherwise

variable (transfers required) in
/-- Waiting is sound if and only if a good answer comes before the seventh one with another state, or
the transfer of this seventh one fails. -/
theorem waitsSoundly_iff : WaitsSoundly transfers required ↔
    ∃ n, (∀ k < n, ¬Good transfers required k) ∧
      (Good transfers required n ∧ misses transfers required n ≤ 6 ∨
        ¬Reached transfers required n ∧ misses transfers required n = 6 ∧ (transfers n).result < 0) := by
  constructor
  · intro sound
    obtain ⟨waited, waits⟩ := sound.ends
    obtain ⟨before, ⟨good, few, -⟩ | ⟨other, full, result⟩⟩ := waitsForState_iff.mp waits
    · exact ⟨waited.last, before, .inl ⟨good, few⟩⟩
    · refine ⟨waited.last, before, .inr ⟨other, full, ?_⟩⟩
      rw [← result]
      exact sound.otherwise waited waits fun good => other good.1
  · rintro ⟨n, before, outcome⟩
    obtain ⟨good, few⟩ | ⟨other, all, failed⟩ := outcome
    · have stops : Stops transfers required ⟨libusbSuccess, n⟩ := ⟨before, .inl ⟨good, few, rfl⟩⟩
      exact stops.sound (fun _ => good) fun bad => absurd good bad
    · have stops : Stops transfers required ⟨(transfers n).result, n⟩ := ⟨before, .inr ⟨other, all, rfl⟩⟩
      exact stops.sound (fun success => absurd success (Int.not_le.mpr failed)) fun _ => failed

/-- A device that stays busy is taken to have come to the required state. -/
theorem busy_taken_as_idle : ¬ ∀ (transfers : Nat → StatusTransfer) (required : UInt8),
    WaitsSoundly transfers required := by
  intro sound
  -- `DFU_STATE_DNBUSY` instead of `DFU_STATE_DNLOAD_IDLE`, in six bytes without an error
  obtain ⟨n, -, ⟨good, -⟩ | ⟨-, -, failed⟩⟩ :=
    (waitsSoundly_iff _ _).mp (sound (fun _ => ⟨6, fun i => if i = 4 then 4 else 0⟩) 5)
  · exact absurd (show (4 : UInt8) = 5 from good.1) (by decide)
  · exact absurd failed (by decide)

end Wait

/-! ### A device that answers by its state -/

/-- The number of a state. -/
def DfuState.code : DfuState → UInt8
  | .idle => 2
  | .dnloadSync => 3
  | .dnbusy => 4
  | .dnloadIdle => 5
  | .uploadIdle => 9
  | .error => 10

theorem DfuState.code_injective {state state' : DfuState} (same : state.code = state'.code) :
    state = state' := by
  revert same
  cases state <;> cases state' <;> decide

namespace Device

/-- The device after so many passes of `waitForState`. -/
def afterPasses (d : Device) : Nat → Device
  | 0 => d
  | n + 1 =>
    let asked := (d.afterPasses n).getStatus
    if asked.failed then asked.clrStatus else asked

/-- Its answers: an error is `DFU_STATUS_ERR_STALLEDPKT`. -/
def statusTransfers (d : Device) (n : Nat) : StatusTransfer :=
  let asked := (d.afterPasses n).getStatus
  { result := 6
    buf := fun i => if i = 0 then if asked.failed then 15 else 0 else if i = 4 then asked.state.code else 0 }

variable {d : Device} {required : DfuState}

theorem reached_iff (n : Nat) : Reached d.statusTransfers required.code n ↔
    (d.afterPasses n).getStatus.state = required := by
  show (d.afterPasses n).getStatus.state.code = required.code ↔ _
  exact ⟨DfuState.code_injective, congrArg DfuState.code⟩

theorem good_of_reached {n : Nat} (proper : required ≠ .error) (reached : Reached d.statusTransfers required.code n) :
    Good d.statusTransfers required.code n := by
  refine ⟨reached, ?_⟩
  have state := (reached_iff n).mp reached
  have calm : (d.afterPasses n).getStatus.failed = false := by
    unfold failed
    rw [state]
    exact decide_eq_false proper
  show (if (d.afterPasses n).getStatus.failed = true then (15 : UInt8) else 0) = dfuStatusOk
  rw [calm]
  rfl

private theorem waitLoop_reached (left : Nat) {n : Nat} (reached : (d.afterPasses n).getStatus.state = required) :
    waitLoop required left (d.afterPasses n) = d.afterPasses (n + 1) := by
  unfold waitLoop
  dsimp only
  rw [if_pos reached]
  rfl

private theorem waitLoop_afterPasses (proper : required ≠ .error) {left : Nat} {w : Waiting}
    (counted : w.tryCounter.toNat + left = 6) : ∃ waited,
      Ends (fun w next => next = waitPass d.statusTransfers required.code w) w waited ∧
        waitLoop required left (d.afterPasses w.asked) = d.afterPasses (waited.last + 1) := by
  have few : w.tryCounter.toNat ≤ 6 := by omega
  induction left generalizing w with
  | zero =>
    by_cases reached : Reached d.statusTransfers required.code w.asked
    · refine ⟨⟨libusbSuccess, w.asked⟩, .leave ?_, waitLoop_reached 0 ((reached_iff _).mp reached)⟩
      rw [waitPass_eq few, if_pos reached, if_pos (good_of_reached proper reached)]
    · refine ⟨⟨(d.statusTransfers w.asked).result, w.asked⟩, .leave ?_, ?_⟩
      · rw [waitPass_eq few, if_neg reached, if_pos (by omega)]
      · unfold waitLoop
        dsimp only
        rw [if_neg ((reached_iff _).not.mp reached)]
        rfl
  | succ left ih =>
    by_cases reached : Reached d.statusTransfers required.code w.asked
    · refine ⟨⟨libusbSuccess, w.asked⟩, .leave ?_, waitLoop_reached _ ((reached_iff _).mp reached)⟩
      rw [waitPass_eq few, if_pos reached, if_pos (good_of_reached proper reached)]
    · have more : (w.tryCounter + 1).toNat = w.tryCounter.toNat + 1 := by
        rw [UInt8.toNat_add, show (1 : UInt8).toNat = 1 from rfl]
        omega
      obtain ⟨waited, rest, device⟩ :=
        @ih ⟨w.asked + 1, w.tryCounter + 1⟩ (by dsimp only; omega) (by dsimp only; omega)
      refine ⟨waited, .again ?_ rest, ?_⟩
      · rw [waitPass_eq few, if_neg reached, if_neg (by omega)]
      · unfold waitLoop
        dsimp only
        rw [if_neg ((reached_iff _).not.mp reached)]
        exact device

theorem waitForState_afterPasses (d : Device) {required : DfuState} (proper : required ≠ .error) :
    ∃ waited, WaitsForState d.statusTransfers required.code waited ∧
      d.waitForState required = d.afterPasses (waited.last + 1) :=
  @waitLoop_afterPasses d required proper 6 ⟨0, 0⟩ rfl

end Device

end InertialSense.Bootloader
