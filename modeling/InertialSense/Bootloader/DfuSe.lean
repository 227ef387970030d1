import InertialSense.Foundation.LittleEndian
import InertialSense.Foundation.Overlay

/-! A device in DFU mode with the memory commands of an STM32, as far as a host that programs its
flash memory meets it. -/

namespace InertialSense.Bootloader

open Foundation

/-- The states of `dfu_state` that belong to transfers. -/
inductive DfuState where
  | idle
  | dnloadSync
  | dnbusy
  | dnloadIdle
  | uploadIdle
  | error
deriving DecidableEq

/-- What is done to the flash memory. -/
inductive Access where
  | erase (address : UInt32)
  | write (address : UInt32) (data : List UInt8)
deriving DecidableEq

def pageOf (pageSize : Nat) (address : UInt32) : Nat := address.toNat / pageSize

/-- What an access leaves in the cells it changes. -/
def Access.layer (pageSize : Nat) : Access → UInt32 → Option UInt8
  | .erase address, cell => if pageOf pageSize cell = pageOf pageSize address then some 0xFF else none
  | .write address data, cell => data[(cell - address).toNat]?

/-- The size of a flash page, and of a transfer, which is large enough for a command. -/
structure Geometry where
  pageSize : Nat
  transferSize : Nat
  commandFits : 5 ≤ transferSize

/-- The device: how often it is busy when it is asked about its n-th operation, or that this one
fails; its state, which says whether the status is an error; the block that was transferred last;
the address pointer; the flash memory as it was and what has been done to it since. -/
structure Device extends Geometry where
  outcome : Nat → Option Nat
  begun : Nat
  state : DfuState
  busy : Nat
  block : Nat
  data : List UInt8
  pointer : UInt32
  initial : UInt32 → UInt8
  history : List Access

namespace Device

/-- The status is not `DFU_STATUS_OK`. -/
def failed (d : Device) : Bool := d.state = .error

/-- The flash memory. -/
def flash (d : Device) : UInt32 → UInt8 :=
  overlay d.initial (d.history.map (Access.layer d.pageSize))

/-- The transferred block takes effect: a command in block 0, data from block 2 on. -/
def perform (d : Device) : Option Device :=
  match d.block, d.data with
  | 0, [0x21, a, b, c, e] => some { d with pointer := UInt32.ofNat (fromBytes [a, b, c, e]) }
  | 0, [0x41, a, b, c, e] =>
    some { d with history := d.history ++ [.erase (UInt32.ofNat (fromBytes [a, b, c, e]))] }
  | 0, _ => none
  | 1, _ => none
  | block + 2, data =>
    some { d with
      history := d.history ++ [.write (d.pointer + UInt32.ofNat (block * d.transferSize)) data] }

/-- DFU_DNLOAD: the device takes the block, or stalls. -/
def dnload (d : Device) (wValue : Nat) (data : List UInt8) : Device × Bool :=
  if d.state = .idle ∨ d.state = .dnloadIdle then
    ({ d with state := .dnloadSync, block := wValue, data }, true)
  else ({ d with state := .error }, false)

/-- DFU_GETSTATUS: the answer is the status and the state that the device is then in. The first
one after a transfer lets it take effect. -/
def getStatus (d : Device) : Device :=
  match d.state with
  | .dnloadSync =>
    match d.outcome d.begun, d.perform with
    | some busy, some done =>
      { done with
        begun := d.begun + 1
        state := if busy = 0 then .dnloadIdle else .dnbusy
        busy := busy - 1 }
    | _, _ => { d with begun := d.begun + 1, state := .error }
  | .dnbusy =>
    { d with state := if d.busy = 0 then .dnloadIdle else .dnbusy, busy := d.busy - 1 }
  | _ => d

/-- DFU_CLRSTATUS. -/
def clrStatus (d : Device) : Device :=
  if d.state = .error then { d with state := .idle } else d

/-- DFU_ABORT. -/
def abort (d : Device) : Device × Bool :=
  if d.state = .dnbusy ∨ d.state = .error then ({ d with state := .error }, false)
  else ({ d with state := .idle }, true)

/-- A device that does everything at once, with this in its flash memory. -/
def prompt (g : Geometry) (state : DfuState) (initial : UInt32 → UInt8) : Device where
  toGeometry := g
  outcome := fun _ => some 0
  begun := 0
  state
  busy := 0
  block := 0
  data := []
  pointer := 0
  initial
  history := []

/-! ### What the host relies on -/

/-- No operation is under way, and none has failed. -/
def Ready (d : Device) : Prop := d.state = .idle ∨ d.state = .dnloadIdle

/-- None has failed, and the one that may be under way has taken effect. -/
def Calm (d : Device) : Prop := d.Ready ∨ d.state = .dnbusy

/-- The same device with the same in its memory. -/
structure Like (d e : Device) : Prop where
  geometry : d.toGeometry = e.toGeometry
  outcome : d.outcome = e.outcome
  pointer : d.pointer = e.pointer
  initial : d.initial = e.initial
  history : d.history = e.history

variable {d e : Device}

theorem Like.refl (d : Device) : d.Like d := ⟨rfl, rfl, rfl, rfl, rfl⟩

theorem Like.trans {f : Device} (first : d.Like e) (second : e.Like f) : d.Like f :=
  ⟨first.geometry.trans second.geometry, first.outcome.trans second.outcome,
    first.pointer.trans second.pointer, first.initial.trans second.initial,
    first.history.trans second.history⟩

theorem Calm.status (calm : d.Calm) : d.failed = false := by
  unfold failed
  rcases calm with (state | state) | state
  all_goals
    rw [state]
    rfl

theorem Ready.status (ready : d.Ready) : d.failed = false := Calm.status (.inl ready)

theorem getStatus_still (sync : d.state ≠ .dnloadSync) (busy : d.state ≠ .dnbusy) :
    d.getStatus = d := by
  unfold getStatus
  split
  case h_1 state => exact absurd state sync
  case h_2 state => exact absurd state busy
  case h_3 => rfl

theorem Ready.getStatus (ready : d.Ready) : d.getStatus = d := by
  rcases ready with state | state
  · exact getStatus_still (by rw [state]; decide) (by rw [state]; decide)
  · exact getStatus_still (by rw [state]; decide) (by rw [state]; decide)

/-- Asked again, the device only comes to its end. -/
theorem Calm.getStatus (calm : d.Calm) : d.getStatus.Calm ∧ d.getStatus.Like d := by
  unfold Device.getStatus
  rcases calm with (state | state) | state
  all_goals
    rw [state]
    dsimp only
  · exact ⟨.inl (.inl state), .refl d⟩
  · exact ⟨.inl (.inr state), .refl d⟩
  · refine ⟨?_, rfl, rfl, rfl, rfl, rfl⟩
    unfold Calm Ready
    dsimp only
    split
    · exact .inl (.inr rfl)
    · exact .inr rfl

/-- A block that was transferred takes effect, or the device is in error. -/
theorem getStatus_sync (sync : d.state = .dnloadSync) :
    d.getStatus.state = .error ∧ (d.outcome d.begun = none ∨ d.perform = none) ∨
      ∃ busy done, d.outcome d.begun = some busy ∧ d.perform = some done ∧
        d.getStatus.Calm ∧ d.getStatus.Like done ∧
        (busy = 0 → d.getStatus.state = .dnloadIdle) := by
  unfold getStatus
  rw [sync]
  dsimp only
  cases answer : d.outcome d.begun with
  | none => exact .inl ⟨rfl, .inl rfl⟩
  | some busy =>
    cases performed : d.perform with
    | none => exact .inl ⟨rfl, .inr rfl⟩
    | some done =>
      refine .inr ⟨busy, done, rfl, rfl, ?_, ⟨rfl, rfl, rfl, rfl, rfl⟩, fun none => if_pos none⟩
      unfold Calm Ready
      dsimp only
      split
      · exact .inl (.inr rfl)
      · exact .inr rfl

theorem Ready.dnload (ready : d.Ready) (wValue : Nat) (data : List UInt8) :
    d.dnload wValue data = ({ d with state := .dnloadSync, block := wValue, data }, true) :=
  if_pos ready

theorem Ready.abort (ready : d.Ready) : d.abort = ({ d with state := .idle }, true) := by
  unfold Device.abort
  rcases ready with state | state
  all_goals
    rw [state]
    rfl

theorem abort_success (success : d.abort.2 = true) : d.abort.1 = { d with state := .idle } := by
  unfold Device.abort at success ⊢
  by_cases stalls : d.state = .dnbusy ∨ d.state = .error
  · rw [if_pos stalls] at success
    cases success
  · rw [if_neg stalls]

end Device

end InertialSense.Bootloader
