import InertialSense.Bootloader.Dfu
import InertialSense.Ihex.Bounds

/-! What `download_image` makes the device do: every answer of the device either leads to the
accesses that follow from the sections, or ends the download with an error. -/

namespace InertialSense.Bootloader

open Foundation Ihex

namespace Device

variable {d e : Device} {required : DfuState} {left : Nat}

/-! ### Waiting -/

theorem dfuWaitLoop_good (good : d.failed = false ∧ d.state = required) :
    dfuWaitLoop required left d = (d, true) := by
  unfold dfuWaitLoop
  exact if_pos good

theorem dfuWaitLoop_calm (calm : d.Calm) :
    (dfuWaitLoop required left d).1.Calm ∧ (dfuWaitLoop required left d).1.Like d ∧
      ((dfuWaitLoop required left d).2 = true → (dfuWaitLoop required left d).1.state = required) := by
  induction left generalizing d with
  | zero =>
    unfold dfuWaitLoop
    split
    case isTrue good => exact ⟨calm, .refl d, fun _ => good.2⟩
    case isFalse =>
      rw [if_neg (by rw [calm.status]; decide)]
      exact ⟨calm.getStatus.1, calm.getStatus.2, nofun⟩
  | succ left ih =>
    unfold dfuWaitLoop
    split
    case isTrue good => exact ⟨calm, .refl d, fun _ => good.2⟩
    case isFalse =>
      dsimp only
      rw [if_neg (by rw [calm.status]; decide)]
      obtain ⟨next, like, found⟩ := ih calm.getStatus.1
      exact ⟨next, like.trans calm.getStatus.2, found⟩

/-- A device that has failed is cleared, and is idle from then on. -/
def Lost (d : Device) : Prop := d.state = .idle ∨ d.state = .error

theorem Lost.getStatus (lost : d.Lost) : d.getStatus = d := by
  rcases lost with state | state
  · exact getStatus_still (by rw [state]; decide) (by rw [state]; decide)
  · exact getStatus_still (by rw [state]; decide) (by rw [state]; decide)

theorem Lost.next (lost : d.Lost) : (if d.failed then d.clrStatus else d).getStatus.Lost := by
  have cleared : (if d.failed then d.clrStatus else d).Lost := by
    unfold clrStatus
    split
    · split
      · exact .inl rfl
      · exact lost
    · exact lost
  rw [cleared.getStatus]
  exact cleared

theorem dfuWaitLoop_lost (lost : d.Lost) : (dfuWaitLoop .dnloadIdle left d).2 = false := by
  have other (d : Device) (lost : d.Lost) : ¬(d.failed = false ∧ d.state = .dnloadIdle) := by
    rintro ⟨-, state⟩
    rcases lost with same | same
    all_goals
      rw [same] at state
      cases state
  induction left generalizing d with
  | zero =>
    unfold dfuWaitLoop
    rw [if_neg (other d lost)]
  | succ left ih =>
    unfold dfuWaitLoop
    rw [if_neg (other d lost)]
    exact ih lost.next

/-- The host goes on only if this has been done, and it does so if the device is never busy. -/
structure Does (d : Device) (answer : Device × Bool) (done : Device) : Prop where
  takes : answer.2 = true → answer.1.Ready ∧ answer.1.Like done
  prompt : (∀ n, d.outcome n = some 0) → answer.2 = true

/-- A transfer to a device that is ready succeeds only if it has taken effect. -/
private theorem Ready.dfuDnload_does (ready : d.Ready) (wValue : UInt8) (data : List UInt8)
    (performed : { d with state := .dnloadSync, block := wValue.toNat, data }.perform = some e) :
    d.Does (d.dfuDnload wValue data) e := by
  unfold dfuDnload dfuWaitForState
  rw [ready.dnload]
  dsimp only
  rw [if_pos rfl]
  generalize taken : ({ d with state := .dnloadSync, block := wValue.toNat, data } : Device) = sync at *
  have state : sync.state = .dnloadSync := by rw [← taken]
  have outcome : sync.outcome = d.outcome := by rw [← taken]
  rcases sync.getStatus_sync state with ⟨error, why⟩ | ⟨busy, done, answer, same, calm, like, prompt⟩
  · have lost := @dfuWaitLoop_lost sync.getStatus 5 (.inr error)
    refine ⟨fun found => ?_, fun always => ?_⟩
    · rw [lost] at found
      cases found
    · rw [outcome, always, performed] at why
      rcases why with none | none
      · cases none
      · cases none
  · obtain rfl := Option.some.inj (same.symm.trans performed)
    obtain ⟨calm', like', found⟩ := @dfuWaitLoop_calm sync.getStatus .dnloadIdle 5 calm
    refine ⟨fun success => ⟨.inr (found success), like'.trans like⟩, fun always => ?_⟩
    rw [outcome, always] at answer
    have idle := prompt (Option.some.inj answer).symm
    rw [dfuWaitLoop_good ⟨calm.status, idle⟩]

theorem Ready.erase_does (ready : d.Ready) (address : UInt32) :
    d.Does (d.dfuDnload 0 (0x41 :: toBytes 4 address.toNat))
      { d with history := d.history ++ [.erase address] } := by
  obtain ⟨takes, prompt⟩ := ready.dfuDnload_does 0 (0x41 :: toBytes 4 address.toNat) rfl
  refine ⟨fun success => ⟨(takes success).1, (takes success).2.trans ⟨rfl, rfl, rfl, rfl, ?_⟩⟩, prompt⟩
  show d.history ++ [.erase (UInt32.ofNat (fromBytes (toBytes 4 address.toNat)))] = _
  rw [ofNat_fromBytes]

theorem Ready.setAddress_does (ready : d.Ready) (address : UInt32) :
    d.Does (d.dfuSetAddressPointer address) { d with pointer := address } := by
  obtain ⟨takes, prompt⟩ := ready.dfuDnload_does 0 (0x21 :: toBytes 4 address.toNat) rfl
  refine ⟨fun success => ⟨(takes success).1, (takes success).2.trans ⟨rfl, rfl, ?_, rfl, rfl⟩⟩, prompt⟩
  show UInt32.ofNat (fromBytes (toBytes 4 address.toNat)) = address
  rw [ofNat_fromBytes]

theorem Ready.write_does (ready : d.Ready) {wValue : UInt8} {block : Nat}
    (number : wValue.toNat = block + 2) (data : List UInt8) :
    d.Does (d.dfuDnload wValue data)
      { d with
        history := d.history ++
          [.write (d.pointer + UInt32.ofNat (block * d.transferSize)) data] } := by
  have performed : { d with state := .dnloadSync, block := wValue.toNat, data }.perform =
      some { d with
        state := .dnloadSync
        block := wValue.toNat
        data
        history := d.history ++
          [.write (d.pointer + UInt32.ofNat (block * d.transferSize)) data] } := by
    rw [number]
    rfl
  obtain ⟨takes, prompt⟩ := ready.dfuDnload_does wValue data performed
  exact ⟨fun success => ⟨(takes success).1, (takes success).2.trans ⟨rfl, rfl, rfl, rfl, rfl⟩⟩, prompt⟩

theorem Ready.dfuWaitForState (ready : d.Ready) (required : DfuState) :
    (d.dfuWaitForState required).1 = d ∧
      (d.state = required → (d.dfuWaitForState required).2 = true) := by
  unfold Device.dfuWaitForState
  rw [ready.getStatus]
  refine ⟨?_, fun state => by rw [dfuWaitLoop_good ⟨ready.status, state⟩]⟩
  suffices waits : ∀ left, (dfuWaitLoop required left d).1 = d from waits 5
  intro left
  induction left with
  | zero =>
    unfold dfuWaitLoop
    split
    · rfl
    · rw [if_neg (by rw [ready.status]; decide)]
      exact ready.getStatus
  | succ left ih =>
    unfold dfuWaitLoop
    split
    · rfl
    · dsimp only
      rw [if_neg (by rw [ready.status]; decide), ready.getStatus]
      exact ih

end Device

/-! ### What follows from the sections -/

/-- The passes of a loop over a section: it ends when it has come to the last byte. -/
def blocks (part : ImageSection) : Nat := max 1 ((part.len.toNat + 2046) / 2048)

/-- Where the m-th page of a section is. -/
def blockAddress (part : ImageSection) (m : Nat) : UInt32 := part.address + UInt32.ofNat (2048 * m)

/-- The m-th page of a section, filled up. -/
def blockData (part : ImageSection) (m : Nat) : List UInt8 :=
  let chunk := (part.image.drop (2048 * m)).take 2048
  chunk ++ List.replicate (2048 - chunk.length) 0xFF

def erases (part : ImageSection) : List Access :=
  if part.address &&& stm32PageErrorMask ≠ 0 then []
  else (List.range (blocks part)).map fun m => .erase (blockAddress part m)

def writes (part : ImageSection) : List Access :=
  (List.range (blocks part)).map fun m => .write (blockAddress part m) (blockData part m)

/-- All accesses of a download. -/
def planned (image : List ImageSection) : List Access :=
  image.flatMap erases ++ image.flatMap writes

section Blocks

variable {part : ImageSection} {m : Nat}

theorem blocks_few (small : part.len.toNat ≤ maxIhexSectionLen) (inside : m < blocks part) :
    2048 * m < 0x20000 := by
  unfold maxIhexSectionLen at small
  unfold blocks at inside
  omega

/-- Whether the loop that erases goes on behind the m-th page. -/
theorem erase_more (filled : Filled part) (inside : m < blocks part) :
    UInt32.ofNat (2048 * m) + stm32PageSize < part.len - 1 ↔ m + 1 < blocks part := by
  have few := blocks_few filled.small inside
  have positive := filled.positive
  have next : (UInt32.ofNat (2048 * m) + stm32PageSize).toNat = 2048 * (m + 1) := by
    rw [UInt32.toNat_add, UInt32.toNat_ofNat']
    show (2048 * m % 2 ^ 32 + 2048) % 2 ^ 32 = _
    omega
  rw [UInt32.lt_iff_toNat_lt, filled.last, next]
  unfold blocks
  omega

/-- The bytes of the m-th page that there are. -/
def payloadSize (part : ImageSection) (m : Nat) : UInt32 :=
  min stm32PageSize (part.len - UInt32.ofNat (2048 * m))

theorem payloadSize_toNat (filled : Filled part) (inside : m < blocks part) :
    (payloadSize part m).toNat = min 2048 (part.len.toNat - 2048 * m) := by
  have few := blocks_few filled.small inside
  have positive := filled.positive
  have bound := part.len.toNat_lt
  have rest : (part.len - UInt32.ofNat (2048 * m)).toNat = part.len.toNat - 2048 * m := by
    rw [UInt32.toNat_sub, UInt32.toNat_ofNat']
    unfold blocks at inside
    omega
  unfold payloadSize
  rw [← rest]
  show (if stm32PageSize ≤ part.len - UInt32.ofNat (2048 * m) then _ else _ : UInt32).toNat = _
  split
  case isTrue le =>
    have le' := UInt32.le_iff_toNat_le.mp le
    exact (Nat.min_eq_left le').symm
  case isFalse less =>
    have less' : ¬2048 ≤ (part.len - UInt32.ofNat (2048 * m)).toNat :=
      fun le => less (UInt32.le_iff_toNat_le.mpr le)
    omega

/-- Whether the loop that writes goes on behind the m-th page, and where. -/
theorem write_more (filled : Filled part) (inside : m < blocks part) :
    (UInt32.ofNat (2048 * m) + payloadSize part m < part.len - 1 ↔ m + 1 < blocks part) ∧
      (m + 1 < blocks part →
        UInt32.ofNat (2048 * m) + payloadSize part m = UInt32.ofNat (2048 * (m + 1))) := by
  have few := blocks_few filled.small inside
  have positive := filled.positive
  have bound := part.len.toNat_lt
  have sum : (UInt32.ofNat (2048 * m) + payloadSize part m).toNat =
      2048 * m + min 2048 (part.len.toNat - 2048 * m) := by
    rw [UInt32.toNat_add, payloadSize_toNat filled inside, UInt32.toNat_ofNat']
    omega
  constructor
  · rw [UInt32.lt_iff_toNat_lt, filled.last, sum]
    unfold blocks at *
    omega
  · intro more
    apply UInt32.toNat_inj.mp
    rw [sum, UInt32.toNat_ofNat']
    unfold blocks at *
    omega

/-- The number of a block, which counts from 2 on. -/
theorem blockNum_toNat (few : 2048 * m < 0x20000) :
    ((UInt32.ofNat (2048 * m) / stm32PageSize).toUInt8 + 2).toNat = m + 2 := by
  rw [UInt8.toNat_add, UInt32.toNat_toUInt8, UInt32.toNat_div, UInt32.toNat_ofNat']
  show (2048 * m % 2 ^ 32 / 2048 % 256 + 2) % 256 = _
  omega

theorem payloadAt_eq (filled : Filled part) (inside : m < blocks part) :
    payloadAt part (UInt32.ofNat (2048 * m)) (payloadSize part m) = blockData part m := by
  have few := blocks_few filled.small inside
  have size := payloadSize_toNat filled inside
  have sized := part.sized
  have place : (UInt32.ofNat (2048 * m)).toNat = 2048 * m := by
    rw [UInt32.toNat_ofNat']
    omega
  have chunk : ((part.image.drop (2048 * m)).take 2048).length = (payloadSize part m).toNat := by
    rw [List.length_take, List.length_drop, size, sized]
  have same : (part.image.drop (2048 * m)).take (payloadSize part m).toNat =
      (part.image.drop (2048 * m)).take 2048 := by
    rw [size, ← sized, ← List.length_drop]
    exact List.take_eq_take_min.symm
  unfold payloadAt blockData
  dsimp only
  rw [place, same, chunk]
  rfl

end Blocks

namespace Dfu

variable {image : List ImageSection} {first : Device} {phase : Phase} {d : Device}

/-- The accesses that are still to come. -/
def remaining (image : List ImageSection) : Phase → List Access
  | .eraseFrom todo => todo.flatMap erases ++ image.flatMap writes
  | .erasing part byteInSection todo =>
    (erases part).drop (byteInSection.toNat / 2048) ++ todo.flatMap erases ++ image.flatMap writes
  | .writeFrom todo => todo.flatMap writes
  | .writing part byteInSection todo =>
    (writes part).drop (byteInSection.toNat / 2048) ++ todo.flatMap writes

def Within (image : List ImageSection) (pointer : UInt32) : Phase → Prop
  | .eraseFrom todo | .writeFrom todo => todo ⊆ image
  | .erasing part byteInSection todo =>
    part ∈ image ∧ todo ⊆ image ∧ part.address &&& stm32PageErrorMask = 0 ∧
      ∃ m < blocks part, byteInSection = UInt32.ofNat (2048 * m)
  | .writing part byteInSection todo =>
    part ∈ image ∧ todo ⊆ image ∧ pointer = part.address ∧
      ∃ m < blocks part, byteInSection = UInt32.ofNat (2048 * m)

/-- What has been done and what is still to come are the accesses that follow from the sections. -/
structure Progress (image : List ImageSection) (first : Device) (state : Phase × Device) :
    Prop where
  ready : state.2.Ready
  geometry : state.2.toGeometry = first.toGeometry
  outcome : state.2.outcome = first.outcome
  initial : state.2.initial = first.initial
  within : Within image state.2.pointer state.1
  history : state.2.history ++ remaining image state.1 = planned image

/-- Passes that are left at most. -/
def left (image : List ImageSection) (phase : Phase) : Nat :=
  (remaining image phase).length +
    match phase with
    | .eraseFrom todo | .erasing _ _ todo => todo.length + image.length + 1
    | .writeFrom todo | .writing _ _ todo => todo.length

/-- A download that succeeds has made the planned accesses, and it succeeds if the device is never
busy. -/
structure Finished (image : List ImageSection) (first : Device)
    (answer : OperationResult × Device) : Prop where
  done : answer.1 = .ok → answer.2.initial = first.initial ∧
    answer.2.toGeometry = first.toGeometry ∧ answer.2.history = planned image
  prompt : (∀ n, first.outcome n = some 0) → answer.1 = .ok

/-- A pass goes on as planned, or the download is at its end. -/
def Advances (image : List ImageSection) (first : Device) (phase : Phase) :
    (Phase × Device) ⊕ (OperationResult × Device) → Prop
  | .inl next => Progress image first next ∧ left image next.1 < left image phase
  | .inr answer => Finished image first answer

private theorem Progress.taken (progress : Progress image first (phase, d)) {phase' : Phase}
    {d' : Device} {access : Access} (ready : d'.Ready)
    (like : d'.Like { d with history := d.history ++ [access] })
    (next : remaining image phase = access :: remaining image phase')
    (within : Within image d'.pointer phase') : Progress image first (phase', d') := by
  have history := progress.history
  dsimp only at history
  rw [next] at history
  refine ⟨ready, like.geometry.trans progress.geometry, like.outcome.trans progress.outcome,
    like.initial.trans progress.initial, within, ?_⟩
  dsimp only
  rw [like.history, List.append_assoc]
  exact history

private theorem Progress.kept (progress : Progress image first (phase, d)) {phase' : Phase}
    {d' : Device} {pointer : UInt32} (ready : d'.Ready) (like : d'.Like { d with pointer })
    (same : remaining image phase = remaining image phase')
    (within : Within image d'.pointer phase') : Progress image first (phase', d') := by
  have history := progress.history
  dsimp only at history
  rw [same, ← like.history] at history
  exact ⟨ready, like.geometry.trans progress.geometry, like.outcome.trans progress.outcome,
    like.initial.trans progress.initial, within, history⟩

private theorem Progress.fails (progress : Progress image first (phase, d)) {done : Device}
    {answer : Device × Bool} (does : d.Does answer done) (failed : ¬answer.2 = true) :
    Advances image first phase (.inr (.error, answer.1)) := by
  refine ⟨nofun, fun always => absurd (does.prompt fun n => ?_) failed⟩
  exact (congrFun progress.outcome n).trans (always n)

section Pass

variable {part : ImageSection} {todo : List ImageSection} {byteInSection : UInt32}

private theorem place_div {m : Nat} (few : 2048 * m < 0x20000) :
    (UInt32.ofNat (2048 * m)).toNat / 2048 = m := by
  rw [UInt32.toNat_ofNat']
  omega

private theorem place_next (m : Nat) :
    UInt32.ofNat (2048 * m) + stm32PageSize = UInt32.ofNat (2048 * (m + 1)) := by
  rw [Nat.mul_succ, UInt32.ofNat_add]
  rfl

theorem Progress.eraseFrom (progress : Progress image first (.eraseFrom todo, d))
    (filled : ∀ part ∈ image, Filled part) :
    Advances image first (.eraseFrom todo) (step image (.eraseFrom todo, d)) := by
  have within : todo ⊆ image := progress.within
  cases todo with
  | nil =>
    refine ⟨progress.kept progress.ready (.refl d) rfl (List.Subset.refl image), ?_⟩
    show (image.flatMap writes).length + image.length <
      (image.flatMap writes).length + (0 + image.length + 1)
    omega
  | cons part todo =>
    obtain ⟨inside, rest⟩ := List.cons_subset.mp within
    unfold Dfu.step
    dsimp only
    split
    case isTrue unaligned =>
      have none : erases part = [] := if_pos unaligned
      have same : remaining image (.eraseFrom (part :: todo)) = remaining image (.eraseFrom todo) := by
        dsimp only [remaining]
        rw [List.flatMap_cons, none, List.nil_append]
      refine ⟨progress.kept progress.ready (.refl d) same rest, ?_⟩
      unfold left
      rw [same]
      simp
    case isFalse aligned =>
      rw [if_neg (filled part inside).1]
      have same : remaining image (.eraseFrom (part :: todo)) =
          remaining image (.erasing part 0 todo) := by
        dsimp only [remaining]
        rw [List.flatMap_cons]
        rfl
      refine ⟨progress.kept progress.ready (.refl d) same
        ⟨inside, rest, not_not.mp aligned, 0, Nat.le_max_left .., rfl⟩, ?_⟩
      unfold left
      rw [same]
      simp

theorem Progress.erasing (progress : Progress image first (.erasing part byteInSection todo, d))
    (filled : ∀ part ∈ image, Filled part) :
    Advances image first (.erasing part byteInSection todo)
      (step image (.erasing part byteInSection todo, d)) := by
  obtain ⟨inside, rest, aligned, m, small, rfl⟩ := progress.within
  have fill := filled part inside
  have few := blocks_few fill.small small
  have ready : d.Ready := progress.ready
  have does := ready.erase_does (UInt32.ofNat (2048 * m) + part.address)
  have all : erases part = (List.range (blocks part)).map fun m => .erase (blockAddress part m) :=
    if_neg (not_not.mpr aligned)
  have here : (erases part).drop m =
      .erase (UInt32.ofNat (2048 * m) + part.address) :: (erases part).drop (m + 1) := by
    rw [all, counted_next _ small, UInt32.add_comm]
    rfl
  unfold Dfu.step
  dsimp only
  split
  case isFalse failed => exact progress.fails does failed
  case isTrue success =>
    obtain ⟨ready, like⟩ := does.takes success
    split
    case isTrue more =>
      have next := (erase_more fill small).mp more
      have order : remaining image (.erasing part (UInt32.ofNat (2048 * m)) todo) =
          .erase (UInt32.ofNat (2048 * m) + part.address) ::
            remaining image (.erasing part (UInt32.ofNat (2048 * m) + stm32PageSize) todo) := by
        dsimp only [remaining]
        rw [place_next, place_div few, place_div (blocks_few fill.small next), here]
        rfl
      refine ⟨progress.taken ready like order
        ⟨inside, rest, aligned, m + 1, next, place_next m⟩, ?_⟩
      unfold left
      rw [order]
      simp
    case isFalse last =>
      have done : blocks part ≤ m + 1 := Nat.le_of_not_lt fun next => last ((erase_more fill small).mpr next)
      have order : remaining image (.erasing part (UInt32.ofNat (2048 * m)) todo) =
          .erase (UInt32.ofNat (2048 * m) + part.address) :: remaining image (.eraseFrom todo) := by
        dsimp only [remaining]
        rw [place_div few, here, all, counted_done _ done]
        rfl
      refine ⟨progress.taken ready like order rest, ?_⟩
      unfold left
      rw [order]
      simp

theorem Progress.writeFrom (progress : Progress image first (.writeFrom todo, d)) :
    Advances image first (.writeFrom todo) (step image (.writeFrom todo, d)) := by
  have within : todo ⊆ image := progress.within
  have ready : d.Ready := progress.ready
  cases todo with
  | nil =>
    unfold Dfu.step
    dsimp only
    have history : d.history ++ [] = planned image := progress.history
    rw [List.append_nil] at history
    have idle : ({ d with state := .idle } : Device).Ready := .inl rfl
    obtain ⟨still, found⟩ := idle.dfuWaitForState .idle
    rw [ready.abort, if_pos rfl]
    dsimp only
    rw [still, if_pos (found rfl)]
    exact ⟨fun _ => ⟨progress.initial, progress.geometry, history⟩, fun _ => rfl⟩
  | cons part todo =>
    obtain ⟨inside, rest⟩ := List.cons_subset.mp within
    unfold Dfu.step
    dsimp only
    rw [(ready.dfuWaitForState .dnloadIdle).1]
    have does := ready.setAddress_does part.address
    split
    case isFalse failed => exact progress.fails does failed
    case isTrue success =>
      obtain ⟨ready', like⟩ := does.takes success
      have same : remaining image (.writeFrom (part :: todo)) =
          remaining image (.writing part 0 todo) := by
        dsimp only [remaining]
        rw [List.flatMap_cons]
        rfl
      refine ⟨progress.kept ready' like same
        ⟨inside, rest, like.pointer, 0, Nat.le_max_left .., rfl⟩, ?_⟩
      unfold left
      rw [same]
      simp

private theorem step_writing (m : Nat) :
    step image (.writing part (UInt32.ofNat (2048 * m)) todo, d) =
      let written := d.dfuDnload ((UInt32.ofNat (2048 * m) / stm32PageSize).toUInt8 + 2)
        (payloadAt part (UInt32.ofNat (2048 * m)) (payloadSize part m))
      if written.2 then
        if UInt32.ofNat (2048 * m) + payloadSize part m < part.len - 1 then
          .inl (.writing part (UInt32.ofNat (2048 * m) + payloadSize part m) todo, written.1)
        else .inl (.writeFrom todo, written.1)
      else .inr (.error, written.1) := rfl

theorem Progress.writing (progress : Progress image first (.writing part byteInSection todo, d))
    (filled : ∀ part ∈ image, Filled part) (size : first.transferSize = 2048) :
    Advances image first (.writing part byteInSection todo)
      (step image (.writing part byteInSection todo, d)) := by
  obtain ⟨inside, rest, pointer, m, small, rfl⟩ := progress.within
  have ready : d.Ready := progress.ready
  have fill := filled part inside
  have few := blocks_few fill.small small
  obtain ⟨more_iff, more_place⟩ := write_more fill small
  have does := ready.write_does (blockNum_toNat few)
    (payloadAt part (UInt32.ofNat (2048 * m)) (payloadSize part m))
  have transfer : d.transferSize = 2048 :=
    (congrArg Geometry.transferSize progress.geometry).trans size
  have address : d.pointer + UInt32.ofNat (m * d.transferSize) = blockAddress part m := by
    rw [transfer, Nat.mul_comm]
    exact congrArg (· + _) pointer
  rw [address, payloadAt_eq fill small] at does
  have here : (writes part).drop m =
      .write (blockAddress part m) (blockData part m) :: (writes part).drop (m + 1) :=
    counted_next _ small
  rw [step_writing, payloadAt_eq fill small]
  dsimp only
  split
  case isFalse failed => exact progress.fails does failed
  case isTrue success =>
    obtain ⟨ready', like⟩ := does.takes success
    split
    case isTrue more =>
      have next := more_iff.mp more
      have order : remaining image (.writing part (UInt32.ofNat (2048 * m)) todo) =
          .write (blockAddress part m) (blockData part m) ::
            remaining image (.writing part (UInt32.ofNat (2048 * m) + payloadSize part m) todo) := by
        dsimp only [remaining]
        rw [more_place next, place_div few, place_div (blocks_few fill.small next), here]
        rfl
      refine ⟨progress.taken ready' like order
        ⟨inside, rest, like.pointer.trans pointer, m + 1, next, more_place next⟩, ?_⟩
      unfold left
      rw [order]
      simp
    case isFalse last =>
      have done : blocks part ≤ m + 1 := Nat.le_of_not_lt fun next => last (more_iff.mpr next)
      have order : remaining image (.writing part (UInt32.ofNat (2048 * m)) todo) =
          .write (blockAddress part m) (blockData part m) :: remaining image (.writeFrom todo) := by
        dsimp only [remaining]
        rw [place_div few, here]
        unfold writes
        rw [counted_done _ done]
        rfl
      refine ⟨progress.taken ready' like order rest, ?_⟩
      unfold left
      rw [order]
      simp

/-- Every pass goes on as planned, or is the last one. -/
theorem Progress.step {state : Phase × Device} (progress : Progress image first state)
    (filled : ∀ part ∈ image, Filled part) (size : first.transferSize = 2048) :
    Advances image first state.1 (step image state) := by
  obtain ⟨phase, d⟩ := state
  cases phase with
  | eraseFrom todo => exact progress.eraseFrom filled
  | erasing part byteInSection todo => exact progress.erasing filled
  | writeFrom todo => exact progress.writeFrom
  | writing part byteInSection todo => exact progress.writing filled size

end Pass

/-! ### A whole download -/

section Run

variable {sections : List ImageSection} {answer : OperationResult × Device}

private theorem prepare_cases (sections : List ImageSection) (d : Device) :
    (∃ d', prepare sections d = .inr (.error, d')) ∨
      prepare sections d = .inl (.eraseFrom (placed sections), { d with state := .idle }) := by
  unfold prepare
  dsimp only
  split
  case isTrue success =>
    have idle : ({ d with state := .idle } : Device).Ready := .inl rfl
    obtain ⟨still, found⟩ := idle.dfuWaitForState .idle
    rw [Device.abort_success success, still, if_pos (found rfl)]
    split
    · exact .inl ⟨_, rfl⟩
    · exact .inr rfl
  case isFalse => exact .inl ⟨_, rfl⟩

private theorem prepare_succeeds (ready : d.Ready) (some : sections ≠ []) (d' : Device) :
    prepare sections d ≠ .inr (.error, d') := by
  intro same
  have idle : ({ d with state := .idle } : Device).Ready := .inl rfl
  unfold prepare at same
  rw [ready.abort, if_pos rfl] at same
  dsimp only at same
  rw [if_pos ((idle.dfuWaitForState .idle).2 rfl), if_neg some] at same
  cases same

/-- Where the loops begin, everything is still to be done. -/
private theorem progress_start (fresh : d.history = []) :
    Progress image d (.eraseFrom image, { d with state := .idle }) := by
  refine ⟨.inl rfl, rfl, rfl, rfl, List.Subset.refl image, ?_⟩
  show d.history ++ planned image = planned image
  rw [fresh]
  rfl

/-- A download of sections with bytes in them ends, whatever the device answers. -/
theorem download_ends (filled : ∀ part ∈ placed sections, Filled part)
    (size : d.transferSize = 2048) (fresh : d.history = []) :
    ∃ answer, DownloadImage sections d answer := by
  unfold DownloadImage
  rcases prepare_cases sections d with ⟨d', same⟩ | same
  · rw [same]
    exact ⟨_, rfl⟩
  · rw [same]
    have passes (state : Phase × Device) (progress : Progress (placed sections) d state) :
        (∃ answer, .inr answer = step (placed sections) state ∧ True) ∨
          ∃ next, .inl next = step (placed sections) state ∧ Progress (placed sections) d next ∧
            left (placed sections) next.1 < left (placed sections) state.1 ∧
              ∀ _ : OperationResult × Device, True → True := by
      have advances := progress.step filled size
      cases next : step (placed sections) state with
      | inl next' =>
        rw [next] at advances
        exact .inr ⟨next', rfl, advances.1, advances.2, fun _ _ => trivial⟩
      | inr answer => exact .inl ⟨answer, rfl, trivial⟩
    obtain ⟨answer, ends, -⟩ := @Ends.of_measure (Phase × Device) (OperationResult × Device)
      (fun state next => next = step (placed sections) state) _
      (Progress (placed sections) d) (fun _ _ => True)
      (fun state => left (placed sections) state.1) passes (progress_start fresh)
    exact ⟨answer, ends⟩

/-- If it succeeds, the accesses are the planned ones; it does so with a device that is never
busy. -/
theorem download_done (filled : ∀ part ∈ placed sections, Filled part)
    (size : d.transferSize = 2048) (fresh : d.history = [])
    (returns : DownloadImage sections d answer) :
    (answer.1 = .ok → answer.2.initial = d.initial ∧ answer.2.toGeometry = d.toGeometry ∧
      answer.2.history = planned (placed sections)) ∧
    ((∀ n, d.outcome n = some 0) → d.Ready → sections ≠ [] → answer.1 = .ok) := by
  unfold DownloadImage at returns
  rcases prepare_cases sections d with ⟨d', same⟩ | same
  · rw [same] at returns
    subst returns
    exact ⟨nofun, fun _ ready some => absurd same (prepare_succeeds ready some d')⟩
  · rw [same] at returns
    have kept (state next : Phase × Device) (progress : Progress (placed sections) d state)
        (goes : .inl next = step (placed sections) state) : Progress (placed sections) d next := by
      have advances := progress.step filled size
      rw [← goes] at advances
      exact advances.1
    have established (state : Phase × Device) (answer : OperationResult × Device)
        (progress : Progress (placed sections) d state)
        (leaves : .inr answer = step (placed sections) state) : Finished (placed sections) d answer := by
      have advances := progress.step filled size
      rw [← leaves] at advances
      exact advances
    have finished := @Ends.satisfies _ _ (fun state next => next = step (placed sections) state)
      _ _ (Progress (placed sections) d) (Finished (placed sections) d) kept established
      (progress_start fresh) returns
    exact ⟨finished.done, fun always _ _ => finished.prompt always⟩

end Run

/-! ### An empty section -/

section Empty

/-- There is an empty section where the loops are or where they will come. -/
def EmptyAhead (image : List ImageSection) : Phase → Prop
  | .eraseFrom _ | .erasing _ _ _ => True
  | .writeFrom todo => todo ⊆ image ∧ ∃ part ∈ todo, part.len = 0
  | .writing part byteInSection todo =>
    part ∈ image ∧ todo ⊆ image ∧ (∃ m < blocks part, byteInSection = UInt32.ofNat (2048 * m)) ∧
      (part.len = 0 ∨ ∃ part ∈ todo, part.len = 0)

/-- The device does everything at once, and an empty section is ahead. -/
structure Stuck (image : List ImageSection) (state : Phase × Device) : Prop where
  ready : state.2.Ready
  prompt : ∀ n, state.2.outcome n = some 0
  ahead : EmptyAhead image state.1

variable {part : ImageSection} {byteInSection : UInt32} {todo : List ImageSection}

private theorem Stuck.does (stuck : Stuck image (phase, d)) {transfer : Device × Bool}
    {done : Device} (does : d.Does transfer done) (same : done.outcome = d.outcome)
    (next : Phase) (ahead : EmptyAhead image next) :
    transfer.2 = true ∧ Stuck image (next, transfer.1) := by
  have success := does.prompt stuck.prompt
  obtain ⟨ready, like⟩ := does.takes success
  refine ⟨success, ready, fun n => ?_, ahead⟩
  rw [like.outcome, same]
  exact stuck.prompt n

private theorem Stuck.erasing (stuck : Stuck image (.erasing part byteInSection todo, d)) :
    ∃ next, step image (.erasing part byteInSection todo, d) = .inl next ∧ Stuck image next := by
  have ready : d.Ready := stuck.ready
  unfold Dfu.step
  dsimp only
  have does := ready.erase_does (byteInSection + part.address)
  rw [if_pos (does.prompt stuck.prompt)]
  split
  · exact ⟨_, rfl, (stuck.does does rfl (.erasing ..) trivial).2⟩
  · exact ⟨_, rfl, (stuck.does does rfl (.eraseFrom _) trivial).2⟩

private theorem Stuck.writeFrom (stuck : Stuck image (.writeFrom todo, d)) :
    ∃ next, step image (.writeFrom todo, d) = .inl next ∧ Stuck image next := by
  have ready : d.Ready := stuck.ready
  obtain ⟨within, empty, member, none⟩ := stuck.ahead
  cases todo with
  | nil => cases member
  | cons part todo =>
    obtain ⟨inside, rest⟩ := List.cons_subset.mp within
    have ahead : EmptyAhead image (.writing part 0 todo) := by
      refine ⟨inside, rest, ⟨0, Nat.le_max_left .., rfl⟩, ?_⟩
      rcases List.mem_cons.mp member with rfl | later
      · exact .inl none
      · exact .inr ⟨empty, later, none⟩
    unfold Dfu.step
    dsimp only
    rw [(ready.dfuWaitForState .dnloadIdle).1]
    obtain ⟨success, next⟩ := stuck.does (ready.setAddress_does part.address) rfl _ ahead
    rw [if_pos success]
    exact ⟨_, rfl, next⟩

private theorem Stuck.writing (stuck : Stuck image (.writing part byteInSection todo, d))
    (small : ∀ part ∈ image, part.len.toNat ≤ maxIhexSectionLen) :
    ∃ next, step image (.writing part byteInSection todo, d) = .inl next ∧ Stuck image next := by
  have ready : d.Ready := stuck.ready
  obtain ⟨inside, rest, ⟨m, place, rfl⟩, empty⟩ := stuck.ahead
  have few := blocks_few (small part inside) place
  have does := ready.write_does (blockNum_toNat few)
    (payloadAt part (UInt32.ofNat (2048 * m)) (payloadSize part m))
  rw [step_writing]
  dsimp only
  rw [if_pos (does.prompt stuck.prompt)]
  by_cases none : part.len = 0
  · -- the loop stays where it is: there is nothing left to write, and always less than is left out
    have first : m = 0 := by
      unfold blocks at place
      rw [none, UInt32.toNat_zero] at place
      omega
    subst first
    have stays : UInt32.ofNat (2048 * 0) + payloadSize part 0 = 0 := by
      unfold payloadSize
      rw [none]
      rfl
    rw [if_pos (by rw [stays, none]; decide)]
    exact ⟨_, rfl,
      (stuck.does does rfl (.writing ..) ⟨inside, rest, ⟨0, place, stays⟩, .inl none⟩).2⟩
  · have later := empty.resolve_left none
    have filled : Filled part := ⟨none, small part inside⟩
    obtain ⟨more_iff, more_place⟩ := write_more filled place
    split
    case isTrue more =>
      have next := more_iff.mp more
      exact ⟨_, rfl, (stuck.does does rfl (.writing ..)
        ⟨inside, rest, ⟨m + 1, next, more_place next⟩, .inr later⟩).2⟩
    case isFalse => exact ⟨_, rfl, (stuck.does does rfl (.writeFrom _) ⟨rest, later⟩).2⟩

/-- A pass does not lead out. -/
theorem Stuck.step {state : Phase × Device} (stuck : Stuck image state)
    (small : ∀ part ∈ image, part.len.toNat ≤ maxIhexSectionLen)
    (empty : ∃ part ∈ image, part.len = 0) :
    ∃ next, step image state = .inl next ∧ Stuck image next := by
  obtain ⟨phase, d⟩ := state
  cases phase with
  | eraseFrom todo =>
    cases todo with
    | nil => exact ⟨_, rfl, stuck.ready, stuck.prompt, List.Subset.refl image, empty⟩
    | cons part todo =>
      unfold Dfu.step
      dsimp only
      split
      · exact ⟨_, rfl, stuck.ready, stuck.prompt, trivial⟩
      · split
        · exact ⟨_, rfl, stuck.ready, stuck.prompt, trivial⟩
        · exact ⟨_, rfl, stuck.ready, stuck.prompt, trivial⟩
  | erasing part byteInSection todo => exact stuck.erasing
  | writeFrom todo => exact stuck.writeFrom
  | writing part byteInSection todo => exact stuck.writing small

/-- A device that does everything at once is sent pages of 0xFF for ever. -/
theorem download_endless {sections : List ImageSection}
    (small : ∀ part ∈ placed sections, part.len.toNat ≤ maxIhexSectionLen)
    (empty : ∃ part ∈ placed sections, part.len = 0) (ready : d.Ready)
    (prompt : ∀ n, d.outcome n = some 0) {answer : OperationResult × Device} :
    ¬DownloadImage sections d answer := by
  have some : sections ≠ [] := by
    rintro rfl
    obtain ⟨part, member, -⟩ := empty
    cases member
  intro returns
  unfold DownloadImage at returns
  rcases prepare_cases sections d with ⟨d', same⟩ | same
  · exact prepare_succeeds ready some d' same
  · rw [same] at returns
    have goes (state : Phase × Device) (answer : (Phase × Device) ⊕ (OperationResult × Device))
        (stuck : Stuck (placed sections) state) (same : answer = Dfu.step (placed sections) state) :
        ∃ next, answer = .inl next ∧ Stuck (placed sections) next := by
      rw [same]
      exact stuck.step small empty
    have start : Stuck (placed sections) (.eraseFrom (placed sections), { d with state := .idle }) :=
      ⟨.inl rfl, prompt, trivial⟩
    exact Ends.endless goes start returns

end Empty

end Dfu

end InertialSense.Bootloader
