import InertialSense.Bootloader.DfuUpdate
import InertialSense.Ihex.Bounds

/-! What `updateFirmware` makes a device do that performs what it is told: every transfer that
succeeds takes effect before the next one. -/

namespace InertialSense.Bootloader

open Foundation Ihex

/-- The accesses of a download of bytes to an address, a transfer at a time. -/
def Geometry.transfers (g : Geometry) (address : UInt32) (buf : List UInt8) : List Access :=
  .write address (buf.take g.transferSize) ::
    if buf.length ≤ g.transferSize then []
    else g.transfers (address + UInt32.ofNat g.transferSize) (buf.drop g.transferSize)
termination_by buf.length
decreasing_by
  have fits := g.commandFits
  rw [List.length_drop]
  omega

namespace Device

variable {d done : Device} {required : DfuState} {left : Nat}

/-- Every operation comes to an end. -/
def Performing (d : Device) : Prop := ∀ n, d.outcome n ≠ none

theorem prompt_performing (g : Geometry) (state : DfuState) (initial : UInt32 → UInt8) :
    (Device.prompt g state initial).Performing := fun _ => Option.some_ne_none 0

/-- The host goes on only if this has been done, and it does so if the device is never busy. -/
structure Performs (d after : Device) (success : Bool) (done : Device) : Prop where
  takes : success = true → after.Calm ∧ after.Like done
  prompt : (∀ n, d.outcome n = some 0) → d.Ready → success = true ∧ after.Ready

/-! ### Waiting -/

theorem Calm.waitLoop (calm : d.Calm) :
    (waitLoop required left d).Calm ∧ (waitLoop required left d).Like d := by
  induction left generalizing d with
  | zero =>
    unfold Device.waitLoop
    dsimp only
    rw [calm.getStatus.1.status, ite_self]
    exact calm.getStatus
  | succ left ih =>
    unfold Device.waitLoop
    dsimp only
    rw [calm.getStatus.1.status]
    split
    · exact calm.getStatus
    · obtain ⟨calm', like⟩ := ih calm.getStatus.1
      exact ⟨calm', like.trans calm.getStatus.2⟩

theorem Ready.waitLoop (ready : d.Ready) : waitLoop required left d = d := by
  induction left with
  | zero =>
    unfold Device.waitLoop
    dsimp only
    rw [ready.getStatus, ready.status, ite_self]
    rfl
  | succ left ih =>
    unfold Device.waitLoop
    dsimp only
    rw [ready.getStatus, ready.status]
    split
    · rfl
    · exact ih

/-- The block that was transferred takes effect while the host waits. -/
theorem sync_waitForState (sync : d.state = .dnloadSync) (performing : d.outcome d.begun ≠ none)
    (performed : d.perform = some done) :
    (d.waitForState .dnloadIdle).Calm ∧ (d.waitForState .dnloadIdle).Like done ∧
      (d.outcome d.begun = some 0 → (d.waitForState .dnloadIdle).Ready) := by
  rcases d.getStatus_sync sync with ⟨-, none | none⟩ | ⟨busy, done', answer, same, calm, like, prompt⟩
  · exact absurd none performing
  · rw [performed] at none
    cases none
  · obtain rfl := Option.some.inj (same.symm.trans performed)
    unfold waitForState Device.waitLoop
    dsimp only
    rw [calm.status]
    split
    case isTrue idle => exact ⟨calm, like, fun _ => .inr idle⟩
    case isFalse waiting =>
      obtain ⟨calm', like'⟩ := @Calm.waitLoop d.getStatus .dnloadIdle 5 calm
      refine ⟨calm', like'.trans like, fun always => absurd (prompt ?_) waiting⟩
      exact Option.some.inj (answer.symm.trans always)

/-- Waiting goes on. -/
theorem Performs.wait {after : Device} {success : Bool} (performs : d.Performs after success done)
    (required : DfuState) : d.Performs (after.waitForState required) success done := by
  refine ⟨fun found => ?_, fun always ready => ?_⟩
  · obtain ⟨calm, like⟩ := performs.takes found
    obtain ⟨calm', like'⟩ := @Calm.waitLoop after required 6 calm
    exact ⟨calm', like'.trans like⟩
  · obtain ⟨found, ready'⟩ := performs.prompt always ready
    refine ⟨found, ?_⟩
    unfold waitForState
    rw [ready'.waitLoop]
    exact ready'

/-! ### Transfers -/

private theorem Calm.send (calm : d.Calm) (performing : d.Performing) {wValue : Nat}
    {data : List UInt8}
    (performed : { d with state := .dnloadSync, block := wValue, data }.perform = some done) :
    d.Performs ((d.dnload wValue data).1.waitForState .dnloadIdle) (d.dnload wValue data).2 done := by
  have taken := sync_waitForState (d := { d with state := .dnloadSync, block := wValue, data }) rfl
    (performing _) performed
  constructor
  · intro success
    rcases calm with ready | busy
    · rw [ready.dnload]
      exact ⟨taken.1, taken.2.1⟩
    · unfold dnload at success
      rw [busy, if_neg (by decide)] at success
      cases success
  · intro always ready
    rw [ready.dnload]
    exact ⟨rfl, taken.2.2 (always _)⟩

/-- A command, which is a single block. -/
private theorem Calm.command (calm : d.Calm) (performing : d.Performing) {buf : List UInt8}
    (size : buf.length = 5)
    (performed : { d with state := .dnloadSync, block := 0, data := buf }.perform = some done) :
    d.Performs (d.download 0 buf).1 (d.download 0 buf).2.2 done ∧
      ((d.download 0 buf).2.2 = true → (d.download 0 buf).2.1 = 1) := by
  have fits : buf.length ≤ d.transferSize := size ▸ d.commandFits
  have whole : buf.take d.transferSize = buf := List.take_of_length_le fits
  have some : buf ≠ [] := by
    rintro rfl
    cases size
  have sends := calm.send performing performed
  have same : d.download 0 buf = if (d.dnload 0 buf).2 then
      ((d.dnload 0 buf).1.waitForState .dnloadIdle, 1, true) else ((d.dnload 0 buf).1, 0, false) := by
    rw [download]
    dsimp only
    rw [whole, if_neg some, if_pos fits]
    rfl
  rw [same]
  split
  case isTrue sent =>
    refine ⟨⟨fun _ => sends.takes sent, fun always ready => ?_⟩, fun _ => rfl⟩
    exact ⟨rfl, (sends.prompt always ready).2⟩
  case isFalse stalled =>
    exact ⟨⟨nofun, fun always ready => absurd (sends.prompt always ready).1 stalled⟩, nofun⟩

theorem Calm.erase (calm : d.Calm) (performing : d.Performing) (address : UInt32) :
    d.Performs (d.download 0 (0x41 :: toBytes 4 address.toNat)).1
      (d.download 0 (0x41 :: toBytes 4 address.toNat)).2.2
      { d with history := d.history ++ [.erase address] } := by
  have size : (0x41 :: toBytes 4 address.toNat).length = 5 := rfl
  obtain ⟨takes, prompt⟩ := (calm.command performing size rfl).1
  refine ⟨fun success => ⟨(takes success).1, (takes success).2.trans ⟨rfl, rfl, rfl, rfl, ?_⟩⟩, prompt⟩
  show d.history ++ [.erase (UInt32.ofNat (fromBytes (toBytes 4 address.toNat)))] = _
  rw [ofNat_fromBytes]

/-- Bytes for an address, so many blocks behind the address pointer. -/
theorem Calm.download_data (calm : d.Calm) (performing : d.Performing) {buf : List UInt8}
    (some : buf ≠ []) {wValue : UInt16} {n : Nat} (number : wValue.toNat = n + 2)
    (few : n + buf.length < 60000) :
    d.Performs (d.download wValue buf).1 (d.download wValue buf).2.2
      { d with
        history := d.history ++
          d.transfers (d.pointer + UInt32.ofNat (n * d.transferSize)) buf } := by
  induction size : buf.length using Nat.strongRecOn generalizing d buf wValue n with
  | ind size ih =>
    subst size
    have performed : { d with
        state := .dnloadSync
        block := wValue.toNat
        data := buf.take d.transferSize }.perform = .some { d with
          state := .dnloadSync
          block := wValue.toNat
          data := buf.take d.transferSize
          history := d.history ++ [.write (d.pointer + UInt32.ofNat (n * d.transferSize))
            (buf.take d.transferSize)] } := by
      rw [number]
      rfl
    have sends := calm.send performing performed
    rw [download, Geometry.transfers]
    dsimp only
    rw [if_neg some]
    split
    case isFalse stalled =>
      exact ⟨nofun, fun always ready => absurd (sends.prompt always ready).1 stalled⟩
    case isTrue sent =>
      obtain ⟨calm', like⟩ := sends.takes sent
      split
      case isTrue =>
        exact ⟨fun _ => ⟨calm', like.trans ⟨rfl, rfl, rfl, rfl, rfl⟩⟩,
          fun always ready => ⟨rfl, (sends.prompt always ready).2⟩⟩
      case isFalse more =>
        generalize (d.dnload wValue.toNat (buf.take d.transferSize)).1.waitForState .dnloadIdle =
          waited at *
        have geometry : waited.toGeometry = d.toGeometry := like.geometry
        have outcome : waited.outcome = d.outcome := like.outcome
        have pos := d.transfer_pos
        have shorter : (buf.drop d.transferSize).length = buf.length - d.transferSize :=
          List.length_drop
        have rest : buf.drop d.transferSize ≠ [] :=
          List.ne_nil_of_length_pos (by omega)
        have next : (wValue + 1).toNat = (n + 1) + 2 := by
          rw [UInt16.toNat_add, number]
          show (n + 2 + 1) % 2 ^ 16 = _
          omega
        have later := ih _ (by omega) calm' (by unfold Performing; rw [outcome]; exact performing)
          rest next (by omega) rfl
        refine ⟨fun success => ⟨(later.takes success).1, (later.takes success).2.trans ?_⟩,
          fun always ready => later.prompt ?_ (sends.prompt always ready).2⟩
        · refine ⟨geometry, outcome, like.pointer, like.initial, ?_⟩
          have pointer : waited.pointer = d.pointer := like.pointer
          have history : waited.history = d.history ++
              [.write (d.pointer + UInt32.ofNat (n * d.transferSize)) (buf.take d.transferSize)] :=
            like.history
          have place : d.pointer + UInt32.ofNat ((n + 1) * d.transferSize) =
              d.pointer + UInt32.ofNat (n * d.transferSize) + UInt32.ofNat d.transferSize := by
            rw [Nat.succ_mul, UInt32.ofNat_add, UInt32.add_assoc]
          show waited.history ++ waited.transfers _ _ = _
          rw [geometry, pointer, history, place, List.append_assoc]
          rfl
        · rw [outcome]
          exact always

theorem Calm.setAddress (calm : d.Calm) (performing : d.Performing) (address : UInt32) :
    d.Performs (d.setAddress address).1 (d.setAddress address).2.2
        { d with pointer := address } ∧
      ((d.setAddress address).2.2 = true → (d.setAddress address).2.1 = 2) := by
  have size : (0x21 :: toBytes 4 address.toNat).length = 5 := rfl
  obtain ⟨⟨takes, prompt⟩, number⟩ := calm.command performing size rfl
  have pointed (after : Device) (like : after.Like { d with
      state := .dnloadSync
      block := 0
      data := 0x21 :: toBytes 4 address.toNat
      pointer := UInt32.ofNat (fromBytes (toBytes 4 address.toNat)) }) :
      after.Like { d with pointer := address } :=
    like.trans ⟨rfl, rfl, ofNat_fromBytes address, rfl, rfl⟩
  unfold Device.setAddress
  dsimp only
  split
  case isFalse stalled =>
    exact ⟨⟨nofun, fun always ready => absurd (prompt always ready).1 stalled⟩, nofun⟩
  case isTrue success =>
    obtain ⟨calm', like⟩ := takes success
    have still (always : ∀ n, d.outcome n = some 0) (ready : d.Ready) :=
      (prompt always ready).2
    rw [number success, if_pos rfl]
    generalize (d.download 0 (0x21 :: toBytes 4 address.toNat)).1 = sent at *
    obtain ⟨calm₁, like₁⟩ := calm'.getStatus
    split
    case isFalse =>
      refine ⟨⟨fun _ => ⟨calm₁, pointed _ (like₁.trans like)⟩, fun always ready => ⟨rfl, ?_⟩⟩,
        fun _ => rfl⟩
      rw [(still always ready).getStatus]
      exact still always ready
    case isTrue busy =>
      obtain ⟨calm₂, like₂⟩ := calm₁.getStatus
      have never (always : ∀ n, d.outcome n = some 0) (ready : d.Ready) : False := by
        have state := busy.2
        rw [(still always ready).getStatus] at state
        rcases still always ready with same | same
        · rw [same] at state
          cases state
        · rw [same] at state
          cases state
      rw [if_pos calm₂.status]
      split
      case isFalse => exact ⟨⟨nofun, fun always ready => (never always ready).elim⟩, nofun⟩
      case isTrue aborted =>
        rw [abort_success aborted]
        have idle : ({ sent.getStatus.getStatus with state := .idle } : Device).Ready := .inl rfl
        unfold waitForState
        rw [idle.waitLoop]
        have all := pointed _ (like₂.trans (like₁.trans like))
        have taken : ({ sent.getStatus.getStatus with state := .idle } : Device).Like
            { d with pointer := address } :=
          ⟨all.geometry, all.outcome, all.pointer, all.initial, all.history⟩
        exact ⟨⟨fun _ => ⟨.inl idle, taken⟩, fun always ready => (never always ready).elim⟩,
          fun _ => rfl⟩

theorem Calm.writeAt (calm : d.Calm) (performing : d.Performing) {address : UInt32}
    {buf : List UInt8} (some : buf ≠ []) (few : buf.length < 60000)
    (success : (d.setAddress address).2.2 = true) :
    d.Performs
      (((d.setAddress address).1.download (d.setAddress address).2.1 buf).1.waitForState .dnloadIdle)
      ((d.setAddress address).1.download (d.setAddress address).2.1 buf).2.2
      { d with
        pointer := address
        history := d.history ++ d.transfers address buf } := by
  obtain ⟨points, number⟩ := calm.setAddress performing address
  obtain ⟨calm', like⟩ := points.takes success
  rw [number success]
  generalize (d.setAddress address).1 = pointed at *
  have outcome : pointed.outcome = d.outcome := like.outcome
  have geometry : pointed.toGeometry = d.toGeometry := like.geometry
  have pointer : pointed.pointer = address := like.pointer
  have history : pointed.history = d.history := like.history
  have writes := (calm'.download_data (by unfold Performing; rw [outcome]; exact performing) some
    (show (2 : UInt16).toNat = 0 + 2 from rfl) (by omega)).wait .dnloadIdle
  refine ⟨fun written => ?_, fun always ready => ?_⟩
  · obtain ⟨calm'', like'⟩ := writes.takes written
    refine ⟨calm'', like'.trans ⟨like.geometry, like.outcome, like.pointer, like.initial, ?_⟩⟩
    dsimp only
    rw [geometry, pointer, history, Nat.zero_mul]
    exact congrArg (d.history ++ d.transfers · _) (UInt32.add_zero _)
  · exact writes.prompt (by rw [outcome]; exact always) (points.prompt always ready).2

end Device

namespace Update

/-! ### What follows from the sections -/

/-- The passes of a loop over so many bytes: it ends when it has come to the last one. -/
def pages (pageSize : Nat) (len : UInt32) : Nat := max 1 ((len.toNat + pageSize - 2) / pageSize)

def chunk (pageSize : Nat) (part : ImageSection) (m : Nat) : List UInt8 :=
  (part.image.drop (pageSize * m)).take pageSize

def chunks (pageSize : Nat) (image : List ImageSection) : List (List UInt8) :=
  image.flatMap fun part => (List.range (pages pageSize part.len)).map (chunk pageSize part)

def pageAt (pageSize : Nat) (start : UInt32) (n : Nat) : UInt32 :=
  start + UInt32.ofNat (pageSize * n)

def erased (pageSize : Nat) (start : UInt32) (count : Nat) : List Access :=
  (List.range count).map fun n => .erase (pageAt pageSize start n)

def written (g : Geometry) (start : UInt32) (pages : List (List UInt8)) : List Access :=
  pages.zipIdx.flatMap fun page => g.transfers (pageAt g.pageSize start page.2) page.1

/-- All accesses of an update. -/
def planned (g : Geometry) (start : UInt32) (image : List ImageSection) : List Access :=
  erased g.pageSize start (chunks g.pageSize image).length ++
    written g start (chunks g.pageSize image)

/-- The page sizes of the flash memory. -/
def FlashPages (pageSize : Nat) : Prop := ∃ k ≤ 4, pageSize = 2048 * 2 ^ k

theorem FlashPages.bounds {pageSize : Nat} (size : FlashPages pageSize) :
    2048 ≤ pageSize ∧ pageSize ≤ 32768 ∧ pageSize % 2048 = 0 := by
  obtain ⟨k, few, rfl⟩ := size
  have small : 2 ^ k ≤ 2 ^ 4 := Nat.pow_le_pow_right (by decide) few
  have pos : 0 < 2 ^ k := Nat.pow_pos (by decide)
  omega

section Pages

variable {part : ImageSection} {pageSize m : Nat}

theorem FlashPages.more_iff (size : FlashPages pageSize) (len : UInt32) :
    m + 1 < pages pageSize len ↔ pageSize * (m + 1) + 1 < len.toNat := by
  obtain ⟨large, -, -⟩ := size.bounds
  have apart : m + 1 < pages pageSize len ↔ m + 2 ≤ (len.toNat + pageSize - 2) / pageSize := by
    unfold pages
    omega
  have next : (m + 2) * pageSize = pageSize * (m + 1) + pageSize := by
    rw [Nat.succ_mul, Nat.mul_comm]
  rw [apart, Nat.le_div_iff_mul_le (by omega), next]
  omega

/-- A page of a section begins before its end. -/
theorem FlashPages.begins (size : FlashPages pageSize) (filled : Filled part)
    (inside : m < pages pageSize part.len) : pageSize * m < part.len.toNat := by
  cases m with
  | zero => exact filled.positive
  | succ m =>
    have more := (size.more_iff part.len).mp inside
    omega

/-- Where the loop is at the m-th page of a section. -/
theorem FlashPages.place (size : FlashPages pageSize) (filled : Filled part)
    (inside : m < pages pageSize part.len) : (UInt32.ofNat (pageSize * m)).toNat = pageSize * m := by
  have begins := size.begins filled inside
  have bound := part.len.toNat_lt
  rw [UInt32.toNat_ofNat']
  omega

/-- Whether the loop of `eraseFlash` goes on behind the m-th page, and where. -/
theorem FlashPages.erase_more {mem : DfuMemory} (size : FlashPages mem.pageSize.toNat)
    (filled : Filled part) (inside : m < pages mem.pageSize.toNat part.len) :
    (UInt32.ofNat (mem.pageSize.toNat * m) + mem.pageSize < part.len - 1 ↔
      m + 1 < pages mem.pageSize.toNat part.len) ∧
    UInt32.ofNat (mem.pageSize.toNat * m) + mem.pageSize =
      UInt32.ofNat (mem.pageSize.toNat * (m + 1)) := by
  obtain ⟨-, small, -⟩ := size.bounds
  have begins := size.begins filled inside
  have bound := filled.small
  unfold maxIhexSectionLen at bound
  have next : UInt32.ofNat (mem.pageSize.toNat * m) + mem.pageSize =
      UInt32.ofNat (mem.pageSize.toNat * (m + 1)) := by
    rw [Nat.mul_succ, UInt32.ofNat_add, UInt32.ofNat_toNat]
  refine ⟨?_, next⟩
  rw [next, UInt32.lt_iff_toNat_lt, filled.last, size.more_iff, UInt32.toNat_ofNat']
  have positive := filled.positive
  rw [Nat.mul_succ]
  omega

/-- The bytes of the m-th page that there are. -/
def payloadLen (mem : DfuMemory) (part : ImageSection) (m : Nat) : UInt32 :=
  min mem.pageSize (part.len - UInt32.ofNat (mem.pageSize.toNat * m))

theorem FlashPages.payloadLen_toNat {mem : DfuMemory} (size : FlashPages mem.pageSize.toNat)
    (filled : Filled part) (inside : m < pages mem.pageSize.toNat part.len) :
    (payloadLen mem part m).toNat =
      min mem.pageSize.toNat (part.len.toNat - mem.pageSize.toNat * m) := by
  have begins := size.begins filled inside
  have bound := part.len.toNat_lt
  have rest : (part.len - UInt32.ofNat (mem.pageSize.toNat * m)).toNat =
      part.len.toNat - mem.pageSize.toNat * m := by
    rw [UInt32.toNat_sub, size.place filled inside]
    omega
  unfold payloadLen
  rw [← rest]
  show (if mem.pageSize ≤ part.len - UInt32.ofNat (mem.pageSize.toNat * m) then _
    else _ : UInt32).toNat = _
  split
  case isTrue le => exact (Nat.min_eq_left (UInt32.le_iff_toNat_le.mp le)).symm
  case isFalse less =>
    have less' : ¬mem.pageSize.toNat ≤
        (part.len - UInt32.ofNat (mem.pageSize.toNat * m)).toNat :=
      fun le => less (UInt32.le_iff_toNat_le.mpr le)
    omega

/-- Whether the loop of `writeFlash` goes on behind the m-th page, and where. -/
theorem FlashPages.write_more {mem : DfuMemory} (size : FlashPages mem.pageSize.toNat)
    (filled : Filled part) (inside : m < pages mem.pageSize.toNat part.len) :
    (UInt32.ofNat (mem.pageSize.toNat * m) + payloadLen mem part m < part.len - 1 ↔
      m + 1 < pages mem.pageSize.toNat part.len) ∧
    (m + 1 < pages mem.pageSize.toNat part.len →
      UInt32.ofNat (mem.pageSize.toNat * m) + payloadLen mem part m =
        UInt32.ofNat (mem.pageSize.toNat * (m + 1))) := by
  have begins := size.begins filled inside
  have positive := filled.positive
  have bound := filled.small
  unfold maxIhexSectionLen at bound
  obtain ⟨-, small, -⟩ := size.bounds
  have sum : (UInt32.ofNat (mem.pageSize.toNat * m) + payloadLen mem part m).toNat =
      mem.pageSize.toNat * m +
        min mem.pageSize.toNat (part.len.toNat - mem.pageSize.toNat * m) := by
    rw [UInt32.toNat_add, size.payloadLen_toNat filled inside, size.place filled inside]
    omega
  have more_iff := size.more_iff part.len (m := m)
  rw [Nat.mul_succ] at more_iff
  constructor
  · rw [UInt32.lt_iff_toNat_lt, filled.last, sum, more_iff]
    omega
  · intro more
    have more' := more_iff.mp more
    apply UInt32.toNat_inj.mp
    rw [sum, UInt32.toNat_ofNat', Nat.mul_succ]
    omega

/-- What `writeFlash` sends is the page. -/
theorem FlashPages.payload_eq {mem : DfuMemory} (size : FlashPages mem.pageSize.toNat)
    (filled : Filled part) (inside : m < pages mem.pageSize.toNat part.len) :
    (part.image.drop (UInt32.ofNat (mem.pageSize.toNat * m)).toNat).take
      (payloadLen mem part m).toNat = chunk mem.pageSize.toNat part m := by
  rw [size.place filled inside, size.payloadLen_toNat filled inside, ← part.sized,
    ← List.length_drop]
  exact List.take_eq_take_min.symm

theorem chunk_length (pageSize : Nat) (part : ImageSection) (m : Nat) :
    (chunk pageSize part m).length = min pageSize (part.len.toNat - pageSize * m) := by
  unfold chunk
  rw [List.length_take, List.length_drop, part.sized]

end Pages

/-! ### Progress -/

variable {image : List ImageSection} {mem : DfuMemory} {first d : Device}

def startOf : List ImageSection → UInt32
  | [] => 0
  | first :: _ => first.address

/-- The address of a page does not depend on where the memory begins. -/
theorem pageAddress_eq (some : image ≠ []) (behind : UInt32) :
    pageAddress mem (firstOffset image mem + behind) = startOf image + behind := by
  cases image with
  | nil => exact absurd rfl some
  | cons first rest =>
    show (mem.address + ((first.address.toUInt64 - mem.address).toUInt32 + behind).toUInt64).toUInt32 = _
    rw [UInt64.toUInt32_add, UInt32.toUInt32_toUInt64, UInt64.toUInt32_sub,
      UInt32.toUInt32_toUInt64, ← UInt32.add_assoc, UInt32.add_comm mem.address.toUInt32,
      UInt32.sub_add_cancel]
    rfl

/-- The pages that are still to come in the loop. -/
def ahead (pageSize : Nat) : Phase → List (List UInt8)
  | .eraseFrom todo | .writeFrom todo => chunks pageSize todo
  | .erasing part byteInSection todo | .writing part byteInSection todo =>
    ((List.range (pages pageSize part.len)).map (chunk pageSize part)).drop
      (byteInSection.toNat / pageSize) ++ chunks pageSize todo

def Within (pageSize : Nat) (image : List ImageSection) : Phase → Prop
  | .eraseFrom todo | .writeFrom todo => todo ⊆ image
  | .erasing part byteInSection todo | .writing part byteInSection todo =>
    part ∈ image ∧ todo ⊆ image ∧
      ∃ m < pages pageSize part.len, byteInSection = UInt32.ofNat (pageSize * m)

/-- It is the loop that writes. -/
def Phase.writes : Phase → Bool
  | .eraseFrom _ | .erasing _ _ _ => false
  | .writeFrom _ | .writing _ _ _ => true

/-- What has been done when a loop has come behind these pages. -/
def doneBehind (g : Geometry) (image : List ImageSection) (writes : Bool)
    (before : List (List UInt8)) : List Access :=
  if writes then
    erased g.pageSize (startOf image) (chunks g.pageSize image).length ++
      written g (startOf image) before
  else erased g.pageSize (startOf image) before.length

/-- The pages of the sections are taken one behind the other. -/
structure Progress (image : List ImageSection) (mem : DfuMemory) (first : Device)
    (state : State) : Prop where
  calm : state.device.Calm
  ready : (∀ n, first.outcome n = some 0) → state.device.Ready
  geometry : state.device.toGeometry = first.toGeometry
  outcome : state.device.outcome = first.outcome
  initial : state.device.initial = first.initial
  within : Within mem.pageSize.toNat image state.phase
  place : ∃ before, before ++ ahead mem.pageSize.toNat state.phase = chunks mem.pageSize.toNat image ∧
    state.offset = firstOffset image mem + UInt32.ofNat (mem.pageSize.toNat * before.length) ∧
    state.device.history = doneBehind first.toGeometry image state.phase.writes before

/-- Passes that are left at most. -/
def left (pageSize : Nat) (image : List ImageSection) (phase : Phase) : Nat :=
  (ahead pageSize phase).length +
    match phase with
    | .eraseFrom todo | .erasing _ _ todo =>
      todo.length + (chunks pageSize image).length + image.length + 1
    | .writeFrom todo | .writing _ _ todo => todo.length

/-- An update that succeeds has made the planned accesses, and it succeeds if the device is never
busy. -/
structure Finished (image : List ImageSection) (first : Device) (answer : DfuError × Device) :
    Prop where
  done : answer.1 = .none → answer.2.initial = first.initial ∧
    answer.2.toGeometry = first.toGeometry ∧
    answer.2.history = planned first.toGeometry (startOf image) image
  prompt : (∀ n, first.outcome n = some 0) → answer.1 = .none

/-- A pass goes on as planned, or the update is at its end. -/
def Advances (image : List ImageSection) (mem : DfuMemory) (first : Device) (phase : Phase) :
    State ⊕ (DfuError × Device) → Prop
  | .inl next => Progress image mem first next ∧
    left mem.pageSize.toNat image next.phase < left mem.pageSize.toNat image phase
  | .inr answer => Finished image first answer

section Pass

variable {part : ImageSection} {todo : List ImageSection} {byteInSection offset : UInt32}
  {phase phase' : Phase} {page : List UInt8} {after : Device}

private theorem written_append (g : Geometry) (start : UInt32) (before : List (List UInt8))
    (page : List UInt8) : written g start (before ++ [page]) =
      written g start before ++ g.transfers (pageAt g.pageSize start before.length) page := by
  unfold written
  rw [List.zipIdx_append, List.flatMap_append]
  simp

private theorem Progress.donePage (progress : Progress image mem first ⟨phase, offset, d⟩)
    (loop : phase'.writes = phase.writes) (calm : after.Calm)
    (ready : (∀ n, first.outcome n = .some 0) → after.Ready) {pointer : UInt32}
    {added : List Access} (like : after.Like { d with pointer, history := d.history ++ added })
    (next : ahead mem.pageSize.toNat phase = page :: ahead mem.pageSize.toNat phase')
    (within : Within mem.pageSize.toNat image phase')
    (adds : ∀ before : List (List UInt8),
      offset = firstOffset image mem + UInt32.ofNat (mem.pageSize.toNat * before.length) →
        doneBehind first.toGeometry image phase.writes (before ++ [page]) =
          doneBehind first.toGeometry image phase.writes before ++ added) :
    Progress image mem first ⟨phase', offset + mem.pageSize, after⟩ := by
  obtain ⟨before, all, place, history⟩ := progress.place
  dsimp only at all place history
  refine ⟨calm, ready, like.geometry.trans progress.geometry, like.outcome.trans progress.outcome,
    like.initial.trans progress.initial, within, before ++ [page], ?_, ?_, ?_⟩
  · rw [List.append_assoc, ← all, next]
    rfl
  · dsimp only
    rw [place, List.length_append, List.length_singleton, Nat.mul_succ, UInt32.ofNat_add,
      UInt32.ofNat_toNat, UInt32.add_assoc]
  · dsimp only
    rw [like.history, loop, adds before place, history]

private theorem Progress.erasedPage (progress : Progress image mem first ⟨phase, offset, d⟩)
    (size : first.pageSize = mem.pageSize.toNat) (some : image ≠ [])
    (loop : phase.writes = false) (loop' : phase'.writes = false) (calm : after.Calm)
    (ready : (∀ n, first.outcome n = .some 0) → after.Ready)
    (like : after.Like { d with history := d.history ++ [.erase (pageAddress mem offset)] })
    (next : ahead mem.pageSize.toNat phase = page :: ahead mem.pageSize.toNat phase')
    (within : Within mem.pageSize.toNat image phase') :
    Progress image mem first ⟨phase', offset + mem.pageSize, after⟩ := by
  refine progress.donePage (loop'.trans loop.symm) calm ready like next within fun before place => ?_
  rw [loop, place, pageAddress_eq some]
  unfold doneBehind
  rw [if_neg (by decide), if_neg (by decide), List.length_append, List.length_singleton]
  unfold erased
  rw [List.range_succ, List.map_append, size]
  rfl

private theorem Progress.writtenPage (progress : Progress image mem first ⟨phase, offset, d⟩)
    (size : first.pageSize = mem.pageSize.toNat) (some : image ≠ [])
    (loop : phase.writes = true) (loop' : phase'.writes = true) (calm : after.Calm)
    (ready : (∀ n, first.outcome n = .some 0) → after.Ready) {pointer : UInt32}
    (like : after.Like { d with
      pointer
      history := d.history ++ d.transfers (pageAddress mem offset) page })
    (next : ahead mem.pageSize.toNat phase = page :: ahead mem.pageSize.toNat phase')
    (within : Within mem.pageSize.toNat image phase') :
    Progress image mem first ⟨phase', offset + mem.pageSize, after⟩ := by
  have geometry : d.toGeometry = first.toGeometry := progress.geometry
  refine progress.donePage (loop'.trans loop.symm) calm ready like next within fun before place => ?_
  rw [loop, place, pageAddress_eq some, geometry]
  unfold doneBehind
  rw [if_pos rfl, if_pos rfl, written_append, List.append_assoc, size]
  rfl

private theorem Progress.fails (progress : Progress image mem first ⟨phase, offset, d⟩)
    {done : Device} {success : Bool} (performs : d.Performs after success done)
    (failed : ¬success = true) (answer : Device) :
    Advances image mem first phase (.inr (.libusb, answer)) := by
  refine ⟨nofun, fun always => absurd (performs.prompt (fun n => ?_) (progress.ready always)).1 failed⟩
  exact (congrFun progress.outcome n).trans (always n)

/-- The page of a section at which the loop is. -/
theorem FlashPages.number {m : Nat} (size : FlashPages mem.pageSize.toNat) (filled : Filled part)
    (inside : m < pages mem.pageSize.toNat part.len) :
    (UInt32.ofNat (mem.pageSize.toNat * m)).toNat / mem.pageSize.toNat = m := by
  obtain ⟨large, -, -⟩ := size.bounds
  rw [size.place filled inside, Nat.mul_div_cancel_left m (by omega)]

private theorem ahead_start {pageSize : Nat} :
    ((List.range (pages pageSize part.len)).map (chunk pageSize part)).drop
      ((0 : UInt32).toNat / pageSize) ++ chunks pageSize todo = chunks pageSize (part :: todo) := by
  rw [UInt32.toNat_zero, Nat.zero_div, List.drop_zero]
  unfold chunks
  rw [List.flatMap_cons]

private theorem ahead_more {m : Nat} (size : FlashPages mem.pageSize.toNat) (filled : Filled part)
    (inside : m + 1 < pages mem.pageSize.toNat part.len) (rest : List (List UInt8)) :
    ((List.range (pages mem.pageSize.toNat part.len)).map (chunk mem.pageSize.toNat part)).drop
        ((UInt32.ofNat (mem.pageSize.toNat * m)).toNat / mem.pageSize.toNat) ++ rest =
      chunk mem.pageSize.toNat part m ::
        (((List.range (pages mem.pageSize.toNat part.len)).map
          (chunk mem.pageSize.toNat part)).drop
            ((UInt32.ofNat (mem.pageSize.toNat * (m + 1))).toNat / mem.pageSize.toNat) ++ rest) := by
  have here : m < pages mem.pageSize.toNat part.len := Nat.lt_of_succ_lt inside
  rw [size.number filled here, size.number filled inside, counted_next _ here]
  rfl

private theorem ahead_last {m : Nat} (size : FlashPages mem.pageSize.toNat) (filled : Filled part)
    (inside : m < pages mem.pageSize.toNat part.len)
    (last : pages mem.pageSize.toNat part.len ≤ m + 1) (rest : List (List UInt8)) :
    ((List.range (pages mem.pageSize.toNat part.len)).map (chunk mem.pageSize.toNat part)).drop
        ((UInt32.ofNat (mem.pageSize.toNat * m)).toNat / mem.pageSize.toNat) ++ rest =
      chunk mem.pageSize.toNat part m :: rest := by
  rw [size.number filled inside, counted_next _ inside, counted_done _ last]
  rfl

private theorem left_page {pageSize behind : Nat}
    (before : left pageSize image phase = (ahead pageSize phase).length + behind)
    (after : left pageSize image phase' = (ahead pageSize phase').length + behind)
    (next : ahead pageSize phase = page :: ahead pageSize phase') :
    left pageSize image phase' < left pageSize image phase := by
  rw [before, after, next, List.length_cons]
  omega

private theorem Progress.prepared (progress : Progress image mem first ⟨phase, offset, d⟩)
    (size : FlashPages mem.pageSize.toNat) (some : image ≠ [])
    (aligned : startOf image &&& stm32PageErrorMask = 0) :
    d.prepAndValidateBeforeDownload (pageAddress mem offset) = (d, .none) := by
  obtain ⟨before, -, place, -⟩ := progress.place
  dsimp only at place
  obtain ⟨-, -, whole⟩ := size.bounds
  have even (address : UInt32) : address &&& stm32PageErrorMask = 0 ↔ address.toNat % 2048 = 0 := by
    rw [← UInt32.toNat_inj, UInt32.toNat_and]
    show address.toNat &&& (2 ^ 11 - 1) = 0 ↔ _
    rw [Nat.and_two_pow_sub_one_eq_mod]
  have behind : mem.pageSize.toNat * before.length % 2048 = 0 := by
    rw [Nat.mul_mod, whole, Nat.zero_mul, Nat.zero_mod]
  have page : (pageAddress mem offset) &&& stm32PageErrorMask = 0 := by
    rw [place, pageAddress_eq some, even, UInt32.toNat_add, UInt32.toNat_ofNat']
    have start := (even _).mp aligned
    omega
  unfold Device.prepAndValidateBeforeDownload
  rw [if_neg (not_not_intro page)]
  dsimp only
  rw [if_neg]
  rintro ⟨success, -⟩
  cases success

private theorem Progress.kept (progress : Progress image mem first ⟨phase, offset, d⟩)
    (loop : phase'.writes = phase.writes)
    (same : ahead mem.pageSize.toNat phase' = ahead mem.pageSize.toNat phase)
    (within : Within mem.pageSize.toNat image phase') :
    Progress image mem first ⟨phase', offset, d⟩ := by
  obtain ⟨before, all, place, history⟩ := progress.place
  refine ⟨progress.calm, progress.ready, progress.geometry, progress.outcome, progress.initial,
    within, before, ?_, place, ?_⟩
  · rw [← all]
    exact congrArg (before ++ ·) same
  · rw [history]
    exact congrArg (doneBehind first.toGeometry image · before) loop.symm

theorem Progress.eraseFrom (progress : Progress image mem first ⟨.eraseFrom todo, offset, d⟩)
    (size : FlashPages mem.pageSize.toNat) (page : first.pageSize = mem.pageSize.toNat)
    (filled : ∀ part ∈ image, Filled part) (some : image ≠ [])
    (aligned : startOf image &&& stm32PageErrorMask = 0) :
    Advances image mem first (.eraseFrom todo) (step image mem ⟨.eraseFrom todo, offset, d⟩) := by
  cases todo with
  | nil =>
    obtain ⟨before, all, place, history⟩ := progress.place
    have whole : before = chunks mem.pageSize.toNat image := (List.append_nil before).symm.trans all
    refine ⟨⟨progress.calm, progress.ready, progress.geometry, progress.outcome, progress.initial,
      List.Subset.refl image, [], rfl, (UInt32.add_zero _).symm, ?_⟩, ?_⟩
    · refine history.trans ?_
      rw [whole]
      show erased first.pageSize (startOf image) (chunks mem.pageSize.toNat image).length =
        erased first.pageSize (startOf image) (chunks first.pageSize image).length ++ []
      rw [page, List.append_nil]
    · show (chunks mem.pageSize.toNat image).length + image.length <
        (chunks mem.pageSize.toNat []).length +
          (0 + (chunks mem.pageSize.toNat image).length + image.length + 1)
      omega
  | cons part todo =>
    have within : part :: todo ⊆ image := progress.within
    obtain ⟨inside, rest⟩ := List.cons_subset.mp within
    unfold Update.step
    dsimp only
    rw [progress.prepared size some aligned, if_neg (not_not_intro rfl),
      if_neg (filled part inside).some]
    refine ⟨progress.kept rfl ahead_start ⟨inside, rest, 0, Nat.le_max_left .., rfl⟩, ?_⟩
    unfold left
    dsimp only [ahead]
    rw [ahead_start, List.length_cons]
    omega

theorem Progress.writeFrom (progress : Progress image mem first ⟨.writeFrom todo, offset, d⟩)
    (size : FlashPages mem.pageSize.toNat) (page : first.pageSize = mem.pageSize.toNat)
    (filled : ∀ part ∈ image, Filled part) (some : image ≠ [])
    (aligned : startOf image &&& stm32PageErrorMask = 0) :
    Advances image mem first (.writeFrom todo) (step image mem ⟨.writeFrom todo, offset, d⟩) := by
  cases todo with
  | nil =>
    obtain ⟨before, all, place, history⟩ := progress.place
    have whole : before = chunks mem.pageSize.toNat image := (List.append_nil before).symm.trans all
    refine ⟨fun _ => ⟨progress.initial, progress.geometry, history.trans ?_⟩, fun _ => rfl⟩
    rw [whole]
    show _ ++ written first.toGeometry _ (chunks mem.pageSize.toNat image) = _
    rw [← page]
    rfl
  | cons part todo =>
    have within : part :: todo ⊆ image := progress.within
    obtain ⟨inside, rest⟩ := List.cons_subset.mp within
    unfold Update.step
    dsimp only
    rw [progress.prepared size some aligned, if_neg (not_not_intro rfl),
      if_neg (filled part inside).some]
    refine ⟨progress.kept rfl ahead_start ⟨inside, rest, 0, Nat.le_max_left .., rfl⟩, ?_⟩
    unfold left
    dsimp only [ahead]
    rw [ahead_start, List.length_cons]
    omega

theorem Progress.erasing
    (progress : Progress image mem first ⟨.erasing part byteInSection todo, offset, d⟩)
    (size : FlashPages mem.pageSize.toNat) (page : first.pageSize = mem.pageSize.toNat)
    (filled : ∀ part ∈ image, Filled part) (some : image ≠ []) (performing : first.Performing) :
    Advances image mem first (.erasing part byteInSection todo)
      (step image mem ⟨.erasing part byteInSection todo, offset, d⟩) := by
  obtain ⟨inside, rest, m, small, rfl⟩ := progress.within
  have fill := filled part inside
  have outcome : d.outcome = first.outcome := progress.outcome
  have calm : d.Calm := progress.calm
  have erases := (calm.erase (by unfold Device.Performing; rw [outcome]; exact performing)
    (pageAddress mem offset)).wait .dnloadIdle
  obtain ⟨more_iff, more_place⟩ := size.erase_more fill small
  unfold Update.step
  dsimp only
  split
  case isFalse stalled => exact progress.fails erases stalled _
  case isTrue success =>
    obtain ⟨calm', like⟩ := erases.takes success
    have ready' (always : ∀ n, first.outcome n = .some 0) :=
      (erases.prompt (by rw [outcome]; exact always) (progress.ready always)).2
    split
    case isTrue more =>
      have inside' := more_iff.mp more
      have next : ahead mem.pageSize.toNat
          (.erasing part (UInt32.ofNat (mem.pageSize.toNat * m)) todo) =
            chunk mem.pageSize.toNat part m :: ahead mem.pageSize.toNat
              (.erasing part (UInt32.ofNat (mem.pageSize.toNat * m) + mem.pageSize) todo) := by
        rw [more_place]
        exact ahead_more size fill inside' _
      exact ⟨progress.erasedPage page some rfl rfl calm' ready' like next
        ⟨inside, rest, m + 1, inside', more_place⟩, left_page rfl rfl next⟩
    case isFalse last =>
      have done : pages mem.pageSize.toNat part.len ≤ m + 1 :=
        Nat.le_of_not_lt fun more => last (more_iff.mpr more)
      have next : ahead mem.pageSize.toNat
          (.erasing part (UInt32.ofNat (mem.pageSize.toNat * m)) todo) =
            chunk mem.pageSize.toNat part m :: ahead mem.pageSize.toNat (.eraseFrom todo) :=
        ahead_last size fill small done _
      exact ⟨progress.erasedPage page some rfl rfl calm' ready' like next rest, left_page rfl rfl next⟩

theorem Progress.writing
    (progress : Progress image mem first ⟨.writing part byteInSection todo, offset, d⟩)
    (size : FlashPages mem.pageSize.toNat) (page : first.pageSize = mem.pageSize.toNat)
    (filled : ∀ part ∈ image, Filled part) (some : image ≠ []) (performing : first.Performing) :
    Advances image mem first (.writing part byteInSection todo)
      (step image mem ⟨.writing part byteInSection todo, offset, d⟩) := by
  obtain ⟨inside, rest, m, small, rfl⟩ := progress.within
  have fill := filled part inside
  have outcome : d.outcome = first.outcome := progress.outcome
  have calm : d.Calm := progress.calm
  have performing' : d.Performing := by
    unfold Device.Performing
    rw [outcome]
    exact performing
  obtain ⟨more_iff, more_place⟩ := size.write_more fill small
  have pass : step image mem
      ⟨.writing part (UInt32.ofNat (mem.pageSize.toNat * m)) todo, offset, d⟩ =
      let pointed := d.setAddress (pageAddress mem offset)
      if pointed.2.2 then
        let written := pointed.1.download pointed.2.1
          ((part.image.drop (UInt32.ofNat (mem.pageSize.toNat * m)).toNat).take
            (payloadLen mem part m).toNat)
        if written.2.2 then
          let waited := written.1.waitForState .dnloadIdle
          if UInt32.ofNat (mem.pageSize.toNat * m) + payloadLen mem part m < part.len - 1 then
            .inl ⟨.writing part (UInt32.ofNat (mem.pageSize.toNat * m) + payloadLen mem part m) todo,
              offset + mem.pageSize, waited⟩
          else .inl ⟨.writeFrom todo, offset + mem.pageSize, waited⟩
        else .inr (.libusb, written.1)
      else .inr (.libusb, pointed.1) := rfl
  rw [pass, size.payload_eq fill small]
  dsimp only
  split
  case isFalse stalled =>
    exact progress.fails (calm.setAddress performing' (pageAddress mem offset)).1 stalled _
  case isTrue success =>
    have begins := size.begins fill small
    obtain ⟨large, few, -⟩ := size.bounds
    have length := chunk_length mem.pageSize.toNat part m
    have bytes : chunk mem.pageSize.toNat part m ≠ [] := List.ne_nil_of_length_pos (by omega)
    have writes := calm.writeAt performing' bytes (by omega) success
    split
    case isFalse stalled => exact progress.fails writes stalled _
    case isTrue success' =>
      obtain ⟨calm', like⟩ := writes.takes success'
      have ready' (always : ∀ n, first.outcome n = .some 0) :=
        (writes.prompt (by rw [outcome]; exact always) (progress.ready always)).2
      split
      case isTrue more =>
        have inside' := more_iff.mp more
        have next : ahead mem.pageSize.toNat
            (.writing part (UInt32.ofNat (mem.pageSize.toNat * m)) todo) =
              chunk mem.pageSize.toNat part m :: ahead mem.pageSize.toNat
                (.writing part (UInt32.ofNat (mem.pageSize.toNat * m) + payloadLen mem part m)
                  todo) := by
          rw [more_place inside']
          exact ahead_more size fill inside' _
        exact ⟨progress.writtenPage page some rfl rfl calm' ready' like next
          ⟨inside, rest, m + 1, inside', more_place inside'⟩, left_page rfl rfl next⟩
      case isFalse last =>
        have done : pages mem.pageSize.toNat part.len ≤ m + 1 :=
          Nat.le_of_not_lt fun more => last (more_iff.mpr more)
        have next : ahead mem.pageSize.toNat
            (.writing part (UInt32.ofNat (mem.pageSize.toNat * m)) todo) =
              chunk mem.pageSize.toNat part m :: ahead mem.pageSize.toNat (.writeFrom todo) :=
          ahead_last size fill small done _
        exact ⟨progress.writtenPage page some rfl rfl calm' ready' like next rest, left_page rfl rfl next⟩

/-- Every pass goes on as planned, or is the last one. -/
theorem Progress.step {state : State} (progress : Progress image mem first state)
    (size : FlashPages mem.pageSize.toNat) (page : first.pageSize = mem.pageSize.toNat)
    (filled : ∀ part ∈ image, Filled part) (some : image ≠ []) (performing : first.Performing)
    (aligned : startOf image &&& stm32PageErrorMask = 0) :
    Advances image mem first state.phase (step image mem state) := by
  obtain ⟨phase, offset, d⟩ := state
  cases phase with
  | eraseFrom todo => exact progress.eraseFrom size page filled some aligned
  | erasing part byteInSection todo => exact progress.erasing size page filled some performing
  | writeFrom todo => exact progress.writeFrom size page filled some aligned
  | writing part byteInSection todo => exact progress.writing size page filled some performing

end Pass

/-! ### A whole update -/

section Run

variable (size : FlashPages mem.pageSize.toNat) (page : d.pageSize = mem.pageSize.toNat)
  (filled : ∀ part ∈ image, Filled part) (some : image ≠ []) (performing : d.Performing)
  (aligned : startOf image &&& stm32PageErrorMask = 0) (ready : d.Ready) (fresh : d.history = [])

include ready fresh in
/-- Where the loops begin, everything is still to be done. -/
private theorem progress_start :
    Progress image mem d ⟨.eraseFrom image, firstOffset image mem, d⟩ :=
  ⟨.inl ready, fun _ => ready, rfl, rfl, rfl, List.Subset.refl image, [], rfl,
    (UInt32.add_zero _).symm, fresh⟩

include size page filled some performing aligned ready fresh

theorem loops_end : ∃ answer, Ends (fun state next => next = step image mem state)
    ⟨.eraseFrom image, firstOffset image mem, d⟩ answer := by
  have passes (state : State) (progress : Progress image mem d state) :
      (∃ answer, .inr answer = step image mem state ∧ True) ∨
        ∃ next, .inl next = step image mem state ∧ Progress image mem d next ∧
          left mem.pageSize.toNat image next.phase < left mem.pageSize.toNat image state.phase ∧
            ∀ _ : DfuError × Device, True → True := by
    have advances := progress.step size page filled some performing aligned
    cases next : step image mem state with
    | inl next' =>
      rw [next] at advances
      exact .inr ⟨next', rfl, advances.1, advances.2, fun _ _ => trivial⟩
    | inr answer => exact .inl ⟨answer, rfl, trivial⟩
  obtain ⟨answer, ends, -⟩ := @Ends.of_measure State (DfuError × Device)
    (fun state next => next = step image mem state) _ (Progress image mem d) (fun _ _ => True)
    (fun state => left mem.pageSize.toNat image state.phase) passes
    (progress_start ready fresh)
  exact ⟨answer, ends⟩

/-- If they succeed, the accesses are the planned ones. -/
theorem loops_finish {answer : DfuError × Device}
    (ends : Ends (fun state next => next = step image mem state)
      ⟨.eraseFrom image, firstOffset image mem, d⟩ answer) : Finished image d answer := by
  have kept (state next : State) (progress : Progress image mem d state)
      (goes : .inl next = step image mem state) : Progress image mem d next := by
    have advances := progress.step size page filled some performing aligned
    rw [← goes] at advances
    exact advances.1
  have established (state : State) (answer : DfuError × Device)
      (progress : Progress image mem d state) (leaves : .inr answer = step image mem state) :
      Finished image d answer := by
    have advances := progress.step size page filled some performing aligned
    rw [← leaves] at advances
    exact advances
  exact @Ends.satisfies _ _ (fun state next => next = step image mem state) _ _
    (Progress image mem d) (Finished image d) kept established
    (progress_start ready fresh) ends

end Run

theorem loops_refuse (some : image ≠ []) (unaligned : startOf image &&& stm32PageErrorMask ≠ 0)
    {answer : DfuError × Device} (ends : Ends (fun state next => next = step image mem state)
      ⟨.eraseFrom image, firstOffset image mem, d⟩ answer) : answer.1 = .invalidArg := by
  have page : pageAddress mem (firstOffset image mem + 0) = _ := pageAddress_eq some 0
  rw [UInt32.add_zero, UInt32.add_zero] at page
  have refused : step image mem ⟨.eraseFrom image, firstOffset image mem, d⟩ =
      .inr (.invalidArg, d) := by
    cases image with
    | nil => exact absurd rfl some
    | cons part todo =>
      unfold Update.step
      dsimp only
      unfold Device.prepAndValidateBeforeDownload
      rw [page, if_pos unaligned, if_pos (show DfuError.invalidArg ≠ .none by decide)]
  cases ends with
  | leave left =>
    rw [refused] at left
    cases left
    rfl
  | again goes rest =>
    rw [refused] at goes
    cases goes

end Update

end InertialSense.Bootloader
