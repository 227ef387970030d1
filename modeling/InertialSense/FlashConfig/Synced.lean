import InertialSense.FlashConfig.Model

/-! When `FlashConfigSynced` can be relied on: the local copy of the flash configuration and the
checksum that the device has reported, over any run. -/

namespace InertialSense.FlashConfig

open Foundation DataLog

section Words

variable {struct : Struct} {place : Nat}

theorem wordAt_setWord (struct : Struct) (place : Nat) (value : UInt32) :
    wordAt (setWord struct place value) place = value := by
  have stored := window_store struct place (toBytes 4 value.toNat)
  rw [toBytes_length] at stored
  unfold wordAt setWord
  rw [stored, ofNat_fromBytes]

theorem wordAt_setWord_disjoint (struct : Struct) {place other : Nat} (value : UInt32)
    (disjoint : other + 4 ≤ place ∨ place + 4 ≤ other) :
    wordAt (setWord struct place value) other = wordAt struct other := by
  unfold wordAt setWord
  rw [window_store_disjoint _ (by rwa [toBytes_length])]

/-- The checksum is no part of what it is made of. -/
theorem flashChecksum32_setChecksum (struct : Struct) (value : UInt32) (size : Int) :
    flashChecksum32 (setWord struct checksumOffset value) size = flashChecksum32 struct size := by
  have same (k : Nat) :
      wordAt (setWord struct checksumOffset value) (8 + 4 * k) = wordAt struct (8 + 4 * k) :=
    wordAt_setWord_disjoint struct value (.inr (by unfold checksumOffset; omega))
  unfold flashChecksum32 checksum32
  simp only [same]

end Words

/-- The local copy has the checksum of its content. -/
def Consistent (flashCfg : Struct) : Prop :=
  wordAt flashCfg checksumOffset = flashChecksum32 flashCfg flashCfgSize

instance (flashCfg : Struct) : Decidable (Consistent flashCfg) :=
  inferInstanceAs (Decidable (_ = _))

theorem updateFlashConfigChecksum_consistent (flashCfg : Struct) :
    Consistent (updateFlashConfigChecksum flashCfg) := by
  unfold Consistent updateFlashConfigChecksum
  dsimp only
  rw [wordAt_setWord, flashChecksum32_setChecksum]

/-- The four bytes of this field, if the packet brings them all. -/
def carried (field : Nat) (data : Record) : Option UInt32 :=
  if data.hdr.offset.toNat ≤ field ∧ field + 4 ≤ data.hdr.offset.toNat + data.hdr.size.toNat then
    some (wordAt (fun k => data.data.getD k 0) (field - data.hdr.offset.toNat))
  else none

def reports (data : Record) : Option UInt32 :=
  if data.hdr.id = didSysParams then carried flashCfgChecksumOffset data
  else if data.hdr.id = didFlashConfig then carried checksumOffset data
  else none

/-- The last checksum that the device has reported. -/
def lastReport (last : Option UInt32) (_ : Sync) (event : Event) (_ : List Request) :
    Option UInt32 :=
  match event with
  | .processRxData data => (reports data).orElse fun _ => last
  | _ => last

/-- What is stored of a field that a packet brings is what the packet brings. -/
theorem wordAt_stored {struct stored : Struct} {data : Record} {maxsize field : Nat}
    {value : UInt32} (fits : copyDataPToStructP struct data maxsize = some stored)
    (brought : carried field data = some value) : wordAt stored field = value := by
  unfold copyDataPToStructP at fits
  unfold carried at brought
  split at fits
  case isFalse => cases fits
  split at brought
  case isFalse => cases brought
  case isTrue inside =>
    obtain rfl := Option.some.inj fits
    obtain rfl := Option.some.inj brought
    have length := data.sized
    unfold wordAt
    congr 2
    refine window_congr fun k small => ?_
    have place : field + k = data.hdr.offset.toNat + (field - data.hdr.offset.toNat + k) := by omega
    have here : field - data.hdr.offset.toNat + k < data.data.length := by omega
    rw [place, store_inside struct here, List.getD_eq_getElem?_getD, List.getElem?_eq_getElem here]
    rfl

/-- A packet with no byte of a field leaves it as it is. -/
theorem wordAt_untouched {struct stored : Struct} {data : Record} {maxsize field : Nat}
    (fits : copyDataPToStructP struct data maxsize = some stored)
    (apart : dataOverlap field 4 data = false) : wordAt stored field = wordAt struct field := by
  unfold copyDataPToStructP at fits
  split at fits
  case isFalse => cases fits
  obtain rfl := Option.some.inj fits
  have length := data.sized
  unfold dataOverlap at apart
  rw [decide_eq_false_iff_not] at apart
  unfold wordAt
  congr 2
  exact window_congr fun k small => store_outside struct (by omega)

/-- A packet that touches a field brings all of it and fits into the structure. -/
def Whole (field maxsize : Nat) (data : Record) : Prop :=
  dataOverlap field 4 data = true →
    (carried field data).isSome ∧ data.hdr.size.toNat + data.hdr.offset.toNat ≤ maxsize

/-- A part of the configuration that is stored makes it one with a right checksum, and a packet
with a part of a checksum has all of it and is stored. -/
def Regular (s : Sync) : Event → Prop
  | .processRxData data =>
    (data.hdr.id = didSysParams → Whole flashCfgChecksumOffset sysParamsSize data) ∧
      (data.hdr.id = didFlashConfig →
        Whole checksumOffset flashCfgSize data ∧
          ∀ stored ∈ copyDataPToStructP s.flashCfg data flashCfgSize, Consistent stored)
  | _ => True

/-- What a regular run keeps: a checksum other than zero in `sysParams` is the last one that the
device has reported. -/
structure Sound (last : Option UInt32) (s : Sync) : Prop where
  consistent : Consistent s.flashCfg
  reported : s.reported ≠ 0 → last = some s.reported

section Steps

variable {last : Option UInt32} {s : Sync}

theorem freshDevice_sound : Sound none freshDevice :=
  ⟨by decide +kernel, fun some => absurd (by decide +kernel) some⟩

theorem Sound.setFlashConfig (sound : Sound last s) (upload : Upload) (flashCfg : Struct) :
    Sound last (s.setFlashConfig upload flashCfg).1 :=
  ⟨updateFlashConfigChecksum_consistent _, sound.reported⟩

@[simp] theorem setReported_reported (s : Sync) (value : UInt32) :
    (s.setReported value).reported = value := wordAt_setWord ..

theorem Sound.syncFlashConfig (sound : Sound last s) (timeMs : UInt32) :
    Sound last (s.syncFlashConfig timeMs).1 := by
  have paused : Sound last ({ s with syncCheckTimeMs := timeMs }.pauseSync timeMs) := by
    unfold Sync.pauseSync
    split
    · exact ⟨sound.consistent, fun some => absurd (setReported_reported ..) some⟩
    · exact ⟨sound.consistent, sound.reported⟩
  unfold Sync.syncFlashConfig
  split
  · exact sound
  · dsimp only
    split
    · split
      · exact ⟨paused.consistent, paused.reported⟩
      · exact paused
    · exact paused

/-- The last report stays if the packet brings no checksum. -/
theorem reported_of_none {value : UInt32} {report : Option UInt32} (none : report = none)
    (kept : last = some value) : (report.orElse fun _ => last) = some value := by
  rw [none]
  exact kept

/-- A packet that does not touch a field does not bring it. -/
theorem carried_eq_none {field : Nat} {data : Record} (apart : dataOverlap field 4 data = false) :
    carried field data = none := by
  unfold dataOverlap at apart
  rw [decide_eq_false_iff_not] at apart
  unfold carried
  rw [if_neg]
  omega

theorem Sound.sysParams (sound : Sound last s) {data : Record}
    (whole : Whole flashCfgChecksumOffset sysParamsSize data) :
    Sound ((carried flashCfgChecksumOffset data).orElse fun _ => last)
      { s with sysParams := (copyDataPToStructP s.sysParams data sysParamsSize).getD s.sysParams } := by
  refine ⟨sound.consistent, fun some => ?_⟩
  cases touches : dataOverlap flashCfgChecksumOffset 4 data with
  | true =>
    obtain ⟨all, fits⟩ := whole touches
    obtain ⟨value, brought⟩ := Option.isSome_iff_exists.mp all
    have stored : copyDataPToStructP s.sysParams data sysParamsSize = Option.some _ := if_pos fits
    have reported := wordAt_stored stored brought
    rw [brought, Option.orElse_some]
    show Option.some value = Option.some (wordAt ((copyDataPToStructP ..).getD _) _)
    rw [stored, Option.getD_some, reported]
  | false =>
    refine reported_of_none (carried_eq_none touches) ?_
    have kept : wordAt ((copyDataPToStructP s.sysParams data sysParamsSize).getD s.sysParams)
        flashCfgChecksumOffset = s.reported := by
      cases stored : copyDataPToStructP s.sysParams data sysParamsSize with
      | none => rfl
      | some struct => exact wordAt_untouched stored touches
    change wordAt ((copyDataPToStructP s.sysParams data sysParamsSize).getD s.sysParams)
      flashCfgChecksumOffset ≠ 0 at some
    show last = Option.some (wordAt ((copyDataPToStructP ..).getD _) _)
    rw [kept] at some ⊢
    exact sound.reported some

theorem Sound.flashConfig (sound : Sound last s) {data : Record}
    (whole : Whole checksumOffset flashCfgSize data)
    (right : ∀ stored ∈ copyDataPToStructP s.flashCfg data flashCfgSize, Consistent stored) :
    let flashCfg := (copyDataPToStructP s.flashCfg data flashCfgSize).getD s.flashCfg
    Sound ((carried checksumOffset data).orElse fun _ => last)
      (if dataOverlap checksumOffset 4 data then
        { s with flashCfg }.setReported (wordAt flashCfg checksumOffset) else { s with flashCfg }) := by
  intro flashCfg
  have consistent : Consistent flashCfg := by
    show Consistent ((copyDataPToStructP s.flashCfg data flashCfgSize).getD s.flashCfg)
    cases stored : copyDataPToStructP s.flashCfg data flashCfgSize with
    | none => exact sound.consistent
    | some struct => exact right struct stored
  split
  case isTrue touches =>
    obtain ⟨all, fits⟩ := whole touches
    obtain ⟨value, brought⟩ := Option.isSome_iff_exists.mp all
    have stored : copyDataPToStructP s.flashCfg data flashCfgSize = some _ := if_pos fits
    have checksum : wordAt flashCfg checksumOffset = value := by
      show wordAt ((copyDataPToStructP s.flashCfg data flashCfgSize).getD s.flashCfg) _ = _
      rw [stored, Option.getD_some]
      exact wordAt_stored stored brought
    refine ⟨consistent, fun _ => ?_⟩
    rw [setReported_reported, checksum, brought, Option.orElse_some]
  case isFalse apart =>
    refine ⟨consistent, fun some => ?_⟩
    exact reported_of_none (carried_eq_none (Bool.eq_false_of_not_eq_true apart))
      (sound.reported some)

theorem Sound.processRxData (sound : Sound last s) {data : Record}
    (regular : Regular s (.processRxData data)) :
    Sound ((reports data).orElse fun _ => last) (s.processRxData data) := by
  obtain ⟨sysParams, flashConfig⟩ := regular
  unfold Sync.processRxData
  split
  case isTrue none =>
    have empty : data.hdr.size.toNat = 0 := congrArg UInt16.toNat none
    have nothing : reports data = Option.none := by
      have absent (field : Nat) : carried field data = Option.none := by
        unfold carried
        rw [if_neg]
        omega
      unfold reports
      split
      · exact absent _
      · split
        · exact absent _
        · rfl
    exact ⟨sound.consistent, fun some => reported_of_none nothing (sound.reported some)⟩
  case isFalse =>
    unfold reports
    split
    case isTrue id => exact sound.sysParams (sysParams id)
    case isFalse =>
      split
      case isTrue id => exact sound.flashConfig (flashConfig id).1 (flashConfig id).2
      case isFalse => exact sound

theorem Sound.step (sound : Sound last s) {event : Event} (regular : Regular s event) :
    Sound (lastReport last s event (s.step event).2) (s.step event).1 := by
  cases event with
  | setFlashConfig upload flashCfg => exact sound.setFlashConfig upload flashCfg
  | syncFlashConfig timeMs => exact sound.syncFlashConfig timeMs
  | processRxData data => exact sound.processRxData regular

end Steps

/-- Over a regular run, a configuration that counts as synchronised is the one that the device has
reported last, if and only if the reported checksum is not a zero that no device has sent. -/
theorem synced_iff_received {events : List Event}
    (regular : Along Sync.step Regular freshDevice events)
    (synced : (run Sync.step freshDevice events).1.flashConfigSynced = true) :
    (∃ checksum, noted Sync.step lastReport none freshDevice events = some checksum ∧
        checksum = (run Sync.step freshDevice events).1.checksum ∧
        checksum = flashChecksum32 (run Sync.step freshDevice events).1.flashCfg flashCfgSize) ↔
      (run Sync.step freshDevice events).1.reported ≠ 0 ∨
        noted Sync.step lastReport none freshDevice events = some 0 := by
  have sound : Sound (noted Sync.step lastReport none freshDevice events)
      (run Sync.step freshDevice events).1 :=
    noted_invariant (fun _ _ _ sound regular => sound.step regular) freshDevice_sound regular
  generalize (run Sync.step freshDevice events).1 = s at *
  generalize noted Sync.step lastReport none freshDevice events = last at *
  have equal : s.checksum = s.reported := (of_decide_eq_true synced).1
  have content : flashChecksum32 s.flashCfg flashCfgSize = s.checksum := sound.consistent.symm
  rw [content]
  refine ⟨fun ⟨checksum, same, own, _⟩ => ?_, fun known => ?_⟩
  · obtain zero | some := eq_or_ne s.reported 0
    · rw [same, own, equal, zero]
      exact .inr rfl
    · exact .inl some
  · obtain zero | some := eq_or_ne s.reported 0
    · have sent := known.resolve_left fun some => some zero
      exact ⟨0, sent, zero.symm.trans equal.symm, zero.symm.trans equal.symm⟩
    · exact ⟨s.reported, sound.reported some, equal.symm, equal.symm⟩

/-- A configuration whose only word behind the checksum is its key. -/
def keyPacket : Record :=
  { hdr := { id := didFlashConfig, size := 8, offset := 4 }
    data := [0x11, 0x22, 0x33, 0x44, 0x11, 0x22, 0x33, 0x44]
    sized := rfl }

theorem synced_iff_received_key :
    ∃ checksum,
      noted Sync.step lastReport none freshDevice [.processRxData keyPacket] = some checksum ∧
      checksum = (run Sync.step freshDevice [.processRxData keyPacket]).1.checksum ∧
      checksum = flashChecksum32
        (run Sync.step freshDevice [.processRxData keyPacket]).1.flashCfg flashCfgSize := by
  have regular : Along Sync.step Regular freshDevice [.processRxData keyPacket] := by
    refine ⟨⟨fun id => absurd id (by decide), fun _ => ⟨fun _ => by decide +kernel, ?_⟩⟩, trivial⟩
    intro stored member
    obtain rfl := Option.some.inj member
    decide +kernel
  exact (synced_iff_received regular (by decide +kernel)).mpr (.inl (by decide +kernel))

/-- A new device counts as synchronised although nothing was received. -/
theorem fresh_device_synced :
    freshDevice.flashConfigSynced = true ∧
      noted Sync.step lastReport none freshDevice [] = none := by
  decide +kernel

end InertialSense.FlashConfig
