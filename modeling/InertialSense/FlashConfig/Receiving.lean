import InertialSense.FlashConfig.Uploading

/-! `ProcessRxData` of `InertialSense.cpp`: the four structures of an `ISDevice` that a received packet
changes. -/

namespace InertialSense.FlashConfig

open Foundation DataLog

/-- The data that `ProcessRxData` keeps. -/
inductive DataSet where
  | devInfo
  | sysCmd
  | sysParams
  | flashConfig
deriving DecidableEq

/-- `DID_DEV_INFO`, `DID_SYS_CMD`, `DID_SYS_PARAMS` and `DID_FLASH_CONFIG`. -/
def DataSet.id : DataSet → UInt8
  | devInfo => didDevInfo
  | sysCmd => 7
  | sysParams => didSysParams
  | flashConfig => didFlashConfig

/-- `sizeof` of the structure. -/
def DataSet.size : DataSet → Nat
  | devInfo => devInfoSize
  | sysCmd => 8
  | sysParams => sysParamsSize
  | flashConfig => flashCfgSize

/-- `ISDevice`, as far as received data is concerned. -/
structure Device where
  devInfo : Struct
  sysCmd : Struct
  sync : Sync

namespace Device

def copy (device : Device) : DataSet → Struct
  | .devInfo => device.devInfo
  | .sysCmd => device.sysCmd
  | .sysParams => device.sync.sysParams
  | .flashConfig => device.sync.flashCfg

def put (device : Device) (struct : Struct) : DataSet → Device
  | .devInfo => { device with devInfo := struct }
  | .sysCmd => { device with sysCmd := struct }
  | .sysParams => { device with sync := { device.sync with sysParams := struct } }
  | .flashConfig => { device with sync := { device.sync with flashCfg := struct } }

variable (device : Device) (struct : Struct)

@[simp] theorem copy_put (set : DataSet) : (device.put struct set).copy set = struct := by
  cases set <;> rfl

theorem copy_put_ne {set other : DataSet} (different : other ≠ set) :
    (device.put struct set).copy other = device.copy other := by
  cases set <;> cases other <;> first | rfl | exact absurd rfl different

@[simp] theorem put_copy (set : DataSet) : device.put (device.copy set) set = device := by
  cases set <;> rfl

end Device

/-- `p_data_t`: what the pointer points to goes on behind the data, with what else is in the receive
buffer. -/
structure Packet where
  hdr : DataHdr
  ptr : Option (Nat → UInt8)

/-- The header and the data of a packet. -/
def recordOf (hdr : DataHdr) (ptr : Nat → UInt8) : Record :=
  ⟨hdr, window ptr 0 hdr.size.toNat, window_length ..⟩

/-- What is left after a packet, and how many bytes from the pointer on have been read. -/
structure Received where
  device : Device
  reads : Nat

/-- `*(T*)data->ptr` is assigned. -/
def Device.assign (device : Device) (ptr : Nat → UInt8) (set : DataSet) : Received :=
  { device := device.put (store (device.copy set) 0 (window ptr 0 set.size)) set
    reads := set.size }

/-- What `copyDataPToStructP` reads. -/
def copyReads (hdr : DataHdr) (maxsize : Nat) : Nat :=
  if hdr.size.toNat + hdr.offset.toNat ≤ maxsize then hdr.size.toNat else 0

/-- `ProcessRxData`. A `DID_FIRMWARE_UPDATE` goes to the updater and leaves these fields alone. -/
def Device.processRxData (device : Device) (data : Packet) : Received :=
  match data.ptr with
  | none => ⟨device, 0⟩
  | some ptr =>
    if data.hdr.size = 0 then ⟨device, 0⟩
    else if data.hdr.id = DataSet.devInfo.id then device.assign ptr .devInfo
    else if data.hdr.id = DataSet.sysCmd.id then device.assign ptr .sysCmd
    else if data.hdr.id = DataSet.sysParams.id then
      { device := { device with sync := device.sync.processRxData (recordOf data.hdr ptr) }
        reads := copyReads data.hdr sysParamsSize }
    else if data.hdr.id = DataSet.flashConfig.id then
      { device := { device with sync := device.sync.processRxData (recordOf data.hdr ptr) }
        reads := copyReads data.hdr flashCfgSize }
    else ⟨device, 0⟩

/-- A packet for one of the structures. -/
def DataSet.packet (set : DataSet) (size offset : UInt16) (ptr : Nat → UInt8) : Packet :=
  ⟨⟨set.id, size, offset⟩, some ptr⟩

section Packets

variable (device : Device) (set : DataSet) (size offset : UInt16) (ptr : Nat → UInt8)

/-- The packet fits the structure. -/
def Fits : Prop := offset.toNat + size.toNat ≤ set.size

/-- The packet has all bytes of `checksum`. -/
def HasChecksum : Prop := offset.toNat ≤ checksumOffset ∧ checksumOffset + 4 ≤ offset.toNat + size.toNat

instance : Decidable (Fits set size offset) := inferInstanceAs (Decidable (_ ≤ _))

instance : Decidable (HasChecksum size offset) := inferInstanceAs (Decidable (_ ∧ _))

/-- Only what a packet carries is read and is updated: nothing if it does not fit, and also the reported
checksum if it is a flash configuration with a checksum. -/
structure UpdatesCarried (received : Received) : Prop where
  reads : received.reads ≤ size.toNat
  own : Fits set size offset → ∀ k, received.device.copy set k =
    if offset.toNat ≤ k ∧ k < offset.toNat + size.toNat then ptr (k - offset.toNat) else device.copy set k
  others : Fits set size offset → ∀ other, other ≠ set →
    ¬(set = .flashConfig ∧ other = .sysParams ∧ HasChecksum size offset) →
      received.device.copy other = device.copy other
  checksum : Fits set size offset → set = .flashConfig → HasChecksum size offset →
    received.device.copy .sysParams =
      setWord (device.copy .sysParams) flashCfgChecksumOffset received.device.sync.checksum
  refused : ¬Fits set size offset → received.device = device

/-- A packet that does no harm. One with a part of the checksum, or with one that does not fit, has the
local checksum taken for the reported one. -/
def Harmless : DataSet → Prop
  | .flashConfig =>
    ¬(offset.toNat < checksumOffset + 4 ∧ checksumOffset < offset.toNat + size.toNat) ∨
      Fits .flashConfig size offset ∧ HasChecksum size offset ∨
      ∀ k < 4, device.sync.sysParams (flashCfgChecksumOffset + k) =
        if Fits .flashConfig size offset ∧ offset.toNat ≤ checksumOffset + k ∧
            checksumOffset + k < offset.toNat + size.toNat then
          ptr (checksumOffset + k - offset.toNat)
        else device.sync.flashCfg (checksumOffset + k)
  | .sysParams => True
  | set => set.size ≤ size.toNat ∧
      (Fits set size offset ∨ window ptr 0 set.size = window (device.copy set) 0 set.size)

variable {device set size offset ptr} {received : Received}

/-- The bytes after a copy. -/
theorem store_data (struct : Struct) (start count k : Nat) : store struct start (window ptr 0 count) k =
    if start ≤ k ∧ k < start + count then ptr (k - start) else struct k := by
  split
  case isTrue inside =>
    obtain ⟨j, rfl⟩ := Nat.exists_eq_add_of_le inside.1
    rw [store_inside _ (by rw [window_length]; omega)]
    simp [window]
  case isFalse outside => exact store_outside _ (by rw [window_length]; omega)

/-- A bounded copy into the structure, and nothing else. -/
theorem updatesCarried_of_copy
    (copied : received.device =
      if Fits set size offset then
        device.put (store (device.copy set) offset.toNat (window ptr 0 size.toNat)) set
      else device)
    (few : received.reads ≤ size.toNat)
    (apart : set = .flashConfig → Fits set size offset → ¬HasChecksum size offset) :
    UpdatesCarried device set size offset ptr received := by
  refine ⟨few, fun fits k => ?_, fun fits other different _ => ?_, fun fits flash has => ?_, fun large => ?_⟩
  · rw [copied, if_pos fits, Device.copy_put, store_data]
  · rw [copied, if_pos fits, Device.copy_put_ne _ _ different]
  · exact absurd has (apart flash fits)
  · rw [copied, if_neg large]

theorem copyReads_le (hdr : DataHdr) (maxsize : Nat) : copyReads hdr maxsize ≤ hdr.size.toNat := by
  unfold copyReads
  split
  · exact Nat.le_refl _
  · exact Nat.zero_le _

theorem updatesCarried_of_empty (empty : size = 0) :
    UpdatesCarried device set size offset ptr (device.processRxData (set.packet size offset ptr)) := by
  have none : device.processRxData (set.packet size offset ptr) = ⟨device, 0⟩ := if_pos empty
  have zero : size.toNat = 0 := congrArg UInt16.toNat empty
  rw [none]
  refine updatesCarried_of_copy ?_ (Nat.zero_le _) fun _ _ has => ?_
  · rw [zero, window_zero, store_nil, Device.put_copy, ite_self]
  · unfold HasChecksum at has
    omega

/-- The whole structure is assigned, whatever the packet says. -/
theorem assign_iff (plain : set ≠ .flashConfig) :
    UpdatesCarried device set size offset ptr (device.assign ptr set) ↔
    set.size ≤ size.toNat ∧
      (Fits set size offset ∨ window ptr 0 set.size = window (device.copy set) 0 set.size) := by
  constructor
  · intro updates
    refine ⟨updates.reads, or_iff_not_imp_left.mpr fun large => ?_⟩
    have kept := congrArg (Device.copy · set) (updates.refused large)
    have stored := store_sameBelow (device.copy set) ptr set.size
    rw [← (Device.copy_put device (store (device.copy set) 0 (window ptr 0 set.size)) set).symm.trans kept]
    exact (stored.window (Nat.le_of_eq (Nat.zero_add _))).symm
  · rintro ⟨enough, right⟩
    refine updatesCarried_of_copy ?_ enough fun flash => absurd flash plain
    split
    case isTrue fits =>
      unfold Fits at fits
      have begins : offset.toNat = 0 := by omega
      have whole : size.toNat = set.size := by omega
      rw [begins, whole]
      rfl
    case isFalse large =>
      unfold Device.assign
      rw [right.resolve_left large, store_window_self, Device.put_copy]

theorem copyDataPToStructP_getD (struct : Struct) (hdr : DataHdr) (maxsize : Nat) :
    (copyDataPToStructP struct (recordOf hdr ptr) maxsize).getD struct =
      if hdr.offset.toNat + hdr.size.toNat ≤ maxsize then
        store struct hdr.offset.toNat (window ptr 0 hdr.size.toNat)
      else struct := by
  have order : (recordOf hdr ptr).hdr.size.toNat + (recordOf hdr ptr).hdr.offset.toNat ≤ maxsize ↔
      hdr.offset.toNat + hdr.size.toNat ≤ maxsize := by
    rw [Nat.add_comm]
    rfl
  unfold copyDataPToStructP
  by_cases fits : hdr.offset.toNat + hdr.size.toNat ≤ maxsize
  · rw [if_pos (order.mpr fits), if_pos fits]
    rfl
  · rw [if_neg (order.not.mpr fits), if_neg fits]
    rfl

theorem sysParams_updates (some : size ≠ 0) : UpdatesCarried device .sysParams size offset ptr
    (device.processRxData (DataSet.sysParams.packet size offset ptr)) := by
  have received : device.processRxData (DataSet.sysParams.packet size offset ptr) =
      { device := { device with
          sync := device.sync.processRxData (recordOf ⟨didSysParams, size, offset⟩ ptr) }
        reads := copyReads ⟨didSysParams, size, offset⟩ sysParamsSize } := if_neg some
  have sync : device.sync.processRxData (recordOf ⟨didSysParams, size, offset⟩ ptr) =
      { device.sync with sysParams :=
        (copyDataPToStructP device.sync.sysParams (recordOf ⟨didSysParams, size, offset⟩ ptr)
          sysParamsSize).getD device.sync.sysParams } := if_neg some
  rw [received, sync, copyDataPToStructP_getD]
  refine updatesCarried_of_copy ?_ (copyReads_le ..) nofun
  unfold Fits
  exact apply_ite (fun struct => device.put struct .sysParams) _ _ _

/-- The local copy after a flash configuration. -/
def storedConfig (device : Device) (size offset : UInt16) (ptr : Nat → UInt8) : Struct :=
  if Fits .flashConfig size offset then store device.sync.flashCfg offset.toNat (window ptr 0 size.toNat)
  else device.sync.flashCfg

/-- The checksum is taken over if a byte of it is in the packet. -/
theorem flashConfig_received (some : size ≠ 0) :
    device.processRxData (DataSet.flashConfig.packet size offset ptr) =
      { device := { device with
          sync :=
            let sync := { device.sync with flashCfg := storedConfig device size offset ptr }
            if offset.toNat < checksumOffset + 4 ∧ checksumOffset < offset.toNat + size.toNat then
              sync.setReported sync.checksum
            else sync }
        reads := copyReads ⟨didFlashConfig, size, offset⟩ flashCfgSize } := by
  have received : device.processRxData (DataSet.flashConfig.packet size offset ptr) =
      { device := { device with
          sync := device.sync.processRxData (recordOf ⟨didFlashConfig, size, offset⟩ ptr) }
        reads := copyReads ⟨didFlashConfig, size, offset⟩ flashCfgSize } := if_neg some
  have overlaps : dataOverlap checksumOffset 4 (recordOf ⟨didFlashConfig, size, offset⟩ ptr) ↔
      offset.toNat < checksumOffset + 4 ∧ checksumOffset < offset.toNat + size.toNat := by
    have positive : 0 < size.toNat := Nat.pos_of_ne_zero fun zero => some (UInt16.toNat_inj.mp zero)
    unfold dataOverlap
    rw [decide_eq_true_iff]
    show max _ offset.toNat < min _ (offset.toNat + size.toNat) ↔ _
    omega
  have sync : device.sync.processRxData (recordOf ⟨didFlashConfig, size, offset⟩ ptr) =
      let stored := copyDataPToStructP device.sync.flashCfg (recordOf ⟨didFlashConfig, size, offset⟩ ptr) flashCfgSize
      let sync := { device.sync with flashCfg := stored.getD device.sync.flashCfg }
      if dataOverlap checksumOffset 4 (recordOf ⟨didFlashConfig, size, offset⟩ ptr) then
        sync.setReported sync.checksum
      else sync := if_neg some
  rw [received, sync]
  dsimp only
  rw [copyDataPToStructP_getD, if_congr overlaps rfl rfl]
  rfl

theorem wordAt_eq_iff {mem mem' : Nat → UInt8} {start start' : Nat} :
    wordAt mem start = wordAt mem' start' ↔ ∀ k < 4, mem (start + k) = mem' (start' + k) := by
  refine ⟨fun same k small => ?_, fun same => ?_⟩
  · have bytes : window mem start 4 = window mem' start' 4 := by
      rw [← toBytes_wordAt, same, toBytes_wordAt]
    exact cell_of_window_eq bytes small
  · unfold wordAt
    rw [window_congr same]

/-- The reported checksum is the local one after the packet. -/
theorem reported_eq_iff : device.sync.reported = wordAt (storedConfig device size offset ptr) checksumOffset ↔
    ∀ k < 4, device.sync.sysParams (flashCfgChecksumOffset + k) =
      if Fits .flashConfig size offset ∧ offset.toNat ≤ checksumOffset + k ∧
          checksumOffset + k < offset.toNat + size.toNat then
        ptr (checksumOffset + k - offset.toNat)
      else device.sync.flashCfg (checksumOffset + k) := by
  refine wordAt_eq_iff.trans (forall₂_congr fun k small => ?_)
  refine iff_of_eq (congrArg (_ = ·) ?_)
  unfold storedConfig
  by_cases fits : Fits .flashConfig size offset
  · rw [if_pos fits, store_data, if_congr (and_iff_right fits) rfl rfl]
  · rw [if_neg fits, if_neg fun inside => fits inside.1]

theorem setReported_self {sync : Sync} (same : sync.reported = sync.checksum) :
    sync.setReported sync.checksum = sync := by
  unfold Sync.setReported
  rw [← same]
  unfold Sync.reported
  rw [setWord_self]

theorem put_storedConfig : device.put (storedConfig device size offset ptr) .flashConfig =
    if Fits .flashConfig size offset then
      device.put (store (device.copy .flashConfig) offset.toNat (window ptr 0 size.toNat)) .flashConfig
    else device := apply_ite (fun struct => device.put struct .flashConfig) _ _ _

theorem flashConfig_updates_iff (some : size ≠ 0) :
    UpdatesCarried device .flashConfig size offset ptr
        (device.processRxData (DataSet.flashConfig.packet size offset ptr)) ↔
      Harmless device size offset ptr .flashConfig := by
  unfold Harmless
  rw [flashConfig_received some, ← reported_eq_iff]
  dsimp only
  by_cases overlaps : offset.toNat < checksumOffset + 4 ∧ checksumOffset < offset.toNat + size.toNat
  case neg =>
    rw [if_neg overlaps]
    refine iff_of_true (updatesCarried_of_copy put_storedConfig (copyReads_le ..) fun _ _ has => ?_)
      (.inl overlaps)
    unfold HasChecksum at has
    omega
  case pos =>
    rw [if_pos overlaps, or_iff_right (Classical.not_not.mpr overlaps)]
    by_cases whole : Fits .flashConfig size offset ∧ HasChecksum size offset
    case pos =>
      refine iff_of_true ⟨copyReads_le .., fun fits k => ?_, fun _ other different plain => ?_,
        fun _ _ _ => rfl, fun large => absurd whole.1 large⟩ (.inl whole)
      · show storedConfig device size offset ptr k = _
        unfold storedConfig
        rw [if_pos fits, store_data]
        rfl
      · cases other with
        | sysParams => exact absurd ⟨rfl, rfl, whole.2⟩ plain
        | flashConfig => exact absurd rfl different
        | devInfo => rfl
        | sysCmd => rfl
    case neg =>
      rw [or_iff_right whole]
      constructor
      · intro updates
        have kept : setWord device.sync.sysParams flashCfgChecksumOffset
            (wordAt (storedConfig device size offset ptr) checksumOffset) = device.sync.sysParams := by
          by_cases fits : Fits .flashConfig size offset
          · exact updates.others fits .sysParams nofun fun ⟨_, _, has⟩ => whole ⟨fits, has⟩
          · exact congrArg (Device.copy · .sysParams) (updates.refused fits)
        have read := wordAt_setWord device.sync.sysParams flashCfgChecksumOffset
          (wordAt (storedConfig device size offset ptr) checksumOffset)
        rwa [kept] at read
      · intro same
        rw [setReported_self same]
        exact updatesCarried_of_copy put_storedConfig (copyReads_le ..)
          fun _ fits has => whole ⟨fits, has⟩

/-- A packet updates what it carries and reads nothing else if and only if it is empty or harmless. -/
theorem updatesCarried_iff (device : Device) (set : DataSet) (size offset : UInt16) (ptr : Nat → UInt8) :
    UpdatesCarried device set size offset ptr (device.processRxData (set.packet size offset ptr)) ↔
      size = 0 ∨ Harmless device size offset ptr set := by
  by_cases empty : size = 0
  · exact iff_of_true (updatesCarried_of_empty empty) (.inl empty)
  · rw [or_iff_right empty]
    cases set with
    | devInfo =>
      have assigned : device.processRxData (DataSet.devInfo.packet size offset ptr) =
          device.assign ptr .devInfo := if_neg empty
      rw [assigned]
      exact assign_iff nofun
    | sysCmd =>
      have assigned : device.processRxData (DataSet.sysCmd.packet size offset ptr) =
          device.assign ptr .sysCmd := if_neg empty
      rw [assigned]
      exact assign_iff nofun
    | sysParams => exact iff_of_true (sysParams_updates empty) trivial
    | flashConfig => exact flashConfig_updates_iff empty

/-- A device that has received nothing. -/
def newDevice : Device := ⟨fun _ => 0, fun _ => 0, freshDevice⟩

/-- Of a device information with the first four bytes, all 84 are read. -/
theorem short_devInfo_reads_on : ¬UpdatesCarried newDevice .devInfo 4 0 (fun _ => 0xFF)
    (newDevice.processRxData (DataSet.devInfo.packet 4 0 fun _ => 0xFF)) :=
  fun updates => absurd updates.reads (by decide)

end Packets

end InertialSense.FlashConfig
