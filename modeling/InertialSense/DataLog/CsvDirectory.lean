import InertialSense.DataLog.CsvSaving
import InertialSense.Foundation.Run

/-! Several CSV logs in one directory: the files of a device hold its rows, in order, whatever the
other logs save elsewhere. -/

namespace InertialSense.DataLog

open Foundation

variable {γ : Type} {format : CsvFormat γ}

/-! ### The other logs -/

section Other

variable {place : CsvPlace} {disk disk' : CsvDisk} {log : DeviceLogCSV γ} {data : DataBuf}
  {parts : Nat → List (List CsvRow)} {rows : List CsvRow}

/-- A change of files that do not show the serial number. -/
structure Elsewhere (place : CsvPlace) (disk disk' : CsvDisk) : Prop where
  filter : ∀ picked : List Char → Bool, (∀ path, picked path = true → place.Marks path) →
    (disk'.filter fun file => picked file.1) = disk.filter fun file => picked file.1
  mem : ∀ file ∈ disk', place.Marks file.1 → file ∈ disk

theorem Elsewhere.refl (place : CsvPlace) (disk : CsvDisk) : Elsewhere place disk disk :=
  ⟨fun _ _ => rfl, fun _ member _ => member⟩

theorem Elsewhere.trans {disk'' : CsvDisk} (first : Elsewhere place disk disk')
    (second : Elsewhere place disk' disk'') : Elsewhere place disk disk'' :=
  ⟨fun picked has => (second.filter picked has).trans (first.filter picked has),
    fun file member has => first.mem file (second.mem file member has) has⟩

theorem elsewhere_fputs {name text : List Char} (unmarked : ¬place.Marks name) :
    Elsewhere place disk (fputs disk name text) := by
  refine ⟨fun picked has => filter_fputs_other ?_, fun file member has => ?_⟩
  · exact Bool.eq_false_iff.mpr fun found => unmarked (has name found)
  · obtain ⟨old, inside, rfl⟩ := List.mem_map.mp member
    split at has
    case isTrue _ => exact absurd has unmarked
    case isFalse other => rwa [if_neg other]

theorem elsewhere_fopenWrite {name : List Char} (unmarked : ¬place.Marks name) :
    Elsewhere place disk (fopenWrite disk name) := by
  refine ⟨fun picked has => filter_fopenWrite_other ?_, fun file member has => ?_⟩
  · exact Bool.eq_false_iff.mpr fun found => unmarked (has name found)
  · obtain kept | new := List.mem_append.mp member
    · exact (List.mem_filter.mp kept).1
    · rw [List.mem_singleton.mp new] at has
      exact absurd has unmarked

theorem Saved.elsewhere (saved : Saved format place disk log parts rows) (usable : place.Usable)
    (elsewhere : Elsewhere place disk disk') : Saved format place disk' log parts rows := by
  refine { saved with files := ⟨fun id mapped => ?_, saved.files.fewer, fun file member has => ?_⟩ }
  · rw [elsewhere.filter _ fun path => DeviceLogCSV.selects_mark usable.serialNo]
    exact saved.files.files id mapped
  · exact saved.files.marked file (elsewhere.mem file member has) has

/-- No file that the log has open shows the serial number. -/
def Unmarked (format : CsvFormat γ) (place : CsvPlace) (log : DeviceLogCSV γ) : Prop :=
  ∀ id name, (format.current log id).pFile = some (.writing name) → ¬place.Marks name

/-- If the record is the first one of a file, this file does not show the serial number. -/
def Apart (format : CsvFormat γ) (place : CsvPlace) (log : DeviceLogCSV γ) (data : DataBuf) : Prop :=
  (format.current log data.hdr.id.toNat).pFile = none →
    ¬place.Marks (format.newName log data.hdr.id.toNat)

instance (format : CsvFormat γ) (place : CsvPlace) (log : DeviceLogCSV γ) (data : DataBuf) :
    Decidable (Apart format place log data) :=
  decidable_of_iff ((format.current log data.hdr.id.toNat).pFile.isNone = true →
    ¬place.Marks (format.newName log data.hdr.id.toNat)) (by rw [Option.isNone_iff_eq_none]; rfl)

/-- A record of another log does not touch the files of the device. -/
theorem Unmarked.save (unmarked : Unmarked format place log) (apart : Apart format place log data) :
    Elsewhere place disk (log.saveData format disk data).1 ∧
      Unmarked format place (log.saveData format disk data).2.1 := by
  obtain ⟨-, -, file', closed, result⟩ | ⟨base, current, disk', count, file', ready, result, -, later⟩ :=
    saveData_cases format disk log data
  · have now := @CsvFormat.current_update γ format log (log.saveData format disk data).2.1
      data.hdr.id.toNat file' (by rw [result])
    refine ⟨by rw [result]; exact .refl _ _, fun id name writes => ?_⟩
    rw [now] at writes
    split at writes
    case isTrue _ => cases closed.symm.trans writes
    case isFalse _ => exact unmarked id name writes
  · have now := @CsvFormat.current_update γ format log (log.saveData format disk data).2.1
      data.hdr.id.toNat file' (by rw [result])
    have target : ∀ name, current = .writing name → ¬place.Marks name ∧ Elsewhere place disk disk' := by
      rintro name rfl
      cases ready with
      | opened closed =>
        have fresh := apart closed
        exact ⟨fresh, (elsewhere_fopenWrite fresh).trans (elsewhere_fputs fresh)⟩
      | «open» now same => exact ⟨unmarked _ name now, .refl _ _⟩
    constructor
    · rw [result]
      cases current with
      | writing name => exact (target name rfl).2.trans (elsewhere_fputs (target name rfl).1)
      | reading rest =>
        cases ready with
        | «open» now same => exact .refl _ _
    · intro id name writes
      rw [now] at writes
      split at writes
      case isTrue _ =>
        obtain closed | still := later
        · cases closed.symm.trans writes
        · exact (target name (Option.some.inj (still.symm.trans writes))).1
      case isFalse _ => exact unmarked id name writes

end Other

/-! ### A directory of logs -/

/-- The logs of several devices, and the files in their common directory. -/
structure LogDirectory (κ γ : Type) where
  disk : CsvDisk
  logs : κ → DeviceLogCSV γ

namespace LogDirectory

variable {κ : Type} [DecidableEq κ] {place : CsvPlace} {key : κ}

/-- The logs before the first record, each of an `ISDevice` or for a serial number. -/
def start (devices : κ → Option Device × UInt32) (timestamp directory : List Char)
    (maxFileSize : UInt32) : LogDirectory κ γ :=
  { disk := []
    logs := fun key =>
      (DeviceLogCSV.cDeviceLogCSV (devices key).1 (devices key).2).initDeviceForWriting
        timestamp directory maxFileSize }

def save (format : CsvFormat γ) (state : LogDirectory κ γ) (input : κ × DataBuf) :
    LogDirectory κ γ × Bool :=
  let saved := (state.logs input.1).saveData format state.disk input.2
  ({ disk := saved.1, logs := Function.update state.logs input.1 saved.2.1 }, saved.2.2)

def noteRow (format : CsvFormat γ) (key : κ) (rows : List CsvRow) (state : LogDirectory κ γ)
    (input : κ × DataBuf) (answer : Bool) : List CsvRow :=
  if input.1 = key ∧ answer then rows ++ format.rowOf (state.logs key).nextId.toNat input.2 else rows

/-- The log of the device saves a record that can be replayed, or another one keeps away from its
files. -/
def Separate (format : CsvFormat γ) (place : CsvPlace) (key : κ) (state : LogDirectory κ γ)
    (input : κ × DataBuf) : Prop :=
  if input.1 = key then Replayable format (state.logs key) input.2
  else Apart format place (state.logs input.1) input.2

/-- What the directory holds of one log. -/
structure Recorded (format : CsvFormat γ) (place : CsvPlace) (key : κ) (rows : List CsvRow)
    (state : LogDirectory κ γ) : Prop where
  own : ∃ parts, Saved format place state.disk (state.logs key) parts rows
  others : ∀ other, other ≠ key → Unmarked format place (state.logs other)

theorem Recorded.save {rows : List CsvRow} {state : LogDirectory κ γ} {input : κ × DataBuf}
    (recorded : Recorded format place key rows state) (usable : place.Usable)
    (separate : Separate format place key state input) :
    Recorded format place key (noteRow format key rows state input (state.save format input).2)
      (state.save format input).1 := by
  obtain ⟨⟨parts, own⟩, others⟩ := recorded
  unfold Separate at separate
  unfold noteRow
  split at separate
  case isTrue same =>
    obtain ⟨writer, data⟩ := input
    subst same
    obtain ⟨answer, parts', saved⟩ := own.save usable separate
    have noted : writer = writer ∧ (state.save format (writer, data)).2 = true := ⟨rfl, answer⟩
    refine ⟨⟨parts', ?_⟩, fun other different => ?_⟩
    · rw [if_pos noted]
      simpa [LogDirectory.save] using saved
    · simpa [LogDirectory.save, Function.update_of_ne different] using others other different
  case isFalse different =>
    obtain ⟨elsewhere, unmarked⟩ := @Unmarked.save γ format place state.disk (state.logs input.1)
      input.2 (others input.1 different) separate
    refine ⟨⟨parts, ?_⟩, fun other different' => ?_⟩
    · rw [if_neg fun both => different both.1]
      have kept := own.elsewhere usable elsewhere
      simpa [LogDirectory.save, Function.update_of_ne (Ne.symm different)] using kept
    · by_cases same : other = input.1
      · subst same
        simpa [LogDirectory.save] using unmarked
      · simpa [LogDirectory.save, Function.update_of_ne same] using others other different'

/-- Where the logs of a device write. -/
def placeOf (devices : κ → Option Device × UInt32) (timestamp directory : List Char) (key : κ) :
    CsvPlace :=
  { directory
    timeStamp := timestamp
    serialNo := ((devices key).1.map Device.serialNumber).getD (devices key).2 }

omit [DecidableEq κ] in
theorem start_recorded (devices : κ → Option Device × UInt32) (timestamp directory : List Char)
    (maxFileSize : UInt32) :
    Recorded format (placeOf devices timestamp directory key) key []
      (start (γ := γ) devices timestamp directory maxFileSize) := by
  refine ⟨⟨fun _ => [], ⟨rfl, rfl, ?_⟩, ⟨fun _ _ => rfl, fun _ _ => Nat.succ_pos _, ?_⟩, fun _ _ => rfl,
    fun id file _ writes => ?_, fun _ _ => rfl, fun row member => ?_, .nil⟩,
    fun other _ id name writes => ?_⟩
  · show DeviceLog.serNum _ = _
    unfold DeviceLog.serNum placeOf start DeviceLogCSV.initDeviceForWriting DeviceLogCSV.cDeviceLogCSV
      DeviceLog.initDeviceForWriting cDeviceLog
    dsimp only
    cases (devices key).1 <;> rfl
  · intro file member
    cases member
  · cases writes
  · cases member
  · cases writes

/-- What the directory holds after any number of records. -/
theorem run_recorded {devices : κ → Option Device × UInt32} {timestamp directory : List Char}
    {maxFileSize : UInt32} {inputs : List (κ × DataBuf)}
    (usable : (placeOf devices timestamp directory key).Usable)
    (separate : Along (save format) (Separate format (placeOf devices timestamp directory key) key)
      (start devices timestamp directory maxFileSize) inputs) :
    Recorded format (placeOf devices timestamp directory key) key
      (noted (save format) (noteRow format key) []
        (start devices timestamp directory maxFileSize) inputs)
      (run (save format) (start devices timestamp directory maxFileSize) inputs).1 :=
  noted_invariant (fun _ _ _ recorded separate => recorded.save usable separate)
    (start_recorded devices timestamp directory maxFileSize) separate

end LogDirectory

end InertialSense.DataLog
