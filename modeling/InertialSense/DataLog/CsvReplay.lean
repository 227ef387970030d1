import InertialSense.DataLog.CsvDirectory
import InertialSense.DataLog.CsvReading
import InertialSense.DataLog.CsvRoundTrip
import InertialSense.DataLog.CsvSets
import Mathlib.Algebra.Order.BigOperators.Group.Finset

/-! The data sets of a CSV log are merged by the numbers of their rows: what is read back is what
was saved, in order, as long as no other log writes to a file that the log takes for its own. -/

namespace InertialSense.DataLog

open Foundation

variable {γ : Type} {format : CsvFormat γ} {disk : CsvDisk}

/-! ### The least number -/

namespace DeviceLogCSV

/-- The log with the least number, of the first ones. -/
private theorem lesser_range (log : DeviceLogCSV γ) {count : Nat}
    (small : ∀ id < count, ∀ file, log.logs id = some file → file.orderId < 2 ^ 64 - 1) :
    ((List.range count).foldl log.lesser (2 ^ 64 - 1, none) = (2 ^ 64 - 1, none) ∧
        ∀ id < count, log.logs id = none) ∨
      ∃ id file, id < count ∧ log.logs id = some file ∧
        (List.range count).foldl log.lesser (2 ^ 64 - 1, none) = (file.orderId, some file) ∧
        ∀ other < count, ∀ file', log.logs other = some file' → file.orderId ≤ file'.orderId := by
  induction count with
  | zero => exact .inl ⟨rfl, fun id less => absurd less (Nat.not_lt_zero id)⟩
  | succ count ih =>
    have before := ih fun id less => small id (less.trans (Nat.lt_succ_self _))
    have last := small count (Nat.lt_succ_self _)
    rw [List.range_succ, List.foldl_append, List.foldl_cons, List.foldl_nil]
    unfold lesser at before ⊢
    cases here : log.logs count with
    | none =>
      dsimp only
      obtain ⟨nothing, absent⟩ | ⟨id, file, less, found, result, least⟩ := before
      · refine .inl ⟨nothing, fun id less => ?_⟩
        obtain before | rfl := Nat.lt_succ_iff_lt_or_eq.mp less
        · exact absent id before
        · exact here
      · refine .inr ⟨id, file, less.trans (Nat.lt_succ_self _), found, result,
          fun other less' file' found' => ?_⟩
        obtain before | rfl := Nat.lt_succ_iff_lt_or_eq.mp less'
        · exact least other before file' found'
        · cases here.symm.trans found'
    | some new =>
      dsimp only
      obtain ⟨nothing, absent⟩ | ⟨id, file, less, found, result, least⟩ := before
      · rw [nothing, if_pos (last new here)]
        refine .inr ⟨count, new, Nat.lt_succ_self _, here, rfl, fun other less' file' found' => ?_⟩
        obtain before | rfl := Nat.lt_succ_iff_lt_or_eq.mp less'
        · cases (absent other before).symm.trans found'
        · rw [Option.some.inj (here.symm.trans found')]
      · rw [result]
        dsimp only
        split
        case isTrue better =>
          refine .inr ⟨count, new, Nat.lt_succ_self _, here, rfl, fun other less' file' found' => ?_⟩
          obtain before | rfl := Nat.lt_succ_iff_lt_or_eq.mp less'
          · exact better.le.trans (least other before file' found')
          · rw [Option.some.inj (here.symm.trans found')]
        case isFalse better =>
          refine .inr ⟨id, file, less.trans (Nat.lt_succ_self _), found, rfl,
            fun other less' file' found' => ?_⟩
          obtain before | rfl := Nat.lt_succ_iff_lt_or_eq.mp less'
          · exact least other before file' found'
          · rw [← Option.some.inj (here.symm.trans found')]
            exact Nat.le_of_not_lt better

end DeviceLogCSV

/-! ### Passes of `ReadData` -/

def RowRead (format : CsvFormat γ) (row : CsvRow) (data : DataBuf) : Prop :=
  data.hdr.id.toNat = row.dataId ∧ ∃ errno, (format.read errno row.dataId row.line
    (format.columns row.dataId (format.header row.dataId))).2 = some data

section Row

variable {log : DeviceLogCSV γ} {file : CsvLog γ} {id : Nat} {row : CsvRow} {rest : List CsvRow}

theorem readDataFromFile_mapped (opens : Opens log) (here : log.logs id = some file)
    (onRow : OnRow format disk log file id row rest) (mapped : format.dataSize id ≠ 0)
    (other : id ≠ didDevInfo.toNat) (own : row.dataId = id) :
    ∃ log' data, log.readDataFromFile format disk file = some (log', some data) ∧
      Frame id log log' ∧ Waiting format disk log' id rest ∧ RowRead format row data := by
  obtain ⟨part, later, split, same, position, listed⟩ := onRow.left
  cases position with
  | before closed => exact absurd closed onRow.opened
  | inside opened columns plain =>
    obtain ⟨data, read, known⟩ := format.readable log.errno id row.line (format.header id) mapped
    unfold DeviceLogCSV.readDataFromFile
    rw [if_neg (by simpa using onRow.opened), same, onRow.nextLine, columns mapped]
    dsimp only
    rw [read]
    dsimp only
    rw [if_neg fun info => other (by rw [← known, info])]
    obtain ⟨frame, waiting⟩ := @advance_waiting γ format disk id
      { log with errno := (format.read log.errno id row.line (format.columns id (format.header id))).1 }
      file row rest opens here
      ⟨onRow.nextLine, onRow.orderId, onRow.plain, onRow.opened, part, later, split, same,
        .inside opened columns plain, listed⟩
    subst own
    exact ⟨_, data, rfl, ⟨frame.base, frame.logs, frame.currentFiles⟩, waiting, known, _, read⟩

/-- A row of another data set is passed over. -/
theorem readDataFromFile_unmapped (opens : Opens log) (here : log.logs id = some file)
    (onRow : OnRow format disk log file id row rest) (unmapped : format.dataSize id = 0) :
    ∃ log', log.readDataFromFile format disk file = some (log', none) ∧ Frame id log log' ∧
      Waiting format disk log' id rest := by
  obtain ⟨part, later, split, same, position, listed⟩ := onRow.left
  obtain ⟨frame, waiting⟩ := advance_waiting opens here onRow
  refine ⟨_, ?_, frame, waiting⟩
  unfold DeviceLogCSV.readDataFromFile
  rw [if_neg (by simpa using onRow.opened), same]
  dsimp only
  rw [format.unread log.errno id file.nextLine file.columnHeaders unmapped]

end Row

/-! ### The merge -/

/-- A log that is about to return these rows. -/
structure Replaying (format : CsvFormat γ) (disk : CsvDisk) (log : DeviceLogCSV γ)
    (streams : Nat → List CsvRow) (rows : List CsvRow) : Prop where
  opens : Opens log
  waiting : ∀ id < 256, Waiting format disk log id (streams id)
  own : ∀ id, format.dataSize id ≠ 0 → streams id = rows.filter (·.dataId = id)
  mapped : ∀ row ∈ rows, format.dataSize row.dataId ≠ 0 ∧ row.dataId ≠ didDevInfo.toNat
  sorted : rows.Pairwise fun first second => first.orderId < second.orderId

namespace Replaying

variable {log : DeviceLogCSV γ} {streams : Nat → List CsvRow} {rows : List CsvRow}

theorem mapped_lt {id : Nat} (mapped : format.dataSize id ≠ 0) : id < 256 := by
  have bound := (format.mapped id mapped).2
  unfold didCount at bound
  omega

private theorem step {rows' : List CsvRow} (replaying : Replaying format disk log streams rows)
    {log' : DeviceLogCSV γ} {id : Nat} {rest : List CsvRow} (frame : Frame id log log')
    (waiting : Waiting format disk log' id rest) (less : rows'.Sublist rows)
    (own : ∀ other, format.dataSize other ≠ 0 →
      Function.update streams id rest other = rows'.filter (·.dataId = other)) :
    Replaying format disk log' (Function.update streams id rest) rows' := by
  refine ⟨?_, fun other small => ?_, own, fun row member => replaying.mapped row (less.subset member),
    replaying.sorted.sublist less⟩
  · unfold Opens
    rw [frame.base]
    exact replaying.opens
  · by_cases same : other = id
    · subst same
      rwa [Function.update_self]
    · rw [Function.update_of_ne same]
      exact (replaying.waiting other small).frame frame same

/-- The data set with the least number has the first of the rows, or one that is not mapped. -/
private theorem least (replaying : Replaying format disk log streams rows) :
    (log.nextLog = none ∧ rows = []) ∨
      ∃ id file row rest, id < 256 ∧ log.nextLog = some file ∧ streams id = row :: rest ∧
        log.logs id = some file ∧ OnRow format disk log file id row rest ∧
        (format.dataSize id ≠ 0 → rows = row :: rows.tail ∧ row.dataId = id) := by
  have loaded (id : Nat) (small : id < 256) (file : CsvLog γ) (here : log.logs id = some file) :
      ∃ row rest, streams id = row :: rest ∧ OnRow format disk log file id row rest := by
    have waiting := replaying.waiting id small
    cases stream : streams id with
    | nil =>
      rw [stream] at waiting
      cases here.symm.trans waiting
    | cons row rest =>
      rw [stream] at waiting
      obtain ⟨file', here', onRow⟩ := waiting
      obtain rfl := Option.some.inj (here.symm.trans here')
      exact ⟨row, rest, rfl, onRow⟩
  have numbered : ∀ id < 256, ∀ file, log.logs id = some file → file.orderId < 2 ^ 64 - 1 := by
    intro id small file here
    obtain ⟨row, rest, -, onRow⟩ := loaded id small file here
    rw [onRow.orderId]
    exact onRow.plain.number
  unfold DeviceLogCSV.nextLog
  obtain ⟨nothing, absent⟩ | ⟨id, file, small, here, result, least⟩ :=
    DeviceLogCSV.lesser_range log numbered
  · refine .inl ⟨by rw [nothing], List.eq_nil_iff_forall_not_mem.mpr fun row member => ?_⟩
    have mapped := (replaying.mapped row member).1
    have waiting := replaying.waiting _ (mapped_lt mapped)
    rw [replaying.own _ mapped] at waiting
    have some : row ∈ rows.filter (·.dataId = row.dataId) := List.mem_filter.mpr ⟨member, by simp⟩
    obtain ⟨first, rest, split⟩ := List.exists_cons_of_ne_nil (List.ne_nil_of_mem some)
    rw [split] at waiting
    obtain ⟨file, here, -⟩ := waiting
    cases (absent _ (mapped_lt mapped)).symm.trans here
  · obtain ⟨row, rest, stream, onRow⟩ := loaded id small file here
    refine .inr ⟨id, file, row, rest, small, by rw [result], stream, here, onRow, fun mapped => ?_⟩
    have member : row ∈ rows.filter (·.dataId = id) := by
      rw [← replaying.own id mapped, stream]
      exact .head _
    obtain ⟨member, same⟩ := List.mem_filter.mp member
    refine ⟨?_, of_decide_eq_true same⟩
    have sorted := replaying.sorted
    cases rows with
    | nil => cases member
    | cons first others =>
      obtain ⟨below, -⟩ := List.pairwise_cons.mp sorted
      obtain rfl | later := List.mem_cons.mp member
      · rfl
      · -- the first row waits at the head of its own data set
        exfalso
        have mapped' := (replaying.mapped first (.head _)).1
        have waiting := replaying.waiting _ (mapped_lt mapped')
        rw [replaying.own _ mapped', List.filter_cons_of_pos (by simp)] at waiting
        obtain ⟨file', here', onRow'⟩ := waiting
        have order := least _ (mapped_lt mapped') file' here'
        rw [onRow.orderId, onRow'.orderId] at order
        exact absurd (below row later) (Nat.not_lt_of_le order)

/-- `ReadData` returns the first of the rows, after a number of passes. -/
theorem reads (replaying : Replaying format disk log streams rows) :
    (rows = [] ∧ ∃ log', DeviceLogCSV.ReadsData format disk log (log', .null)) ∨
      ∃ row rest log' data streams', rows = row :: rest ∧
        DeviceLogCSV.ReadsData format disk log (log', .data data) ∧ RowRead format row data ∧
        Replaying format disk log' streams' rest := by
  induction bound : ∑ id ∈ Finset.range 256, (streams id).length using Nat.strongRecOn
    generalizing log streams with
  | ind bound ih =>
    subst bound
    obtain ⟨nothing, none⟩ | ⟨id, file, row, rest, small, next, stream, here, onRow, first⟩ :=
      replaying.least
    · refine .inl ⟨none, log, .leave ?_⟩
      unfold DeviceLogCSV.readPass
      rw [nothing]
    · by_cases mapped : format.dataSize id = 0
      · -- the row is passed over, and there is one row less
        obtain ⟨log', read, frame, waiting⟩ := readDataFromFile_unmapped replaying.opens here onRow mapped
        have goes : log.readPass format disk = .inl log' := by
          unfold DeviceLogCSV.readPass
          rw [next]
          dsimp only
          rw [read]
        have fewer : ∑ other ∈ Finset.range 256, (Function.update streams id rest other).length <
            ∑ other ∈ Finset.range 256, (streams other).length := by
          refine Finset.sum_lt_sum (fun other _ => ?_) ⟨id, Finset.mem_range.mpr small, ?_⟩
          · rw [Function.update_apply]
            split
            case isTrue same =>
              rw [same, stream]
              exact Nat.le_succ _
            case isFalse _ => exact Nat.le_refl _
          · rw [Function.update_self, stream]
            exact Nat.lt_succ_self _
        have replaying' := replaying.step frame waiting (List.Sublist.refl rows) fun other mapped' => by
          have different : other ≠ id := by
            rintro rfl
            exact mapped' mapped
          rw [Function.update_of_ne different]
          exact replaying.own other mapped'
        obtain ⟨none, last, ends⟩ | ⟨row', rest', last, data, streams', split, ends, result⟩ :=
          ih _ fewer replaying' rfl
        · exact .inl ⟨none, last, .again goes ends⟩
        · exact .inr ⟨row', rest', last, data, streams', split, .again goes ends, result⟩
      · obtain ⟨head, own⟩ := first mapped
        have other : id ≠ didDevInfo.toNat := by
          rw [← own]
          exact (replaying.mapped row (by rw [head]; exact .head _)).2
        obtain ⟨log', data, read, frame, waiting, rowRead⟩ :=
          readDataFromFile_mapped replaying.opens here onRow mapped other own
        have leaves : log.readPass format disk = .inr (log', .data data) := by
          unfold DeviceLogCSV.readPass
          rw [next]
          dsimp only
          rw [read]
        have replaying' := replaying.step frame waiting (List.tail_sublist rows) fun other mapped' => by
          have now := replaying.own other mapped'
          rw [head] at now
          by_cases same : other = id
          · subst same
            rw [List.filter_cons_of_pos (by simpa using own), stream] at now
            rw [Function.update_self]
            exact (List.cons.inj now).2
          · rw [List.filter_cons_of_neg (by simpa [own] using fun equal => same (Eq.symm equal))] at now
            rw [Function.update_of_ne same]
            exact now
        exact .inr ⟨row, rows.tail, log', data, _, head, .leave leaves, rowRead, replaying'⟩

/-- The rows are returned one after another, and then nothing. -/
theorem replays (replaying : Replaying format disk log streams rows) :
    ∃ outputs, DeviceLogCSV.Replays format disk log outputs ∧
      List.Forall₂ (RowRead format) rows outputs := by
  induction rows generalizing log streams with
  | nil =>
    obtain ⟨-, log', ends⟩ | ⟨_, _, _, _, _, split, -⟩ := replaying.reads
    · exact ⟨[], .null ends, .nil⟩
    · cases split
  | cons row rest ih =>
    obtain ⟨none, -⟩ | ⟨row', rest', log', data, streams', split, ends, read, replaying'⟩ :=
      replaying.reads
    · cases none
    · obtain ⟨rfl, rfl⟩ := List.cons.inj split
      obtain ⟨outputs, later, all⟩ := ih replaying'
      exact ⟨data :: outputs, .data ends later, .cons read all⟩

end Replaying

/-! ### The start -/

section Start

variable {log : DeviceLogCSV γ} {parts : Nat → List (List CsvRow)}

private theorem foldl_initDataSet {ids : List Nat} (distinct : ids.Nodup) (opens : Opens log)
    (absent : ∀ id ∈ ids, log.logs id = none)
    (listed : ∀ id ∈ ids, Listed format disk id (DeviceLogCSV.filesOf format disk log id) (parts id)) :
    (ids.foldl (DeviceLogCSV.initDataSet format disk) log).base = log.base ∧
      (∀ id, id ∉ ids →
        (ids.foldl (DeviceLogCSV.initDataSet format disk) log).logs id = log.logs id ∧
        (ids.foldl (DeviceLogCSV.initDataSet format disk) log).currentFiles id =
          log.currentFiles id) ∧
      ∀ id ∈ ids, Waiting format disk (ids.foldl (DeviceLogCSV.initDataSet format disk) log) id
        (parts id).flatten := by
  induction ids generalizing log with
  | nil => exact ⟨rfl, fun _ _ => ⟨rfl, rfl⟩, fun id member => by cases member⟩
  | cons id ids ih =>
    obtain ⟨fresh, distinct⟩ := List.nodup_cons.mp distinct
    obtain ⟨frame, waiting⟩ := initDataSet_waiting opens (absent id (.head _)) (listed id (.head _))
    have other {next : Nat} (member : next ∈ ids) : next ≠ id := fun same => fresh (same ▸ member)
    have opens' : Opens (DeviceLogCSV.initDataSet format disk log id) := by
      unfold Opens
      rw [frame.base]
      exact opens
    obtain ⟨base, outside, inside⟩ := @ih (DeviceLogCSV.initDataSet format disk log id) distinct opens'
      (fun next member => (frame.logs next (other member)).trans (absent next (.tail _ member)))
      (fun next member => by
        unfold DeviceLogCSV.filesOf
        rw [frame.base]
        exact listed next (.tail _ member))
    rw [List.foldl_cons]
    refine ⟨base.trans frame.base, fun next away => ?_, fun next member => ?_⟩
    · obtain ⟨different, away⟩ := not_or.mp (mt List.mem_cons.mpr away)
      obtain ⟨logs, files⟩ := outside next away
      exact ⟨logs.trans (frame.logs next different), files.trans (frame.currentFiles next different)⟩
    · obtain rfl | later := List.mem_cons.mp member
      · obtain ⟨logs, files⟩ := outside next fresh
        exact waiting.congr logs files
      · exact inside next later

theorem initDeviceForReading_replaying (opens : Opens log) {rows : List CsvRow}
    (listed : ∀ id, ∃ parts, Listed format disk id (DeviceLogCSV.filesOf format disk log id) parts ∧
      (format.dataSize id ≠ 0 → parts.flatten = rows.filter (·.dataId = id)))
    (mapped : ∀ row ∈ rows, format.dataSize row.dataId ≠ 0 ∧ row.dataId ≠ didDevInfo.toNat)
    (sorted : rows.Pairwise fun first second => first.orderId < second.orderId) :
    ∃ streams, Replaying format disk (log.initDeviceForReading format disk) streams rows := by
  choose parts listed own using listed
  obtain ⟨base, outside, inside⟩ := @foldl_initDataSet γ format disk
    { log with base := log.base.initDeviceForReading, logs := fun _ => none } parts
    ((List.range (didCount - 1)).map (· + 1))
    (List.nodup_range.map fun first second same => Nat.succ.inj same) opens (fun _ _ => rfl)
    (fun id _ => listed id)
  have range (id : Nat) : id ∈ (List.range (didCount - 1)).map (· + 1) ↔ 0 < id ∧ id < didCount := by
    rw [List.mem_map]
    constructor
    · rintro ⟨before, member, rfl⟩
      have less := List.mem_range.mp member
      unfold didCount at less ⊢
      omega
    · rintro ⟨some, less⟩
      refine ⟨id - 1, List.mem_range.mpr ?_, by omega⟩
      unfold didCount at less ⊢
      omega
  refine ⟨fun id => if 0 < id ∧ id < didCount then (parts id).flatten else [], ?_,
    fun id small => ?_, fun id known => ?_, mapped, sorted⟩
  · unfold Opens DeviceLogCSV.initDeviceForReading
    rw [base]
    exact opens
  · split
    case isTrue known => exact inside id ((range id).mpr known)
    case isFalse unknown => exact (outside id (mt (range id).mp unknown)).1
  · rw [if_pos (format.mapped id known)]
    exact own id known

end Start

/-! ### The files on the disk -/

section Disk

variable {place : CsvPlace} {log : DeviceLogCSV γ} {id : Nat}

private theorem lookup_mem {name : List Char} (member : name ∈ disk.map Prod.fst) :
    ∃ contents, disk.lookup name = some contents ∧ (name, contents) ∈ disk := by
  induction disk with
  | nil => cases member
  | cons file disk ih =>
    obtain ⟨first, contents⟩ := file
    by_cases same : name = first
    · subst same
      exact ⟨contents, by rw [List.lookup_cons_self], .head _⟩
    · obtain equal | later := List.mem_cons.mp member
      · exact absurd equal same
      · obtain ⟨contents', found, inside⟩ := ih later
        refine ⟨contents', ?_, .tail _ inside⟩
        rw [List.lookup_cons, beq_false_of_ne same]
        exact found

private theorem forall₂_choose {α β : Type} {related : α → β → Prop} {list : List α}
    (each : ∀ a ∈ list, ∃ b, related a b) : ∃ list', List.Forall₂ related list list' := by
  induction list with
  | nil => exact ⟨[], .nil⟩
  | cons a list ih =>
    obtain ⟨first, later⟩ := List.forall_mem_cons.mp each
    obtain ⟨b, holds⟩ := first
    obtain ⟨list', rest⟩ := ih later
    exact ⟨b :: list', .cons holds rest⟩

/-- The files that are picked for a data set that is not mapped hold some rows. -/
theorem listed_unmapped (marked : ∀ file ∈ disk, place.Marks file.1 → HoldsRows file.2)
    (usable : place.Usable) (reader : log.base.devSerialNo = place.serialNo)
    (unmapped : format.dataSize id = 0) :
    ∃ parts, Listed format disk id (DeviceLogCSV.filesOf format disk log id) parts := by
  refine forall₂_choose fun name member => ?_
  unfold DeviceLogCSV.filesOf at member
  rw [List.mem_insertionSort, List.mem_filter, reader] at member
  obtain ⟨member, selected⟩ := member
  obtain ⟨contents, found, inside⟩ := lookup_mem member
  rw [found, Option.getD_some]
  obtain rfl | ⟨line, rows, holds, header, plain⟩ :=
    marked _ inside (DeviceLogCSV.selects_mark usable.serialNo selected)
  · exact ⟨[], .inl ⟨rfl, rfl⟩⟩
  · exact ⟨rows, .inr ⟨line, holds, header, plain, fun mapped => absurd unmapped mapped⟩⟩

private theorem forall₂_zipIdx {α β : Type} {related : β → α → Prop} {name : α × Nat → β}
    {list : List α} {start : Nat}
    (each : ∀ part ∈ list.zipIdx start, related (name part) part.1) :
    List.Forall₂ related ((list.zipIdx start).map name) list := by
  induction list generalizing start with
  | nil => exact .nil
  | cons a list ih =>
    rw [List.zipIdx_cons] at each ⊢
    obtain ⟨first, later⟩ := List.forall_mem_cons.mp each
    exact .cons first (ih later)

theorem CsvPlace.partFiles_names (place : CsvPlace) (id : Nat) (parts : List (List CsvRow)) :
    (place.partFiles format id parts).map Prod.fst =
      parts.zipIdx.map fun part => place.fileName format id (part.2 + 1) := by
  unfold CsvPlace.partFiles
  rw [List.map_map]
  rfl

/-- The files of a mapped data set are read in the order in which they were written. -/
theorem listed_mapped {parts : List (List CsvRow)}
    (files : disk.filter (fun file => DeviceLogCSV.selects format place.serialNo id file.1) =
      place.partFiles format id parts)
    (fewer : parts.length < 10000) (plain : ∀ part ∈ parts, ∀ row ∈ part, row.Plain)
    (mapped : format.dataSize id ≠ 0) (reader : log.base.devSerialNo = place.serialNo) :
    Listed format disk id (DeviceLogCSV.filesOf format disk log id) parts := by
  have ascending : ((place.partFiles format id parts).map Prod.fst).Pairwise (· < ·) := by
    rw [CsvPlace.partFiles_names, List.pairwise_map]
    have order : (parts.zipIdx.map Prod.snd).Pairwise (· < ·) := by
      rw [List.zipIdx_map_snd]
      exact List.pairwise_lt_range' _ (Nat.succ_pos 0)
    rw [List.pairwise_map] at order
    refine order.imp_of_mem fun {first second} _ member less => ?_
    have bound := List.snd_lt_of_mem_zipIdx member
    exact place.fileName_lt id (Nat.succ_lt_succ less) (by omega)
  have names : DeviceLogCSV.filesOf format disk log id =
      (place.partFiles format id parts).map Prod.fst := by
    unfold DeviceLogCSV.filesOf
    rw [List.filter_map, reader]
    have picked := congrArg (List.map Prod.fst) files
    refine Eq.trans (congrArg _ picked) ?_
    exact List.Pairwise.insertionSort_eq (ascending.imp le_of_lt)
  unfold Listed
  rw [names, CsvPlace.partFiles_names]
  refine forall₂_zipIdx fun part member => ?_
  have here : (place.fileName format id (part.2 + 1), CsvPlace.contents format id part.1) ∈
      place.partFiles format id parts := List.mem_map.mpr ⟨part, member, rfl⟩
  obtain ⟨inside, selected⟩ := List.mem_filter.mp (files ▸ here)
  obtain ⟨contents, found, inside'⟩ := lookup_mem (List.mem_map_of_mem inside)
  -- the names are different, so what is found under this one are these rows
  have here' : (place.fileName format id (part.2 + 1), contents) ∈ place.partFiles format id parts := by
    rw [← files]
    exact List.mem_filter.mpr ⟨inside', selected⟩
  have nodup := ascending.imp fun {_ _} less => ne_of_lt less
  have same := List.inj_on_of_nodup_map nodup here here' rfl
  rw [found, Option.getD_some, ← (Prod.mk.inj same).2]
  obtain ⟨-, unmapped⟩ | ⟨line, header, some, clean, short⟩ := format.header_line id
  · exact absurd unmapped mapped
  · refine .inr ⟨line, ?_, ⟨some, clean, short⟩, plain part.1 ?_, fun _ => header⟩
    · unfold CsvPlace.contents
      rw [header, List.append_assoc, List.singleton_append]
    · exact List.fst_mem_of_mem_zipIdx member

end Disk

/-- The log of a device, opened for reading, returns these rows, in this order, and nothing else. -/
def ReplaysRows (format : CsvFormat γ) (disk : CsvDisk) (serialNo : UInt32)
    (timestamp directory : List Char) (rows : List CsvRow) : Prop :=
  ∃ outputs, DeviceLogCSV.Replays format disk
      (DeviceLogCSV.openLog format disk serialNo timestamp directory) outputs ∧
    List.Forall₂ (RowRead format) rows outputs

/-- Reading has one outcome. -/
theorem replays_unique {log : DeviceLogCSV γ} {outputs outputs' : List DataBuf}
    (first : DeviceLogCSV.Replays format disk log outputs)
    (second : DeviceLogCSV.Replays format disk log outputs') : outputs = outputs' := by
  have determined : ∀ state answer answer', DeviceLogCSV.readPass format disk state = answer →
      DeviceLogCSV.readPass format disk state = answer' → answer = answer' :=
    fun _ _ _ one other => one.symm.trans other
  induction first generalizing outputs' with
  | null ends =>
    cases second with
    | null _ => rfl
    | data read _ => cases ends.unique determined read
  | data read _ ih =>
    cases second with
    | null ends => cases read.unique determined ends
    | data read' later' =>
      obtain ⟨rfl, same⟩ := Prod.mk.inj (read.unique determined read')
      cases same
      rw [ih later']

/-- What is picked for the data sets decides what is replayed. -/
theorem replaysRows_of_listed {place : CsvPlace} (usable : place.Usable)
    (timestamp : List Char) {rows : List CsvRow}
    (marked : ∀ file ∈ disk, place.Marks file.1 → HoldsRows file.2)
    (listed : ∀ id, format.dataSize id ≠ 0 → ∀ log : DeviceLogCSV γ,
      log.base.devSerialNo = place.serialNo →
        ∃ parts, Listed format disk id (DeviceLogCSV.filesOf format disk log id) parts ∧
          parts.flatten = rows.filter (·.dataId = id))
    (mapped : ∀ row ∈ rows, format.dataSize row.dataId ≠ 0 ∧ row.dataId ≠ didDevInfo.toNat)
    (sorted : rows.Pairwise fun first second => first.orderId < second.orderId) :
    ReplaysRows format disk place.serialNo timestamp place.directory rows := by
  obtain ⟨log, reader⟩ : ∃ log : DeviceLogCSV γ, log =
      { DeviceLogCSV.cDeviceLogCSV none place.serialNo with
        base := (@DeviceLogCSV.cDeviceLogCSV γ none place.serialNo).base.setupReadInfo
          place.directory place.serialNo timestamp } := ⟨_, rfl⟩
  have own : log.base.devSerialNo = place.serialNo := by rw [reader]; rfl
  have opens : Opens log := by
    rw [reader]
    exact not_or.mpr ⟨usable.directory, usable.serialNo.1⟩
  have all (id : Nat) : ∃ parts, Listed format disk id (DeviceLogCSV.filesOf format disk log id) parts ∧
      (format.dataSize id ≠ 0 → parts.flatten = rows.filter (·.dataId = id)) := by
    by_cases known : format.dataSize id = 0
    · obtain ⟨parts, picked⟩ := listed_unmapped marked usable own known
      exact ⟨parts, picked, fun mapped => absurd known mapped⟩
    · obtain ⟨parts, picked, rest⟩ := listed id known log own
      exact ⟨parts, picked, fun _ => rest⟩
  obtain ⟨streams, replaying⟩ := initDeviceForReading_replaying opens all mapped sorted
  rw [reader] at replaying
  exact replaying.replays

/-- Each log returns its own rows, in the order in which they were saved, if its serial number is
below 2³¹ and shown by no file of another log, and if its records can be replayed. -/
theorem csv_replay_in_order {κ : Type} [DecidableEq κ] {devices : κ → Option Device × UInt32}
    {timestamp directory : List Char} {maxFileSize : UInt32} {key : κ} {inputs : List (κ × DataBuf)}
    (usable : (LogDirectory.placeOf devices timestamp directory key).Usable)
    (separate : Along (LogDirectory.save format)
      (LogDirectory.Separate format (LogDirectory.placeOf devices timestamp directory key) key)
      (LogDirectory.start devices timestamp directory maxFileSize) inputs) (timestamp' : List Char) :
    let start := LogDirectory.start devices timestamp directory maxFileSize
    let rows := noted (LogDirectory.save format) (LogDirectory.noteRow format key) [] start inputs
    ReplaysRows format (run (LogDirectory.save format) start inputs).1.disk
        (LogDirectory.placeOf devices timestamp directory key).serialNo timestamp' directory rows ∧
      rows.Pairwise fun first second => first.orderId < second.orderId := by
  obtain ⟨⟨parts, saved⟩, -⟩ := LogDirectory.run_recorded usable separate
  refine ⟨replaysRows_of_listed usable timestamp' saved.files.marked (fun id mapped log reader => ?_)
    (fun row member => ?_) saved.sorted, saved.sorted⟩
  · refine ⟨parts id, listed_mapped (saved.files.files id mapped) (saved.files.fewer id mapped) ?_
      mapped reader, saved.all id mapped⟩
    intro part inside row member
    have row' : row ∈ (parts id).flatten := List.mem_flatten.mpr ⟨part, inside, member⟩
    rw [saved.all id mapped] at row'
    exact (saved.plain row (List.mem_filter.mp row').1).1
  · obtain ⟨-, mapped, other, -⟩ := saved.plain row member
    exact ⟨mapped, other⟩

def oneSet : CsvSets where
  dataName id := if id = 7 then ['a'] else []
  sets id := if id = 7 then some byteAndPair else none
  mapped id set known _ := by
    split at known
    case isTrue same => rw [same]; decide
    case isFalse _ => cases known
  fields id set known _ := by
    split at known
    case isTrue _ => rw [← Option.some.inj known]; exact List.cons_ne_nil _ _
    case isFalse _ => cases known
  short id set known := by
    split at known
    case isTrue _ => rw [← Option.some.inj known]; decide
    case isFalse _ => cases known
  room id set known := by
    split at known
    case isTrue _ => rw [← Option.some.inj known]; decide
    case isFalse _ => cases known
  apart id other set known _ named _ := by
    split at known
    case isTrue same =>
      split at named
      case isTrue same' => rw [same, same']
      case isFalse _ => exact absurd rfl named
    case isFalse _ => cases known
  unnumbered id set known _ := by
    split at known
    case isTrue same => rw [same]; exact ⟨'a', by decide, by decide⟩
    case isFalse _ => cases known

/-- A record of this data set. -/
def fiveAndZeros (id : UInt8) : DataBuf :=
  { hdr := { id, size := 3, offset := 0 }, buf := fun place => if place = 0 then 5 else 0 }

def twoLogs (first second : UInt32) (key : Bool) : Option Device × UInt32 :=
  (none, if key then second else first)

def fiveAndZerosRow (orderId : Nat) : CsvRow :=
  ⟨orderId, 7, [',', '5', ',', '0', ',', '0', '\n']⟩

private theorem fiveAndZeros_rows (orderId : Nat) :
    oneSet.format.rowOf orderId (fiveAndZeros 7) = [fiveAndZerosRow orderId] := rfl

private theorem fiveAndZeros_plain {orderId : Nat} (small : orderId ∈ [0, 1]) :
    (fiveAndZerosRow orderId).Plain := by
  refine ⟨?_, ⟨['5', ',', '0', ',', '0'], rfl, by simp⟩, ?_⟩
  · revert orderId
    decide
  · revert orderId
    decide

private theorem fiveAndZeros_replayable {log : DeviceLogCSV (List (Option DataInfo))}
    (number : log.nextId.toNat ∈ [0, 1])
    (fits : (oneSet.format.current log 7).fileCount + 1 < 10000) :
    Replayable oneSet.format log (fiveAndZeros 7) := by
  refine ⟨?_, by decide, fun _ _ => fits, fun row member => ?_⟩
  · have small : ∀ n ∈ [0, 1], n < 2 ^ 64 - 1 := by decide
    exact small _ number
  · rw [fiveAndZeros_rows, List.mem_singleton] at member
    rw [member]
    exact fiveAndZeros_plain number

/-- The log of the device 12 returns its two rows, each from a file of its own, and not that of the
device 34. -/
theorem csv_replay_in_order_two_files :
    ReplaysRows oneSet.format (run (LogDirectory.save oneSet.format)
        (LogDirectory.start (twoLogs 12 34) ['t'] ['d'] 0)
        [(false, fiveAndZeros 7), (true, fiveAndZeros 7), (false, fiveAndZeros 7)]).1.disk 12 ['t'] ['d']
      [fiveAndZerosRow 0, fiveAndZerosRow 1] := by
  refine (@csv_replay_in_order _ oneSet.format Bool _ (twoLogs 12 34) ['t'] ['d'] 0 false
    [(false, fiveAndZeros 7), (true, fiveAndZeros 7), (false, fiveAndZeros 7)]
    ⟨List.cons_ne_nil _ _, List.forall_mem_singleton.mpr rfl, by decide⟩ ⟨?_, ?_, ?_, trivial⟩ ['t']).1
  · exact fiveAndZeros_replayable (by decide) (by decide)
  · show Apart _ _ _ _
    decide +kernel
  · exact fiveAndZeros_replayable (by decide +kernel) (by decide +kernel)

/-- The records of two logs, the one with the longer serial number first. -/
def leakingInputs : List (Bool × DataBuf) :=
  [(true, fiveAndZeros 7), (false, fiveAndZeros 8), (false, fiveAndZeros 7)]

private theorem oneSet_mapped {id : Nat} (mapped : oneSet.format.dataSize id ≠ 0) : id = 7 := by
  by_contra other
  refine mapped ?_
  show (if id = 7 then some byteAndPair else none).elim 0 DataSet.size = 0
  rw [if_neg other]
  rfl

private theorem fiveAndZeros_holding {orderId : Nat} (small : orderId ∈ [0, 1]) :
    Holding oneSet.format 7 (writeHeaderToFile byteAndPair ++ (fiveAndZerosRow orderId).line)
      [fiveAndZerosRow orderId] := by
  obtain ⟨line, header, some, clean⟩ := writeHeaderToFile_line byteAndPair
  have short : (writeHeaderToFile byteAndPair).length < 8192 := by decide
  have length := short
  rw [header, List.length_append, List.length_singleton] at length
  refine .inr ⟨line, ?_, ⟨some, clean, Nat.lt_of_succ_lt_succ length⟩, fun row member => ?_,
    fun _ => header⟩
  · rw [header, List.flatMap_singleton, List.append_assoc, List.singleton_append]
  · rw [List.mem_singleton.mp member]
    exact fiveAndZeros_plain small

private theorem leaking_disk :
    (run (LogDirectory.save oneSet.format)
      (LogDirectory.start (twoLogs 12 123) ['t'] ['d'] 0) leakingInputs).1.disk =
      [("d/LOG_SN123_t_0001_a.csv".toList, writeHeaderToFile byteAndPair ++ (fiveAndZerosRow 0).line),
        ("d/LOG_SN12_t_0001.csv".toList, []),
        ("d/LOG_SN12_t_0001_a.csv".toList,
          writeHeaderToFile byteAndPair ++ (fiveAndZerosRow 1).line)] := by
  decide +kernel

/-- The log of the device 12 also returns the row of the device 123. -/
private theorem leaking_replayed :
    ReplaysRows oneSet.format (run (LogDirectory.save oneSet.format)
        (LogDirectory.start (twoLogs 12 123) ['t'] ['d'] 0) leakingInputs).1.disk 12 ['t'] ['d']
      [fiveAndZerosRow 0, fiveAndZerosRow 1] := by
  rw [leaking_disk]
  have first := @fiveAndZeros_holding 0 (.head _)
  have second := @fiveAndZeros_holding 1 (.tail _ (.head _))
  have holdsRows {contents : List Char} {rows : List CsvRow}
      (holding : Holding oneSet.format 7 contents rows) : HoldsRows contents := by
    obtain ⟨rfl, -⟩ | ⟨line, same, header, plain, -⟩ := holding
    · exact .inl rfl
    · exact .inr ⟨line, rows, same, header, plain⟩
  refine @replaysRows_of_listed _ oneSet.format _ ⟨['d'], ['t'], 12⟩
    ⟨List.cons_ne_nil _ _, List.forall_mem_singleton.mpr rfl, by decide⟩ ['t'] _ ?_ ?_ ?_ ?_
  · intro file member _
    simp only [List.mem_cons, List.not_mem_nil, or_false] at member
    rcases member with rfl | rfl | rfl
    · exact holdsRows first
    · exact .inl rfl
    · exact holdsRows second
  · intro id mapped log reader
    obtain rfl := oneSet_mapped mapped
    refine ⟨[[fiveAndZerosRow 0], [fiveAndZerosRow 1]], ?_, rfl⟩
    unfold DeviceLogCSV.filesOf
    rw [reader]
    have picked : ((([("d/LOG_SN123_t_0001_a.csv".toList, ([] : List Char)),
        ("d/LOG_SN12_t_0001.csv".toList, []), ("d/LOG_SN12_t_0001_a.csv".toList, [])].map
          Prod.fst).filter (DeviceLogCSV.selects oneSet.format 12 7)).insertionSort (· ≤ ·)) =
        ["d/LOG_SN123_t_0001_a.csv".toList, "d/LOG_SN12_t_0001_a.csv".toList] := by decide +kernel
    refine Eq.mpr (congrArg (fun names => Listed oneSet.format _ 7 names _) picked) ?_
    exact .cons first (.cons second .nil)
  · decide
  · decide

/-- A serial number that begins with another one: the log of the other device returns rows of both. -/
theorem longer_serial_replayed :
    ¬∀ (sets : CsvSets) (devices : Bool → Option Device × UInt32) (timestamp directory : List Char)
      (maxFileSize : UInt32) (inputs : List (Bool × DataBuf)),
      let start := LogDirectory.start devices timestamp directory maxFileSize
      let serialNo := fun key => (LogDirectory.placeOf devices timestamp directory key).serialNo
      let rows := fun key =>
        noted (LogDirectory.save sets.format) (LogDirectory.noteRow sets.format key) [] start inputs
      (∀ key, serialNo key ≠ 0) → serialNo false ≠ serialNo true →
      (∀ key, ∀ row ∈ rows key, row.line.length < 8192) →
      ∀ key, ReplaysRows sets.format (run (LogDirectory.save sets.format) start inputs).1.disk
        (serialNo key) timestamp directory (rows key) := by
  intro claim
  obtain ⟨outputs, replays, own⟩ := claim oneSet (twoLogs 12 123) ['t'] ['d'] 0 leakingInputs
    (by decide) (by decide) (by decide +kernel) false
  obtain ⟨outputs', replays', both⟩ := leaking_replayed
  obtain rfl := replays_unique replays replays'
  have rows : noted (LogDirectory.save oneSet.format) (LogDirectory.noteRow oneSet.format false) []
      (LogDirectory.start (twoLogs 12 123) ['t'] ['d'] 0) leakingInputs = [fiveAndZerosRow 1] := by
    decide +kernel
  dsimp only at own
  rw [rows] at own
  exact absurd (own.length_eq.trans both.length_eq.symm) (by decide)

end InertialSense.DataLog
