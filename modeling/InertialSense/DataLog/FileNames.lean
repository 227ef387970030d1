import InertialSense.DataLog.Serial
import InertialSense.Foundation.Strtol
import Mathlib.Data.List.DropRight

/-! The names of log files: what `ParseFilename` of `ISLogger.cpp` makes of the names that
`GetNewFileName` builds, and of any other text. -/

namespace InertialSense.DataLog

open Foundation

/-- `getline` from a string stream; a stream at its end, `none`, leaves the line as it is. -/
def getline (delim : Char) (ss : Option (List Char)) (str : List Char) :
    Option (List Char) × List Char × Bool :=
  match ss with
  | none => (none, str, false)
  | some [] => (none, [], false)
  | some content =>
    let line := content.takeWhile (· ≠ delim)
    match content.drop line.length with
    | [] => (none, line, true)
    | _ :: rest => (some rest, line, true)

/-- The text is not empty and `isdigit` of its first character. -/
def numeric (text : List Char) : Bool := text.head?.any (isDigitOf 10)

def nextStreamDigit (ss : Option (List Char)) (str : List Char) :
    Option (List Char) × List Char × Bool :=
  let read := getline '_' ss str
  if read.2.2 then (read.1, read.2.1, numeric read.2.1) else (read.1, read.2.1, false)

/-- What `ParseFilename` sets. -/
structure LogFilename where
  serialNum : Int
  date : List Char
  time : List Char
  index : Int
deriving DecidableEq

def logFilePrefix : List Char := "LOG_SN".toList

def find (pattern : List Char) : List Char → Option Nat
  | [] => if pattern.isPrefixOf [] then some 0 else none
  | c :: rest =>
    if pattern.isPrefixOf (c :: rest) then some 0 else (find pattern rest).map (· + 1)

/-- The file name up to its last dot. -/
def stem (filename : List Char) : Option (List Char) :=
  if '.' ∈ filename then some (filename.rdropWhile (· ≠ '.')).dropLast else none

/-- The test in front of each field: without a number there, the name is not valid. -/
def nextField (name : LogFilename) (ss : Option (List Char)) (str : List Char)
    (next : Option (List Char) → List Char → Except Unconvertible (LogFilename × Bool)) :
    Except Unconvertible (LogFilename × Bool) :=
  let read := nextStreamDigit ss str
  if ¬read.2.2 ∨ read.2.1 = [] then .ok (name, false) else next read.1 read.2.1

/-- The branch of `ParseFilename` behind the prefix. -/
def parsePrefixed (name : LogFilename) (content : List Char) :
    Except Unconvertible (LogFilename × Bool) :=
  nextField name (some content) [] fun ss str => do
    let serialNum ← stoi str
    let name := { name with serialNum }
    nextField name ss str fun ss str =>
      let name := { name with date := str }
      nextField name ss str fun ss str =>
        let name := { name with time := str }
        nextField name ss str fun _ str => do
          let index ← stoi str
          .ok ({ name with index }, true)

/-- The branch of `ParseFilename` without a prefix. -/
def parseIndex (name : LogFilename) (content : List Char) :
    Except Unconvertible (LogFilename × Bool) :=
  let read := nextStreamDigit (some content) []
  if ¬read.2.2 ∧ read.2.1 ≠ [] then .ok (name, false)
  else do
    let index ← stoi read.2.1
    .ok ({ name with index }, true)

/-- `ParseFilename`: what it sets and returns, or what it throws. -/
def parseFilename (filename : List Char) : Except Unconvertible (LogFilename × Bool) :=
  let name : LogFilename := { serialNum := 0, date := [], time := [], index := -1 }
  match stem filename with
  | none => .ok (name, false)
  | some content =>
    match find logFilePrefix content with
    | some n => parsePrefixed name (content.drop (n + logFilePrefix.length))
    | none => parseIndex name content

example : parseFilename "LOG_SN60339_20240311_132545_0001.RAW".toList =
    .ok ({ serialNum := 60339
           date := "20240311".toList
           time := "132545".toList
           index := 1 }, true) := by decide +kernel

example : parseFilename "LOG_SN60339_20240311.raw".toList =
    .ok ({ serialNum := 60339, date := "20240311".toList, time := [], index := -1 }, false) := by
  decide +kernel

/-! ### Fields -/

section Fields

/-- The stream from which these fields are still to be read. -/
def streamOf : List (List Char) → Option (List Char)
  | [] => none
  | field :: rest => some (['_'].intercalate (field :: rest))

variable {fields : List (List Char)}

theorem getline_streamOf {field : List Char} {rest : List (List Char)} (plain : '_' ∉ field)
    (str : List Char) : ∃ read, getline '_' (streamOf (field :: rest)) str =
      (streamOf rest, field, read) ∧ (field ≠ [] → read = true) := by
  have line : ∀ c ∈ field, decide (c ≠ '_') = true := by
    intro c member
    exact decide_eq_true fun same => plain (same ▸ member)
  cases rest with
  | nil =>
    have content : streamOf [field] = some field := by simp [streamOf]
    rw [content]
    cases field with
    | nil => exact ⟨false, rfl, fun some => absurd rfl some⟩
    | cons c field =>
      refine ⟨true, ?_, fun _ => rfl⟩
      unfold getline
      dsimp only
      rw [List.takeWhile_eq_self_iff.mpr line, List.drop_length]
      rfl
  | cons next rest =>
    have content : streamOf (field :: next :: rest) =
        some (field ++ '_' :: ['_'].intercalate (next :: rest)) := by
      simp [streamOf, List.intercalate_cons_cons]
    have whole : (field ++ '_' :: ['_'].intercalate (next :: rest)).takeWhile (· ≠ '_') = field := by
      rw [List.takeWhile_append_of_pos line, List.takeWhile_cons_of_neg (by decide),
        List.append_nil]
    refine ⟨true, ?_, fun _ => rfl⟩
    rw [content]
    unfold getline
    split
    case h_1 same => cases same
    case h_2 same => exact absurd (Option.some.inj same) (by simp)
    case h_3 _ same =>
      obtain rfl := Option.some.inj same
      dsimp only
      rw [whole, List.drop_left]
      rfl

theorem nextStreamDigit_streamOf {field : List Char} {rest : List (List Char)}
    (plain : '_' ∉ field) (str : List Char) :
    nextStreamDigit (streamOf (field :: rest)) str = (streamOf rest, field, numeric field) := by
  obtain ⟨read, same, taken⟩ := getline_streamOf plain str
  unfold nextStreamDigit
  rw [same]
  dsimp only
  split
  case isTrue _ => rfl
  case isFalse unread =>
    obtain rfl : field = [] := by
      by_contra some
      exact unread (taken some)
    rfl

theorem nextField_drop (plain : ∀ field ∈ fields, '_' ∉ field) (name : LogFilename) (k : Nat)
    (str : List Char)
    (next : Option (List Char) → List Char → Except Unconvertible (LogFilename × Bool)) :
    nextField name (streamOf (fields.drop k)) str next =
      if numeric (fields.getD k []) then next (streamOf (fields.drop (k + 1))) (fields.getD k [])
      else .ok (name, false) := by
  by_cases inside : k < fields.length
  · have field : fields.getD k [] = fields[k] := by simp [List.getD_eq_getElem?_getD, inside]
    rw [List.drop_eq_getElem_cons inside, field]
    unfold nextField
    rw [nextStreamDigit_streamOf (plain _ (List.getElem_mem inside))]
    dsimp only
    cases found : numeric fields[k] with
    | false => rfl
    | true =>
      have some : fields[k] ≠ [] := by
        intro empty
        rw [empty] at found
        cases found
      simp only [not_true_eq_false, false_or, some, if_false, if_true]
  · have field : fields.getD k [] = [] := by
      simp [List.getD_eq_getElem?_getD, Nat.not_lt.mp inside]
    rw [List.drop_eq_nil_of_le (Nat.not_lt.mp inside), field]
    rfl

theorem not_mem_of_mem_splitOn {content field : List Char}
    (member : field ∈ content.splitOn '_') : '_' ∉ field := by
  induction content generalizing field with
  | nil =>
    rw [List.splitOn_nil, List.mem_singleton] at member
    rw [member]
    exact List.not_mem_nil
  | cons c rest ih =>
    rw [List.splitOn_cons_eq_if_modifyHead] at member
    split at member
    case isTrue separator =>
      obtain rfl | later := List.mem_cons.mp member
      · exact List.not_mem_nil
      · exact ih later
    case isFalse other =>
      obtain ⟨first, others, same⟩ := List.exists_cons_of_ne_nil (List.splitOn_ne_nil '_' rest)
      rw [same, List.modifyHead_cons] at member
      obtain rfl | later := List.mem_cons.mp member
      · have plain := ih (same ▸ List.mem_cons_self)
        intro inside
        obtain rfl | inside := List.mem_cons.mp inside
        · exact other (beq_self_eq_true _)
        · exact plain inside
      · exact ih (same ▸ List.mem_cons_of_mem _ later)

theorem parsePrefixed_fields (plain : ∀ field ∈ fields, '_' ∉ field) (some : fields ≠ [])
    (name : LogFilename) :
    parsePrefixed name (['_'].intercalate fields) =
      if numeric (fields.getD 0 []) then do
        let serialNum ← stoi (fields.getD 0 [])
        if numeric (fields.getD 1 []) then
          if numeric (fields.getD 2 []) then
            if numeric (fields.getD 3 []) then do
              let index ← stoi (fields.getD 3 [])
              .ok ({ serialNum, date := fields.getD 1 [], time := fields.getD 2 [], index }, true)
            else .ok ({ name with serialNum, date := fields.getD 1 [], time := fields.getD 2 [] }, false)
          else .ok ({ name with serialNum, date := fields.getD 1 [] }, false)
        else .ok ({ name with serialNum }, false)
      else .ok (name, false) := by
  have stream : Option.some (['_'].intercalate fields) = streamOf (fields.drop 0) := by
    obtain ⟨field, rest, rfl⟩ := List.exists_cons_of_ne_nil some
    rfl
  unfold parsePrefixed
  rw [stream, nextField_drop plain]
  simp only [nextField_drop plain]

end Fields

/-! ### What `stoi` gets -/

def leadingNumber (field : List Char) : Nat := numberOf 10 0 (field.takeWhile (isDigitOf 10))

/-- The number at the start of a field is an `int`. -/
def FitsInt (field : List Char) : Prop := leadingNumber field < 2 ^ 31

instance (field : List Char) : Decidable (FitsInt field) := inferInstanceAs (Decidable (_ < _))

/-- Behind the prefix, the serial number and, if there are four numbers, the index fit. -/
def ConvertiblePrefixed (fields : List (List Char)) : Prop :=
  numeric (fields.getD 0 []) → FitsInt (fields.getD 0 []) ∧
    (numeric (fields.getD 1 []) → numeric (fields.getD 2 []) → numeric (fields.getD 3 []) →
      FitsInt (fields.getD 3 []))

/-- Without a prefix, the first field is there and, if it is a number, fits. -/
def ConvertibleIndex (fields : List (List Char)) : Prop :=
  fields.getD 0 [] ≠ [] ∧ (numeric (fields.getD 0 []) → FitsInt (fields.getD 0 []))

/-- Nothing in the name that `ParseFilename` takes for a number is missing or too large. -/
def Convertible (filename : List Char) : Prop :=
  match stem filename with
  | none => True
  | some content =>
    match find logFilePrefix content with
    | some n => ConvertiblePrefixed ((content.drop (n + logFilePrefix.length)).splitOn '_')
    | none => ConvertibleIndex (content.splitOn '_')

section Conversion

variable {field : List Char}

theorem stoi_numeric (number : numeric field = true) : stoi field =
    if FitsInt field then .ok (leadingNumber field) else .error .outOfRange := by
  cases field with
  | nil => cases number
  | cons c rest => exact stoi_digit number rest

/-- What comes after a conversion is reached if the number fits. -/
theorem stoi_bind_ok_iff {α : Type} (number : numeric field = true)
    (next : Int → Except Unconvertible α) :
    (∃ result, (stoi field >>= next) = .ok result) ↔
      FitsInt field ∧ ∃ result, next (leadingNumber field) = .ok result := by
  rw [stoi_numeric number]
  by_cases fits : FitsInt field
  · rw [if_pos fits]
    exact (and_iff_right fits).symm
  · rw [if_neg fits]
    refine iff_of_false ?_ fun holds => fits holds.1
    rintro ⟨result, same⟩
    cases same

theorem parsePrefixed_ok_iff (name : LogFilename) (content : List Char) :
    (∃ parsed, parsePrefixed name content = .ok parsed) ↔
      ConvertiblePrefixed (content.splitOn '_') := by
  conv_lhs => rw [← @List.intercalate_splitOn _ content _ _ '_']
  rw [parsePrefixed_fields (fun _ member => not_mem_of_mem_splitOn member)
    (List.splitOn_ne_nil '_' content)]
  unfold ConvertiblePrefixed
  generalize content.splitOn '_' = fields
  cases serial : numeric (fields.getD 0 []) with
  | false => exact iff_of_true ⟨_, rfl⟩ Bool.noConfusion
  | true =>
    rw [if_pos rfl, stoi_bind_ok_iff serial, forall_prop_of_true rfl]
    refine and_congr_right fun _ => ?_
    cases date : numeric (fields.getD 1 []) with
    | false => exact iff_of_true ⟨_, rfl⟩ Bool.noConfusion
    | true =>
      cases time : numeric (fields.getD 2 []) with
      | false => exact iff_of_true ⟨_, rfl⟩ fun _ => Bool.noConfusion
      | true =>
        cases index : numeric (fields.getD 3 []) with
        | false => exact iff_of_true ⟨_, rfl⟩ fun _ _ => Bool.noConfusion
        | true =>
          rw [if_pos rfl, if_pos rfl, if_pos rfl, stoi_bind_ok_iff index]
          simp

theorem parseIndex_ok_iff (name : LogFilename) (content : List Char) :
    (∃ parsed, parseIndex name content = .ok parsed) ↔
      ConvertibleIndex (content.splitOn '_') := by
  obtain ⟨first, rest, same⟩ := List.exists_cons_of_ne_nil (List.splitOn_ne_nil '_' content)
  have stream : some content = streamOf (first :: rest) := by
    conv_lhs => rw [← @List.intercalate_splitOn _ content _ _ '_', same]
    rfl
  have plain : '_' ∉ first := not_mem_of_mem_splitOn (same ▸ List.mem_cons_self)
  unfold parseIndex ConvertibleIndex
  rw [stream, nextStreamDigit_streamOf plain, same]
  dsimp only
  rw [List.getD_cons_zero]
  cases number : numeric first with
  | true =>
    have some : first ≠ [] := by
      rintro rfl
      cases number
    rw [if_neg (fun test => test.1 rfl), stoi_bind_ok_iff number]
    exact ⟨fun holds => ⟨some, fun _ => holds.1⟩, fun holds => ⟨holds.2 rfl, _, rfl⟩⟩
  | false =>
    by_cases empty : first = []
    · -- `stoi` of nothing
      subst empty
      rw [if_neg (fun test => test.2 rfl)]
      refine iff_of_false ?_ fun holds => holds.1 rfl
      rintro ⟨result, thrown⟩
      cases thrown
    · rw [if_pos ⟨Bool.false_ne_true, empty⟩]
      exact iff_of_true ⟨_, rfl⟩ ⟨empty, Bool.noConfusion⟩

theorem parseFilename_ok_iff (filename : List Char) :
    (∃ parsed, parseFilename filename = .ok parsed) ↔ Convertible filename := by
  unfold parseFilename Convertible
  dsimp only
  cases stem filename with
  | none => exact iff_of_true ⟨_, rfl⟩ trivial
  | some content =>
    dsimp only
    cases find logFilePrefix content with
    | none => exact parseIndex_ok_iff _ content
    | some n => exact parsePrefixed_ok_iff _ _

end Conversion

/-! ### The names of a log -/

section Names

theorem prefix_of_prefix_append {pattern before rest : List Char} {separator : Char}
    (without : separator ∉ pattern) (starts : pattern <+: before ++ separator :: rest) :
    pattern <+: before := by
  rw [List.append_cons] at starts
  obtain inside | longer := List.prefix_or_prefix_of_prefix starts (List.prefix_append _ _)
  · obtain rfl | shorter := List.prefix_concat_iff.mp inside
    · exact absurd (List.mem_append_right _ (List.mem_singleton_self _)) without
    · exact shorter
  · exact absurd (longer.subset (List.mem_append_right _ (List.mem_singleton_self _))) without

/-- The first place of a pattern is behind what it is not in. -/
theorem find_append {pattern before : List Char} {separator : Char}
    (without : separator ∉ pattern) (some : pattern ≠ []) (absent : ¬pattern <:+: before)
    (rest : List Char) :
    find pattern (before ++ separator :: (pattern ++ rest)) = Option.some (before.length + 1) := by
  have elsewhere {before : List Char} (absent : ¬pattern <:+: before) :
      ¬pattern.isPrefixOf (before ++ separator :: (pattern ++ rest)) = true := by
    rw [List.isPrefixOf_iff_prefix]
    exact fun starts => absent (prefix_of_prefix_append without starts).isInfix
  induction before with
  | nil =>
    have here : find pattern (pattern ++ rest) = Option.some 0 := by
      obtain ⟨c, others, rfl⟩ := List.exists_cons_of_ne_nil some
      exact if_pos (List.isPrefixOf_iff_prefix.mpr (List.prefix_append _ _))
    have moved : find pattern (separator :: (pattern ++ rest)) =
        (find pattern (pattern ++ rest)).map (· + 1) := if_neg (elsewhere absent)
    exact moved.trans (congrArg (Option.map (· + 1)) here)
  | cons c before ih =>
    have later := ih fun inside => absent (inside.trans (List.suffix_cons _ _).isInfix)
    have moved : find pattern (c :: (before ++ separator :: (pattern ++ rest))) =
        (find pattern (before ++ separator :: (pattern ++ rest))).map (· + 1) :=
      if_neg (elsewhere absent)
    exact moved.trans (congrArg (Option.map (· + 1)) later)

theorem stem_append {extension : List Char} (plain : '.' ∉ extension) (name : List Char) :
    stem (name ++ '.' :: extension) = some name := by
  have others : ∀ c ∈ extension, decide (c ≠ '.') = true := by
    intro c member
    exact decide_eq_true fun same => plain (same ▸ member)
  have whole : (name ++ '.' :: extension).rdropWhile (· ≠ '.') = name ++ ['.'] := by
    rw [List.append_cons, List.rdropWhile, List.reverse_append,
      List.dropWhile_append_of_pos fun c member => others c (List.mem_reverse.mp member),
      List.reverse_append, List.reverse_singleton, List.singleton_append,
      List.dropWhile_cons_of_neg (by decide), ← List.reverse_concat, List.reverse_reverse]
  unfold stem
  rw [if_pos (List.mem_append_right _ List.mem_cons_self), whole, List.dropLast_concat]

/-- The names of this log are a directory without the prefix, date and time in digits, and an
extension. -/
structure Named (format : LogFormat) (log : DeviceLog) (date time : List Char) : Prop where
  extension : ∃ extension, format.extension = '.' :: extension ∧ '.' ∉ extension
  directory : ¬logFilePrefix <:+: log.directory
  timeStamp : log.timeStamp = date ++ '_' :: time
  date : date ≠ [] ∧ ∀ c ∈ date, isDigitOf 10 c = true
  time : time ≠ [] ∧ ∀ c ∈ time, isDigitOf 10 c = true

theorem not_mem_digits {field : List Char} (digits : ∀ c ∈ field, isDigitOf 10 c = true) :
    '_' ∉ field := fun member => absurd (digits _ member) (by decide)

theorem numeric_digits {field : List Char}
    (digits : field ≠ [] ∧ ∀ c ∈ field, isDigitOf 10 c = true) : numeric field = true := by
  obtain ⟨some, digits⟩ := digits
  obtain ⟨c, rest, rfl⟩ := List.exists_cons_of_ne_nil some
  exact digits c List.mem_cons_self

theorem stoi_digits {field : List Char} {value : Nat}
    (digits : field ≠ [] ∧ ∀ c ∈ field, isDigitOf 10 c = true)
    (read : numberOf 10 0 field = value) (fits : value < 2 ^ 31) : stoi field = .ok value := by
  have leading : leadingNumber field = value := by
    unfold leadingNumber
    rw [List.takeWhile_eq_self_iff.mpr digits.2, read]
  have small : FitsInt field := by
    unfold FitsInt
    rwa [leading]
  rw [stoi_numeric (numeric_digits digits), if_pos small, leading]

/-- The serial number as it stands in a name, and what it is taken for. -/
theorem decimal_int32 (serialNumber : UInt32) :
    if serialNumber.toNat < 2 ^ 31 then
      decimal (int32 serialNumber.toNat) = padded 0 10 serialNumber.toNat
    else ∃ digits, decimal (int32 serialNumber.toNat) = '-' :: digits ∧
      ∀ c ∈ digits, isDigitOf 10 c = true := by
  have bound := serialNumber.toNat_lt
  have signed : int32 serialNumber.toNat =
      if serialNumber.toNat < 2 ^ 31 then (serialNumber.toNat : Int)
      else (serialNumber.toNat : Int) - 2 ^ 32 := by
    unfold int32
    rw [Int.bmod_def]
    split <;> split <;> omega
  rw [signed]
  split
  case isTrue small =>
    unfold padded List.leftpad
    rw [Nat.zero_sub, List.replicate_zero, List.nil_append]
    rfl
  case isFalse large =>
    obtain ⟨magnitude, same⟩ : ∃ magnitude : Nat,
        (serialNumber.toNat : Int) - 2 ^ 32 = Int.negSucc magnitude :=
      Int.eq_negSucc_of_lt_zero (by omega)
    rw [same]
    refine ⟨_, rfl, fun c member => ?_⟩
    exact @mem_padded_decimal 0 (magnitude + 1) c (List.mem_append_right _ member)

theorem padded_digits (width value : Nat) :
    padded width 10 value ≠ [] ∧ ∀ c ∈ padded width 10 value, isDigitOf 10 c = true :=
  ⟨List.append_ne_nil_of_right_ne_nil _ Nat.toDigits_ne_nil, fun _ => mem_padded_decimal⟩

theorem Named.getNewFileName_eq {format : LogFormat} {log : DeviceLog} {date time : List Char}
    (named : Named format log date time) (serialNumber : UInt32) (fileCount : Nat) :
    ∃ extension, '.' ∉ extension ∧ log.getNewFileName format serialNumber fileCount [] =
      (log.directory ++ '/' :: (logFilePrefix ++ ['_'].intercalate
        [decimal (int32 serialNumber.toNat), date, time, padded 4 10 (fileCount % 10000)])) ++
          '.' :: extension := by
  obtain ⟨extension, ends, plain⟩ := named.extension
  refine ⟨extension, plain, ?_⟩
  generalize serial : decimal (int32 serialNumber.toNat) = serialNum
  generalize index : padded 4 10 (fileCount % 10000) = count
  unfold DeviceLog.getNewFileName
  rw [serial, index, named.timeStamp, ends, if_pos rfl,
    show "LOG_SN".toList = logFilePrefix from rfl]
  simp only [List.intercalate_cons_cons, List.intercalate_singleton,
    List.append_assoc, List.cons_append, List.nil_append, List.append_nil]

theorem parseFilename_prefixed {directory extension : List Char} (plain : '.' ∉ extension)
    (absent : ¬logFilePrefix <:+: directory) (content : List Char) :
    parseFilename ((directory ++ '/' :: (logFilePrefix ++ content)) ++ '.' :: extension) =
      parsePrefixed { serialNum := 0, date := [], time := [], index := -1 } content := by
  have place := @find_append logFilePrefix directory '/' (by decide) (by decide) absent content
  have behind : (directory ++ '/' :: (logFilePrefix ++ content)).drop
      (directory.length + 1 + logFilePrefix.length) = content := by
    rw [Nat.add_assoc, ← List.drop_drop, List.drop_left, Nat.add_comm, List.drop_succ_cons,
      List.drop_left]
  unfold parseFilename
  rw [stem_append plain]
  dsimp only
  rw [place]
  dsimp only
  rw [behind]

theorem Named.parseFilename_iff {format : LogFormat} {log : DeviceLog} {date time : List Char}
    (named : Named format log date time) (serialNumber : UInt32) (fileCount : Nat) :
    parseFilename (log.getNewFileName format serialNumber fileCount []) =
        .ok ({ serialNum := serialNumber.toNat, date, time, index := (fileCount % 10000 : Nat) },
          true) ↔
      serialNumber.toNat < 2 ^ 31 := by
  obtain ⟨extension, plain, name⟩ := named.getNewFileName_eq serialNumber fileCount
  have small : fileCount % 10000 < 2 ^ 31 := by omega
  have digits := padded_digits 4 (fileCount % 10000)
  have index := stoi_digits digits (numberOf_padded ..) small
  have serial := decimal_int32 serialNumber
  rw [name, parseFilename_prefixed plain named.directory]
  generalize decimal (int32 serialNumber.toNat) = serialNum at serial
  generalize padded 4 10 (fileCount % 10000) = count at digits index
  have without : '_' ∉ serialNum := by
    split at serial
    case isTrue _ =>
      rw [serial]
      exact not_mem_digits (padded_digits ..).2
    case isFalse _ =>
      obtain ⟨rest, rfl, digits⟩ := serial
      rintro (_ | ⟨_, member⟩)
      exact not_mem_digits digits member
  have fields : ∀ field ∈ [serialNum, date, time, count], '_' ∉ field := by
    simp only [List.forall_mem_cons]
    exact ⟨without, not_mem_digits named.date.2, not_mem_digits named.time.2,
      not_mem_digits digits.2, fun _ => (absurd · List.not_mem_nil)⟩
  rw [parsePrefixed_fields fields (List.cons_ne_nil _ _)]
  simp only [List.getD_cons_zero, List.getD_cons_succ, numeric_digits named.date,
    numeric_digits named.time, numeric_digits digits, if_true, index]
  split at serial
  case isTrue fits =>
    have number := padded_digits 0 serialNumber.toNat
    refine iff_of_true ?_ fits
    rw [serial, if_pos (numeric_digits number), stoi_digits number (numberOf_padded ..) fits]
    rfl
  case isFalse large =>
    -- the minus sign is no digit
    obtain ⟨rest, rfl, -⟩ := serial
    have sign : numeric ('-' :: rest) = false := rfl
    refine iff_of_false ?_ large
    rw [sign, if_neg Bool.false_ne_true]
    exact fun same => Bool.false_ne_true (Prod.mk.inj (Except.ok.inj same)).2

end Names

/-- Names of a log are read back exactly if the serial number is below 2^31, and the names that
`ParseFilename` returns from are those in which every conversion succeeds. -/
theorem log_names_round_trip_iff (format : LogFormat) (log : DeviceLog) (date time : List Char)
    (serialNumber : UInt32) (fileCount : Nat) (filename : List Char) :
    (Named format log date time →
      (parseFilename (log.getNewFileName format serialNumber fileCount []) =
          .ok ({ serialNum := serialNumber.toNat, date, time, index := (fileCount % 10000 : Nat) },
            true) ↔
        serialNumber.toNat < 2 ^ 31)) ∧
      ((∃ parsed, parseFilename filename = .ok parsed) ↔ Convertible filename) :=
  ⟨fun named => named.parseFilename_iff serialNumber fileCount, parseFilename_ok_iff filename⟩

def sampleNamedLog (serialNumber : UInt32) : DeviceLog :=
  { cDeviceLog none serialNumber [] (Chunk.cDataChunk 0 fun _ => 0) with
    directory := "IS_logs".toList
    timeStamp := "20240311_132545".toList }

theorem log_names_round_trip_iff_sample :
    parseFilename ((sampleNamedLog 60339).getNewFileName dat 60339 10002 []) =
      .ok ({ serialNum := (60339 : UInt32).toNat
             date := "20240311".toList
             time := "132545".toList
             index := (10002 % 10000 : Nat) }, true) :=
  ((log_names_round_trip_iff dat (sampleNamedLog 60339) "20240311".toList "132545".toList 60339
    10002 []).1
    { extension := ⟨"dat".toList, rfl, by decide⟩
      directory := by decide +kernel
      timeStamp := by decide +kernel
      date := ⟨by decide, by simp [isDigitOf, hexValue]⟩
      time := ⟨by decide, by simp [isDigitOf, hexValue]⟩ }).mpr (by decide)

/-- The name of a serial number from 2^31 on has a minus sign; a name of nothing but an
extension and one with too large a number throw. -/
theorem large_serial_unread :
    parseFilename ((sampleNamedLog 2147483648).getNewFileName dat 2147483648 1 []) =
        .ok ({ serialNum := 0, date := [], time := [], index := -1 }, false) ∧
      parseFilename ".raw".toList = .error .invalidArgument ∧
      parseFilename "99999999999.raw".toList = .error .outOfRange := by
  decide +kernel

end InertialSense.DataLog
