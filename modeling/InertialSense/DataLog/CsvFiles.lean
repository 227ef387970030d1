import InertialSense.DataLog.CsvLog

/-! Which files a CSV log picks for a data set: those of its own device and of this data set, as
long as the text that stands for the device is in no name of another device. -/

namespace InertialSense.DataLog

open Foundation

variable {γ : Type} {format : CsvFormat γ}

/-! ### Texts in small letters -/

@[simp] theorem lower_append (first second : List Char) :
    lower (first ++ second) = lower first ++ lower second := List.map_append

@[simp] theorem lower_length (text : List Char) : (lower text).length = text.length :=
  List.length_map ..

private theorem isLineBreak_of_le {c : Char} (large : 32 ≤ c.val) : isLineBreak c = false := by
  unfold isLineBreak
  rw [decide_eq_false_iff_not]
  rintro (rfl | rfl)
  · exact absurd large (by decide)
  · exact absurd large (by decide)

theorem isLineBreak_digit {c : Char} (digit : isDigitOf 10 c = true) : isLineBreak c = false := by
  cases broken : isLineBreak c with
  | false => rfl
  | true =>
    obtain rfl | rfl := of_decide_eq_true broken
    · exact absurd digit (by decide)
    · exact absurd digit (by decide)

theorem toLower_digit {c : Char} (digit : isDigitOf 10 c = true) : c.toLower = c := by
  obtain ⟨value, found, small⟩ := (Option.any_eq_true _ _).mp digit
  rw [decide_eq_true_iff] at small
  unfold hexValue at found
  split at found
  case isTrue range =>
    have high : c.val.toNat ≤ 57 := range.2
    unfold Char.toLower
    rw [dif_neg]
    rintro ⟨low, -⟩
    have low' : 65 ≤ c.val.toNat := low
    omega
  case isFalse _ =>
    split at found
    case isTrue _ =>
      obtain rfl := Option.some.inj found
      omega
    case isFalse _ =>
      split at found
      case isTrue _ =>
        obtain rfl := Option.some.inj found
        omega
      case isFalse _ => cases found

theorem lower_digits {text : List Char} (digits : ∀ c ∈ text, isDigitOf 10 c = true) :
    lower text = text :=
  (List.map_congr_left fun c member => toLower_digit (digits c member)).trans (List.map_id text)

theorem isLineBreak_toLower (c : Char) : isLineBreak c.toLower = isLineBreak c := by
  unfold Char.toLower
  split
  case isFalse _ => rfl
  case isTrue upper =>
    obtain ⟨low, high⟩ := upper
    have low' : 65 ≤ c.val.toNat := low
    have high' : c.val.toNat ≤ 90 := high
    rw [isLineBreak_of_le, isLineBreak_of_le]
    · show 32 ≤ c.val.toNat
      omega
    · show 32 ≤ (c.val + 32).toNat
      rw [UInt32.toNat_add]
      show 32 ≤ (c.val.toNat + 32) % 2 ^ 32
      omega

theorem mem_lower_lineBreak {text : List Char} (plain : ∀ c ∈ text, isLineBreak c = false) :
    ∀ c ∈ lower text, isLineBreak c = false := by
  intro c member
  obtain ⟨c, inside, rfl⟩ := List.mem_map.mp member
  rw [isLineBreak_toLower]
  exact plain c inside

/-! ### The regular expression -/

namespace DeviceLogCSV

/-- What the regular expression finds. -/
theorem regexSearch_iff {start ending path : List Char} :
    regexSearch start ending path = true ↔ ∃ before rest,
      lower path = before ++ (lower start ++ rest) ++ lower ending ∧
        ∀ c ∈ rest, isLineBreak c = false := by
  have cut {stem : List Char} (whole : lower path = stem ++ lower ending) :
      (lower path).take (path.length - ending.length) = stem := by
    have length := congrArg List.length whole
    rw [List.length_append, lower_length, lower_length] at length
    rw [whole, List.take_left' (by omega)]
  unfold regexSearch
  rw [Bool.and_eq_true, List.isSuffixOf_iff_suffix, List.any_eq_true]
  constructor
  · rintro ⟨⟨stem, whole⟩, tail, inside, found⟩
    rw [cut whole.symm, List.mem_tails] at inside
    obtain ⟨before, rfl⟩ := inside
    rw [Bool.and_eq_true, List.isPrefixOf_iff_prefix, List.all_eq_true] at found
    obtain ⟨⟨rest, rfl⟩, plain⟩ := found
    refine ⟨before, rest, whole.symm, fun c member => ?_⟩
    rw [← lower_length start, List.drop_left] at plain
    simpa using plain c member
  · rintro ⟨before, rest, whole, plain⟩
    refine ⟨⟨_, whole.symm⟩, lower start ++ rest, ?_, ?_⟩
    · rw [cut whole, List.mem_tails]
      exact List.suffix_append _ _
    · rw [Bool.and_eq_true, List.isPrefixOf_iff_prefix, List.all_eq_true]
      refine ⟨List.prefix_append _ _, fun c member => ?_⟩
      rw [← lower_length start, List.drop_left] at member
      simpa using plain c member

/-- The text in a path that stands for a device. -/
def mark (serialNo : UInt32) : List Char := logFilePrefix ++ decimal serialNo.toNat

/-- A serial number whose numeral in the name of a file is its own. -/
def Valid (serialNo : UInt32) : Prop := serialNo ≠ 0 ∧ serialNo.toNat < 2 ^ 31

instance (serialNo : UInt32) : Decidable (Valid serialNo) := inferInstanceAs (Decidable (_ ∧ _))

variable {serialNo : UInt32} {id : Nat}

theorem selects_iff (valid : Valid serialNo) {path : List Char} :
    selects format serialNo id path = true ↔ ∃ before rest,
      lower path = before ++ (lower (mark serialNo) ++ rest) ++
          (lower (format.dataName id) ++ lower csv.extension) ∧
        ∀ c ∈ rest, isLineBreak c = false := by
  have searched : 0 < serialNo ∧ serialNo < 0xFFFFFFFF := by
    obtain ⟨some, small⟩ := valid
    rw [UInt32.lt_iff_toNat_lt, UInt32.lt_iff_toNat_lt]
    have nonzero : serialNo.toNat ≠ 0 := fun zero => some (UInt32.toNat_inj.mp zero)
    refine ⟨Nat.pos_of_ne_zero nonzero, ?_⟩
    show serialNo.toNat < 4294967295
    omega
  unfold selects
  dsimp only
  rw [if_pos searched, regexSearch_iff, lower_append (format.dataName id)]
  rfl

/-- What is picked has the mark of the device in it. -/
theorem selects_mark (valid : Valid serialNo) {path : List Char}
    (selected : selects format serialNo id path = true) :
    lower (mark serialNo) <:+: lower path := by
  obtain ⟨before, rest, whole, -⟩ := (selects_iff valid).mp selected
  rw [whole]
  exact ⟨before, rest ++ (lower (format.dataName id) ++ lower csv.extension), by
    simp only [List.append_assoc]⟩

/-! ### Names -/

/-- The name of a file up to the name of the data set. -/
def fileStem (directory timeStamp : List Char) (serialNo : UInt32) (count : Nat) : List Char :=
  directory ++ '/' :: (logFilePrefix ++ decimal (int32 serialNo.toNat)) ++ '_' :: timeStamp ++
    '_' :: padded 4 10 (count % 10000)

theorem getNewFileName_stem (log : DeviceLog) (serialNo : UInt32) (count : Nat)
    (suffix : List Char) :
    log.getNewFileName csv serialNo count suffix =
      fileStem log.directory log.timeStamp serialNo count ++
        (if suffix = [] then [] else '_' :: suffix) ++ csv.extension := by
  unfold DeviceLog.getNewFileName fileStem
  rw [show "LOG_SN".toList = logFilePrefix from rfl]
  simp only [List.append_assoc, List.cons_append]

/-- A file of the device, seen from its mark on. -/
theorem fileStem_mark (valid : Valid serialNo) {timeStamp : List Char}
    (line : ∀ c ∈ timeStamp, isLineBreak c = false) (directory : List Char) (count : Nat) :
    ∃ before rest, fileStem directory timeStamp serialNo count = before ++ (mark serialNo ++ rest) ∧
      ∀ c ∈ rest, isLineBreak c = false := by
  have numeral : int32 serialNo.toNat = serialNo.toNat := by
    have small := valid.2
    exact Chunk.int32_of_lt (by omega) (by omega)
  refine ⟨directory ++ ['/'], '_' :: timeStamp ++ '_' :: padded 4 10 (count % 10000), ?_, ?_⟩
  · unfold fileStem mark
    rw [numeral]
    simp only [List.append_assoc, List.cons_append, List.nil_append]
  · intro c member
    obtain first | last := List.mem_append.mp member
    · obtain rfl | inside := List.mem_cons.mp first
      · decide
      · exact line c inside
    · obtain rfl | inside := List.mem_cons.mp last
      · decide
      · exact isLineBreak_digit (mem_padded_decimal inside)

/-- The file of a data set of the device is picked for it. -/
theorem selects_own (valid : Valid serialNo) {timeStamp : List Char}
    (line : ∀ c ∈ timeStamp, isLineBreak c = false) (named : format.dataName id ≠ [])
    (directory : List Char) (count : Nat) :
    selects format serialNo id (fileStem directory timeStamp serialNo count ++
      (if format.dataName id = [] then [] else '_' :: format.dataName id) ++ csv.extension) =
        true := by
  obtain ⟨before, rest, stem, plain⟩ := fileStem_mark valid line directory count
  refine (selects_iff valid).mpr ⟨lower before, lower (rest ++ ['_']), ?_, ?_⟩
  · rw [stem, if_neg named, List.append_cons _ '_']
    simp only [lower_append, List.append_assoc]
  · refine mem_lower_lineBreak fun c member => ?_
    obtain inside | last := List.mem_append.mp member
    · exact plain c inside
    · rw [List.mem_singleton.mp last]
      decide

/-- A file is picked for no data set but its own. -/
theorem selects_other (valid : Valid serialNo) {other : Nat} (mapped : format.dataSize id ≠ 0)
    (different : id ≠ other) (stem : List Char) (count : Nat) :
    selects format serialNo id (stem ++ '_' :: padded 4 10 (count % 10000) ++
      (if format.dataName other = [] then [] else '_' :: format.dataName other) ++
        csv.extension) = false := by
  cases selected : selects format serialNo id (stem ++ '_' :: padded 4 10 (count % 10000) ++
      (if format.dataName other = [] then [] else '_' :: format.dataName other) ++
        csv.extension) with
  | false => rfl
  | true =>
    obtain ⟨before, rest, whole, -⟩ := (selects_iff valid).mp selected
    rw [lower_append _ csv.extension, ← List.append_assoc (before ++ _)] at whole
    have ends : lower (format.dataName id) <:+ lower (stem ++ '_' :: padded 4 10 (count % 10000) ++
        (if format.dataName other = [] then [] else '_' :: format.dataName other)) :=
      ⟨_, (List.append_cancel_right whole).symm⟩
    split at ends
    case isTrue unnamed =>
      -- the last four characters of the file are digits
      have four : (padded 4 10 (count % 10000)).length = 4 :=
        padded_length (by decide) (by decide) (Nat.mod_lt _ (by decide))
      have digits := lower_digits fun c => @mem_padded_decimal 4 (count % 10000) c
      obtain ⟨c, member, other⟩ := format.unnumbered id mapped
      rw [List.append_nil, List.append_cons, lower_append, digits] at ends
      have starts := (List.reverse_prefix.mpr ends).take 4
      rw [List.reverse_append, List.take_left' (by rw [List.length_reverse, four])] at starts
      have inside := List.mem_reverse.mp (starts.subset member)
      rw [mem_padded_decimal inside] at other
      cases other
    case isFalse named =>
      rw [List.append_cons _ '_', lower_append] at ends
      exact absurd (format.apart id other mapped named
        (List.suffix_or_suffix_of_suffix ends (List.suffix_append _ _))) different

end DeviceLogCSV

end InertialSense.DataLog
