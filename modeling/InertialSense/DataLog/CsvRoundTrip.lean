import InertialSense.DataLog.Csv

/-! When a record comes back from its row. The elements of an array have columns of their own, which
no field is found for, so that an array is read back as zeros. -/

namespace InertialSense.DataLog

open Foundation

namespace DataInfo

variable (info : DataInfo) (mem : Nat → UInt8)

/-- The column of the field is read to the field. -/
def Readable : Prop :=
  info.arraySize = 0 ∧ info.name ≠ ['_', 'I', 'D', '_'] ∧ info.offset < maxDatasetSize

instance : Decidable info.Readable := inferInstanceAs (Decidable (_ ∧ _ ∧ _))

/-- All bytes of the field are zero. -/
def ZeroIn : Prop := ∀ k < info.size, mem (info.offset + k) = 0

/-- The text in the field ends within it and within the longest text, and only zeros follow. -/
def TerminatedIn : Prop :=
  ∃ n < min maxStringLength info.size, (∀ k < n, mem (info.offset + k) ≠ 0) ∧
    ∀ k < info.size, n ≤ k → mem (info.offset + k) = 0

/-- An integer that sets `errno` when it is read back: a negative one of 64 bits, in hexadecimal. -/
def OutOfRange : Prop :=
  info.Readable ∧ info.type.overflows info.displayHex (info.bytesIn mem)

def ComesBack (before : List DataInfo) (erange : Bool) : Prop :=
  info.ZeroIn mem ∨ info.Readable ∧
    if info.type = .string then info.TerminatedIn mem
    else erange = false ∧ ∀ field ∈ before ++ [info], ¬field.OutOfRange mem

end DataInfo

/-- The row of a record is written, and every field is read from it under the header of the file. -/
def CsvRestores (sets : UInt8 → Option DataSet) (set : DataSet) (hdr : DataHdr)
    (mem tmpBuffer : Nat → UInt8) (orderId : Nat) (rest : List Char) (start : DataHdr)
    (old : Buffer) (bufSize : Nat) : Prop :=
  ∃ csv, dataToStringCSV sets hdr mem tmpBuffer = some csv ∧
    ∃ columns, readHeaderFromFile set (writeHeaderToFile set ++ rest) = some columns ∧
      ∃ hdr' buf, stringCSVToData sets (decimal orderId ++ csv) start old bufSize columns =
          some (hdr', buf) ∧
        ∀ info ∈ set.nameToInfo, info.bytesIn buf.bytes = info.bytesIn mem

/-! ### One column -/

/-- The buffer once a field is read from its column. -/
def DataInfo.readBack (mem : Nat → UInt8) (buf : Buffer) (info : DataInfo) : Buffer :=
  if info.Readable then
    if info.type = .string then
      let text := (window mem info.offset (min maxStringLength info.size - 1)).takeWhile (· ≠ 0)
      { buf with bytes := store buf.bytes info.offset (text.rightpad info.size 0) }
    else
      { buf with
        erange := buf.erange || info.type.overflows info.displayHex (info.bytesIn mem) }.assign
          info.offset (info.bytesIn mem)
  else buf

section Column

variable {set : DataSet} {info : DataInfo} {hdr : DataHdr} {mem : Nat → UInt8}

private theorem stringChars_eq (bytes : List UInt8) :
    stringChars false bytes = (bytes.takeWhile (· ≠ 0)).map Char.ofUInt8 := by
  induction bytes with
  | nil => rfl
  | cons byte rest ih =>
    unfold stringChars
    by_cases zero : byte = 0
    · rw [if_pos zero, List.takeWhile_cons_of_neg (by simpa using zero)]
      rfl
    · rw [if_neg zero, List.takeWhile_cons_of_pos (by simpa using zero), List.map_cons, ← ih]
      rfl

private theorem columnHeader_eq {name : List Char} (kept : name.rdropWhile isLineBreak = name)
    (some : name ≠ []) :
    columnHeader set name = if name = ['_', 'I', 'D', '_'] then none else set.find name := by
  unfold columnHeader
  rw [kept]
  simp only [if_neg some]

private theorem columnHeader_own (known : info ∈ set.nameToInfo) :
    columnHeader set info.name =
      if info.name = ['_', 'I', 'D', '_'] then none else some info := by
  obtain ⟨some, plain⟩ := (set.mapped info known).name
  have kept : info.name.rdropWhile isLineBreak = info.name := by
    rw [List.rdropWhile_eq_self_iff]
    intro nonempty breaks
    have others := plain _ (List.getLast_mem nonempty)
    simp only [List.mem_cons, List.not_mem_nil, or_false, not_or] at others
    rcases of_decide_eq_true breaks with ret | newline
    · exact others.2.2.2.2.2.1 ret
    · exact others.2.2.2.2.1 newline
  rw [columnHeader_eq kept some, DataSet.find_own known]

private theorem fieldData_own (known : info ∈ set.nameToInfo) (single : info.arraySize = 0)
    (start : hdr.offset = 0) (whole : hdr.size.toNat = set.size) :
    fieldData set.size info 0 hdr = some info.offset := by
  have inside := set.inside info known
  have some := (set.mapped info known).some
  have near : 0 * info.elementSize ≤ info.size := by rw [Nat.zero_mul]; exact Nat.zero_le _
  rw [fieldData_whole known (.inl single) near start whole, Nat.zero_mul, Nat.add_zero,
    if_pos (by omega)]

private theorem toUInt8_ofUInt8 (byte : UInt8) : (Char.ofUInt8 byte).toUInt8 = byte :=
  UInt8.toUInt8_toUInt32 byte

/-- The text of a string is stored with zeros behind it. -/
private theorem stringToVariable_string (hex : Bool) (ptr size radix : Nat)
    (plain : ∀ c ∈ variableToString .string hex mem ptr size false, c ≠ '"') (buf : Buffer) :
    stringToVariable (variableToString .string hex mem ptr size false) buf ptr .string size radix
        false =
      { buf with
        bytes := store buf.bytes ptr
          (((window mem ptr (min maxStringLength size - 1)).takeWhile (· ≠ 0)).rightpad size 0) } := by
  obtain ⟨bytes, held⟩ : ∃ bytes,
      bytes = (window mem ptr (min maxStringLength size - 1)).takeWhile (· ≠ 0) := ⟨_, rfl⟩
  have text : variableToString .string hex mem ptr size false = bytes.map Char.ofUInt8 := by
    rw [held]
    exact stringChars_eq _
  have nonzero : ∀ byte ∈ bytes, byte ≠ 0 := by
    rw [held]
    intro byte member
    simpa using List.mem_takeWhile_imp member
  have whole : (bytes.map Char.ofUInt8).takeWhile (· ≠ '\x00') = bytes.map Char.ofUInt8 := by
    rw [List.takeWhile_eq_self_iff]
    intro c member
    obtain ⟨byte, inside, rfl⟩ := List.mem_map.mp member
    refine decide_eq_true fun nul => nonzero byte inside ?_
    rw [← toUInt8_ofUInt8 byte, nul]
    rfl
  have unquoted : (bytes.map Char.ofUInt8).filter (· ≠ '"') = bytes.map Char.ofUInt8 := by
    rw [List.filter_eq_self]
    intro c member
    exact decide_eq_true (plain c (text ▸ member))
  have back : (bytes.map Char.ofUInt8).map Char.toUInt8 = bytes := by
    rw [List.map_map]
    exact (List.map_congr_left fun byte _ => toUInt8_ofUInt8 byte).trans (List.map_id _)
  have short : bytes.length ≤ size - 1 := by
    rw [held]
    refine Nat.le_trans (List.takeWhile_prefix _).length_le ?_
    rw [window_length]
    omega
  unfold stringToVariable
  rw [text, ← held]
  simp only [whole, Bool.false_eq_true, if_false, unquoted, back, List.take_of_length_le short]

/-- A field is read back from the text in its column. -/
private theorem readColumn_own (known : info ∈ set.nameToInfo) (single : info.arraySize = 0)
    (start : hdr.offset = 0) (whole : hdr.size.toNat = set.size) {hdr' : DataHdr}
    (start' : hdr'.offset = 0) (whole' : hdr'.size.toNat = set.size)
    (plain : info.type = .string → ∀ c ∈ dataToString set.size info hdr mem 0 false, c ≠ '"')
    (buf : Buffer) :
    readColumn set hdr' buf (columnHeader set info.name)
        (dataToString set.size info hdr mem 0 false) = some (info.readBack mem buf) := by
  have mapped := set.mapped info known
  have shown : dataToString set.size info hdr mem 0 false =
      variableToString info.type info.displayHex mem info.offset info.size false := by
    unfold dataToString
    rw [fieldData_own known single start whole]
  rw [columnHeader_own known]
  unfold DataInfo.readBack readColumn
  by_cases identifier : info.name = ['_', 'I', 'D', '_']
  · rw [if_pos identifier, if_neg fun readable => readable.2.1 identifier]
  rw [if_neg identifier]
  dsimp only
  by_cases near : info.offset < maxDatasetSize
  · rw [if_pos near, if_pos ⟨single, identifier, near⟩]
    unfold stringToData
    rw [fieldData_own known single start' whole', shown]
    show some (stringToVariable _ buf info.offset info.type info.size
      (if info.displayHex then 16 else 10) false) = _
    by_cases string : info.type = .string
    · rw [if_pos string, string]
      rw [shown, string] at plain
      rw [stringToVariable_string _ _ _ _ (plain rfl)]
    · rw [if_neg string, variableToString_integer string,
        stringToVariable_toText (window_length ..) string]
      have size : info.type.size = info.size :=
        (mapped.integer string).symm.trans (mapped.scalar single)
      rw [size]
      rfl
  · rw [if_neg near, if_neg fun readable => near readable.2.2]

end Column

/-! ### All columns -/

section Row

variable {set : DataSet} {hdr hdr' : DataHdr} {mem : Nat → UInt8}

private theorem columns_length (info : DataInfo) (dataSize : Nat) :
    (info.columnNames.map (columnHeader set)).length =
      (info.columnTexts dataSize hdr mem).length := by
  unfold DataInfo.columnNames DataInfo.columnTexts
  split
  · rfl
  · simp

private theorem foldlM_skipped (columns : List (Option DataInfo × List Char))
    (skipped : ∀ column ∈ columns, column.1 = none) (buf : Buffer) :
    columns.foldlM (fun buf column => readColumn set hdr buf column.1 column.2) buf = some buf := by
  induction columns with
  | nil => rfl
  | cons column columns ih =>
    obtain ⟨first, skipped⟩ := List.forall_mem_cons.mp skipped
    rw [List.foldlM_cons, first]
    exact ih skipped

/-- No element of an array is named like a field. -/
def DataSet.Distinct (set : DataSet) : Prop :=
  ∀ info ∈ set.nameToInfo, ∀ i < info.arraySize, set.find (info.elementName i) = none

/-- The columns of a field are read one after the other. -/
private theorem foldlM_field (distinct : set.Distinct) {info : DataInfo}
    (known : info ∈ set.nameToInfo) (start : hdr.offset = 0) (whole : hdr.size.toNat = set.size)
    (start' : hdr'.offset = 0) (whole' : hdr'.size.toNat = set.size)
    (plain : info.type = .string → ∀ text ∈ info.columnTexts set.size hdr mem, ∀ c ∈ text, c ≠ '"')
    (buf : Buffer) :
    ((info.columnNames.map (columnHeader set)).zip
        (info.columnTexts set.size hdr mem)).foldlM
        (fun buf column => readColumn set hdr' buf column.1 column.2) buf =
      some (info.readBack mem buf) := by
  unfold DataInfo.columnTexts at plain ⊢
  unfold DataInfo.columnNames
  by_cases single : info.arraySize = 0
  · rw [if_pos single] at plain ⊢
    rw [if_pos single, List.map_singleton, List.zip_cons_cons, List.zip_nil_left, List.foldlM_cons]
    rw [readColumn_own known single start whole start' whole'
      (fun string => plain string _ (.head _)) buf]
    rfl
  · have unread : info.readBack mem buf = buf := by
      unfold DataInfo.readBack
      exact if_neg fun readable => single readable.1
    rw [if_neg single, if_neg single, unread]
    refine foldlM_skipped _ (fun column member => ?_) buf
    obtain ⟨name, inside, header⟩ := List.mem_map.mp (List.of_mem_zip member).1
    obtain ⟨i, small, rfl⟩ := List.mem_map.mp inside
    have kept : (info.elementName i).rdropWhile isLineBreak = info.elementName i :=
      List.rdropWhile_concat_neg _ _ _ (by decide)
    have some : info.elementName i ≠ [] := List.append_ne_nil_of_right_ne_nil _ (List.cons_ne_nil _ _)
    rw [← header, columnHeader_eq kept some, distinct info known i (List.mem_range.mp small), ite_self]

private theorem foldlM_fields (distinct : set.Distinct) (start : hdr.offset = 0)
    (whole : hdr.size.toNat = set.size) (start' : hdr'.offset = 0)
    (whole' : hdr'.size.toNat = set.size) {fields : List DataInfo}
    (known : ∀ info ∈ fields, info ∈ set.nameToInfo)
    (plain : ∀ info ∈ fields, info.type = .string →
      ∀ text ∈ info.columnTexts set.size hdr mem, ∀ c ∈ text, c ≠ '"') (buf : Buffer) :
    (((fields.flatMap DataInfo.columnNames).map (columnHeader set)).zip
        (fields.flatMap fun info => info.columnTexts set.size hdr mem)).foldlM
        (fun buf column => readColumn set hdr' buf column.1 column.2) buf =
      some (fields.foldl (fun buf info => info.readBack mem buf) buf) := by
  induction fields generalizing buf with
  | nil => rfl
  | cons info fields ih =>
    obtain ⟨here, known⟩ := List.forall_mem_cons.mp known
    obtain ⟨first, plain⟩ := List.forall_mem_cons.mp plain
    rw [List.flatMap_cons, List.flatMap_cons, List.map_append,
      List.zip_append (columns_length info set.size), List.foldlM_append,
      foldlM_field distinct here start whole start' whole' first buf]
    exact ih known plain _

end Row

/-! ### What a field holds then -/

section Fields

variable {mem : Nat → UInt8} {info : DataInfo}

/-- A string comes back where it ends in time and only zeros follow it. -/
private theorem rightpad_eq_iff (some : 0 < info.size) :
    ((window mem info.offset (min maxStringLength info.size - 1)).takeWhile (· ≠ 0)).rightpad
      info.size 0 = info.bytesIn mem ↔ info.TerminatedIn mem := by
  obtain ⟨room, same⟩ : ∃ room, room = min maxStringLength info.size := ⟨_, rfl⟩
  have inside : 0 < room ∧ room ≤ info.size := by
    unfold maxStringLength at same
    omega
  unfold DataInfo.bytesIn DataInfo.TerminatedIn
  rw [← same]
  have padded {n : Nat} (fits : n ≤ info.size) :
      (window mem info.offset n).rightpad info.size 0 = window mem info.offset info.size ↔
        ∀ k < info.size, n ≤ k → mem (info.offset + k) = 0 := by
    obtain ⟨left, whole⟩ := Nat.exists_eq_add_of_le fits
    rw [List.rightpad, window_length, whole, window_add, List.append_cancel_left_eq,
      Nat.add_sub_cancel_left, eq_comm, window_eq_replicate_iff]
    refine ⟨fun zeros k small late => ?_, fun zeros k small => ?_⟩
    · obtain ⟨j, rfl⟩ := Nat.exists_eq_add_of_le late
      rw [← Nat.add_assoc]
      exact zeros j (by omega)
    · rw [Nat.add_assoc]
      exact zeros (n + k) (by omega) (Nat.le_add_right ..)
  constructor
  · intro back
    obtain ⟨text, held⟩ :
        ∃ text, text = (window mem info.offset (room - 1)).takeWhile (· ≠ 0) := ⟨_, rfl⟩
    have begins : text <+: window mem info.offset (room - 1) := held ▸ List.takeWhile_prefix _
    have short := begins.length_le
    rw [window_length] at short
    have own : text = window mem info.offset text.length := by
      rw [← take_window mem short]
      exact List.prefix_iff_eq_take.mp begins
    rw [← held, own] at back
    refine ⟨text.length, by omega, fun k small => ?_, (padded (by omega)).mp back⟩
    have member : mem (info.offset + k) ∈ text := by
      rw [own]
      exact List.mem_map_of_mem (List.mem_range.mpr small)
    rw [held] at member
    simpa using List.mem_takeWhile_imp member
  · rintro ⟨n, small, nonzero, zeros⟩
    obtain ⟨left, whole⟩ := Nat.exists_eq_add_of_le (Nat.le_sub_one_of_lt small)
    have text : (window mem info.offset (room - 1)).takeWhile (· ≠ 0) = window mem info.offset n := by
      have stop : (window mem (info.offset + n) left).takeWhile (· ≠ 0) = [] := by
        cases left with
        | zero => rfl
        | succ left =>
          rw [List.takeWhile_eq_nil_iff]
          intro _
          have first := zeros n (by omega) (Nat.le_refl n)
          simp [window, first]
      rw [whole, window_add, List.takeWhile_append_of_pos, stop, List.append_nil]
      intro byte member
      obtain ⟨k, early, rfl⟩ := List.mem_map.mp member
      exact decide_eq_true (nonzero k (List.mem_range.mp early))
    rw [text, padded (by omega)]
    exact zeros

private theorem rightpad_length :
    (((window mem info.offset (min maxStringLength info.size - 1)).takeWhile (· ≠ 0)).rightpad
      info.size 0).length = info.size := by
  have short := (List.takeWhile_prefix (· ≠ 0)
    (l := window mem info.offset (min maxStringLength info.size - 1))).length_le
  rw [window_length] at short
  rw [List.length_rightpad]
  omega

private theorem bytesIn_length : (info.bytesIn mem).length = info.size := window_length ..

private theorem readBack_other {other : DataInfo}
    (disjoint : other.offset + other.size ≤ info.offset ∨ info.offset + info.size ≤ other.offset)
    (buf : Buffer) : other.bytesIn (info.readBack mem buf).bytes = other.bytesIn buf.bytes := by
  unfold DataInfo.readBack
  split
  · split
    · refine window_store_disjoint _ ?_
      rwa [rightpad_length]
    · unfold Buffer.assign
      split
      · rfl
      · refine window_store_disjoint _ ?_
        rwa [bytesIn_length]
  · rfl

private theorem readBack_erange (buf : Buffer) :
    (info.readBack mem buf).erange = true ↔ buf.erange = true ∨ info.OutOfRange mem := by
  unfold DataInfo.readBack DataInfo.OutOfRange
  by_cases readable : info.Readable
  · rw [if_pos readable]
    by_cases string : info.type = .string
    · have fits : info.type.overflows info.displayHex (info.bytesIn mem) = false := by
        simp [DataType.overflows, string]
      rw [if_pos string, fits]
      simp
    · rw [if_neg string]
      unfold Buffer.assign
      simp only [readable, true_and]
      split <;> simp
  · rw [if_neg readable]
    simp [readable]

private theorem foldl_readBack_other {other : DataInfo} {fields : List DataInfo}
    (disjoint : ∀ info ∈ fields,
      other.offset + other.size ≤ info.offset ∨ info.offset + info.size ≤ other.offset)
    (buf : Buffer) :
    other.bytesIn (fields.foldl (fun buf info => info.readBack mem buf) buf).bytes =
      other.bytesIn buf.bytes := by
  induction fields generalizing buf with
  | nil => rfl
  | cons info fields ih =>
    obtain ⟨first, disjoint⟩ := List.forall_mem_cons.mp disjoint
    rw [List.foldl_cons, ih disjoint, readBack_other first]

private theorem foldl_readBack_erange (fields : List DataInfo) (buf : Buffer) :
    (fields.foldl (fun buf info => info.readBack mem buf) buf).erange = true ↔
      buf.erange = true ∨ ∃ info ∈ fields, info.OutOfRange mem := by
  induction fields generalizing buf with
  | nil => simp
  | cons info fields ih =>
    rw [List.foldl_cons, ih, readBack_erange]
    simp [or_assoc]

/-- What a field that was zero holds once it is read. -/
private theorem readBack_own (some : 0 < info.size) {buf : Buffer}
    (blank : info.bytesIn buf.bytes = List.replicate info.size 0) :
    info.bytesIn (info.readBack mem buf).bytes = info.bytesIn mem ↔
      info.ZeroIn mem ∨ info.Readable ∧
        if info.type = .string then info.TerminatedIn mem
        else buf.erange = false ∧ ¬info.OutOfRange mem := by
  have unread : info.bytesIn buf.bytes = info.bytesIn mem ↔ info.ZeroIn mem := by
    rw [blank, eq_comm]
    exact window_eq_replicate_iff
  by_cases readable : info.Readable
  case neg =>
    have same : info.readBack mem buf = buf := if_neg readable
    rw [same, unread]
    simp [readable]
  by_cases string : info.type = .string
  · have stored : info.bytesIn (info.readBack mem buf).bytes =
        ((window mem info.offset (min maxStringLength info.size - 1)).takeWhile (· ≠ 0)).rightpad
          info.size 0 := by
      unfold DataInfo.readBack
      rw [if_pos readable, if_pos string]
      have filled := window_store buf.bytes info.offset (((window mem info.offset
        (min maxStringLength info.size - 1)).takeWhile (· ≠ 0)).rightpad info.size 0)
      rwa [rightpad_length] at filled
    rw [stored, rightpad_eq_iff some, if_pos string]
    refine ⟨fun ended => .inr ⟨readable, ended⟩, ?_⟩
    rintro (zero | ⟨-, ended⟩)
    · refine ⟨0, ?_, fun k small => absurd small (Nat.not_lt_zero k), fun k small _ => zero k small⟩
      unfold maxStringLength
      omega
    · exact ended
  · have read : info.readBack mem buf = { buf with
        erange := buf.erange || info.type.overflows info.displayHex (info.bytesIn mem) }.assign
          info.offset (info.bytesIn mem) := by
      unfold DataInfo.readBack
      rw [if_pos readable, if_neg string]
    have range : info.OutOfRange mem ↔
        info.type.overflows info.displayHex (info.bytesIn mem) = true := by
      unfold DataInfo.OutOfRange
      simp [readable]
    rw [read, if_neg string, range]
    unfold Buffer.assign
    by_cases kept : (buf.erange || info.type.overflows info.displayHex (info.bytesIn mem)) = true
    · rw [if_pos kept, unread]
      refine ⟨.inl, ?_⟩
      rintro (zero | ⟨-, clear, fits⟩)
      · exact zero
      · rw [clear, Bool.false_or] at kept
        exact absurd kept fits
    · have filled := window_store buf.bytes info.offset (info.bytesIn mem)
      rw [bytesIn_length] at filled
      rw [if_neg kept]
      simp only [Bool.or_eq_true, not_or, Bool.not_eq_true] at kept
      refine ⟨fun _ => .inr ⟨readable, kept.1, by simp [kept.2]⟩, fun _ => filled⟩

end Fields

/-! ### The row -/

/-- No string of a record has a character that separates columns or rows. -/
def DataSet.PlainIn (set : DataSet) (hdr : DataHdr) (mem : Nat → UInt8) : Prop :=
  ∀ info ∈ set.nameToInfo, info.type = .string →
    ∀ text ∈ info.columnTexts set.size { hdr with offset := 0, size := UInt16.ofNat set.size } mem,
      ∀ c ∈ text, c ∉ [',', '"', '\n', '\r']

def DataSet.recordTexts (set : DataSet) (hdr : DataHdr) (mem : Nat → UInt8) : List (List Char) :=
  set.nameToInfo.flatMap fun info =>
    info.columnTexts set.size { hdr with offset := 0, size := UInt16.ofNat set.size } mem

section Whole

variable {sets : UInt8 → Option DataSet} {set : DataSet} {hdr : DataHdr} {mem : Nat → UInt8}

private theorem separators {c : Char} (plain : c ∉ ['"', ',', '}', '\\', '\n', '\r', '\x00']) :
    c ∉ [',', '"', '\n', '\r'] := by
  simp only [List.mem_cons, List.not_mem_nil, or_false, not_or] at plain ⊢
  exact ⟨plain.2.1, plain.1, plain.2.2.2.2.1, plain.2.2.2.2.2.1⟩

private theorem row_separators {c : Char} (separates : c ∈ [',', '"']) : c ∈ [',', '"', '\n', '\r'] :=
  List.mem_append_left ['\n', '\r'] separates

private theorem integer_plain {info : DataInfo} (integer : info.type ≠ .string) (hdr : DataHdr)
    {text : List Char} (member : text ∈ info.columnTexts set.size hdr mem) :
    ∀ c ∈ text, c ∉ [',', '"', '\n', '\r'] := by
  have shown (i : Nat) : ∀ c ∈ dataToString set.size info hdr mem i false,
      c ∉ [',', '"', '\n', '\r'] := by
    intro c inside
    unfold dataToString at inside
    split at inside
    · rw [if_neg integer, List.mem_singleton] at inside
      rw [inside]
      decide
    · rw [variableToString_integer integer] at inside
      exact separators (DataType.toText_plain info.displayHex inside)
  unfold DataInfo.columnTexts at member
  split at member
  · rw [List.mem_singleton.mp member]
    exact shown 0
  · obtain ⟨i, -, rfl⟩ := List.mem_map.mp member
    exact shown i

private theorem texts_plain (strings : set.PlainIn hdr mem) :
    ∀ text ∈ set.recordTexts hdr mem, ∀ c ∈ text, c ∉ [',', '"', '\n', '\r'] := by
  intro text member
  obtain ⟨info, known, inside⟩ := List.mem_flatMap.mp member
  by_cases string : info.type = .string
  · exact strings info known string text inside
  · exact integer_plain string _ inside

private theorem row_separated (first : List Char) (texts : List (List Char)) :
    first ++ texts.flatMap (',' :: ·) ++ [','] = (first :: texts).flatMap (· ++ [',']) := by
  induction texts generalizing first with
  | nil => simp
  | cons text texts ih =>
    rw [List.flatMap_cons, List.flatMap_cons, ← ih text]
    simp

private theorem row_trimmed {row : List Char} (plain : ∀ c ∈ row, c ∉ ['\n', '\r']) :
    (row ++ ['\n']).rdropWhile isLineBreak = row := by
  rw [List.rdropWhile_concat_pos _ _ _ rfl, List.rdropWhile_eq_self_iff]
  intro nonempty breaks
  have others := plain _ (List.getLast_mem nonempty)
  simp only [List.mem_cons, List.not_mem_nil, or_false, not_or] at others
  exact (of_decide_eq_true breaks).elim others.2 others.1

/-- What is read from the row of a record. -/
private theorem stringCSVToData_row {start : DataHdr} (known : sets start.id = some set)
    (distinct : set.Distinct) (strings : set.PlainIn hdr mem) (begin' : start.offset = 0)
    (some' : start.size ≠ 0) {bufSize : Nat} (room : start.size.toNat ≤ bufSize) (orderId : Nat)
    (old : Buffer) :
    stringCSVToData sets
        (decimal orderId ++ ((set.recordTexts hdr mem).flatMap (',' :: ·) ++ ['\n'])) start old bufSize
        (none :: (set.nameToInfo.flatMap DataInfo.columnNames).map (columnHeader set)) =
      some ({ start with offset := 0, size := UInt16.ofNat set.size },
        set.nameToInfo.foldl (fun buf info => info.readBack mem buf)
          { old with bytes := store old.bytes 0 (List.replicate set.size 0) }) := by
  have size : (UInt16.ofNat set.size).toNat = set.size := by
    rw [UInt16.toNat_ofNat', Nat.mod_eq_of_lt set.small]
  have plain := texts_plain strings
  have quotes : ∀ info ∈ set.nameToInfo, info.type = .string → ∀ text ∈ info.columnTexts set.size
      { hdr with offset := 0, size := UInt16.ofNat set.size } mem, ∀ c ∈ text, c ≠ '"' := by
    intro info here string text member c inside quote
    exact strings info here string text member c inside (quote ▸ .tail _ (.head _))
  have lengths : ((set.nameToInfo.flatMap DataInfo.columnNames).map (columnHeader set)).length =
      (set.recordTexts hdr mem).length := by
    rw [DataSet.recordTexts, List.map_flatMap, List.length_flatMap, List.length_flatMap]
    exact congrArg List.sum (List.map_congr_left fun info _ => columns_length info set.size)
  have read := @foldlM_fields set _ { start with offset := 0, size := UInt16.ofNat set.size } mem
    distinct rfl size rfl size _ (fun info here => here) quotes
  change ∀ buf, List.foldlM _ buf (List.zip _ (set.recordTexts hdr mem)) = _ at read
  generalize set.recordTexts hdr mem = texts at plain lengths read ⊢
  have all : ∀ text ∈ decimal orderId :: texts, ∀ c ∈ text, c ∉ [',', '"', '\n', '\r'] :=
    List.forall_mem_cons.mpr ⟨fun c member => separators (decimal_plain member), plain⟩
  have trimmed : (decimal orderId ++ (texts.flatMap (',' :: ·) ++ ['\n'])).rdropWhile isLineBreak =
      decimal orderId ++ texts.flatMap (',' :: ·) := by
    rw [← List.append_assoc]
    refine row_trimmed fun c member => ?_
    have others : c = ',' ∨ c ∉ [',', '"', '\n', '\r'] := by
      rcases List.mem_append.mp member with first | rest
      · exact .inr (all _ (.head _) c first)
      · obtain ⟨text, inside, here⟩ := List.mem_flatMap.mp rest
        exact (List.mem_cons.mp here).imp id (plain text inside c)
    rcases others with rfl | others
    · decide
    · simp only [List.mem_cons, List.not_mem_nil, or_false, not_or] at others ⊢
      exact others.2.2
  have scanned (buf : Buffer) :
      scanCsv set { start with offset := 0, size := UInt16.ofNat set.size }
          ((decimal orderId :: texts).flatMap (· ++ [','])) 0
          ((decimal orderId :: texts).flatMap (· ++ [',']))
          (none :: (set.nameToInfo.flatMap DataInfo.columnNames).map (columnHeader set))
          { start := 0, inQuotes := false, foundQuotes := 0 } buf =
        some (set.nameToInfo.foldl (fun buf info => info.readBack mem buf) buf) := by
    have row := @scanCsv_row set { start with offset := 0, size := UInt16.ofNat set.size } _
      (none :: (set.nameToInfo.flatMap DataInfo.columnNames).map (columnHeader set))
      (decimal orderId :: texts)
      (fun text member c inside separates => all text member c inside (row_separators separates))
      (congrArg (· + 1) lengths) [] rfl buf
    exact row.trans (read buf)
  unfold stringCSVToData
  rw [known, trimmed, row_separated]
  have accepted : ¬(start.offset ≠ 0 ∨ start.size = 0 ∨ bufSize < start.size.toNat) := by
    rintro (other | none | small)
    · exact other begin'
    · exact some' none
    · exact absurd room (Nat.not_le.mpr small)
  simp only [Option.bind_eq_bind, Option.bind_some, if_neg accepted, scanned, size]
  rfl

private theorem dataToStringCSV_row (known : sets hdr.id = some set)
    (whole : hdr.size.toNat = set.size) (tmpBuffer : Nat → UInt8) :
    dataToStringCSV sets hdr mem tmpBuffer =
      some ((set.recordTexts hdr mem).flatMap (',' :: ·) ++ ['\n']) := by
  have record : wholeRecord set.size hdr mem tmpBuffer = mem := by
    unfold wholeRecord
    rw [if_neg (by omega)]
  unfold dataToStringCSV DataSet.recordTexts
  rw [known]
  simp only [Option.bind_eq_bind, Option.bind_some, record]
  rfl

end Whole

/-- A record comes back from its row exactly where every array is zero, every string ends within its
field with zeros behind it, and no integer is out of range, nor one that is read before. -/
theorem csv_restores_iff {sets : UInt8 → Option DataSet} {set : DataSet} {hdr start : DataHdr}
    {mem : Nat → UInt8} (known : sets hdr.id = some set) (same : start.id = hdr.id)
    (distinct : set.Distinct) (whole : hdr.size.toNat = set.size)
    (strings : set.PlainIn hdr mem) (short : (writeHeaderToFile set).length < 8191)
    (begin' : start.offset = 0) (some' : start.size ≠ 0) {bufSize : Nat}
    (room : start.size.toNat ≤ bufSize) (tmpBuffer : Nat → UInt8) (orderId : Nat)
    (rest : List Char) (old : Buffer) :
    CsvRestores sets set hdr mem tmpBuffer orderId rest start old bufSize ↔
      ∀ before info after, set.nameToInfo = before ++ info :: after →
        info.ComesBack mem before old.erange := by
  obtain ⟨blank, cleared⟩ :
      ∃ blank : Buffer, blank = { old with bytes := store old.bytes 0 (List.replicate set.size 0) } :=
    ⟨_, rfl⟩
  have written := @dataToStringCSV_row sets set hdr mem known whole tmpBuffer
  have read := stringCSVToData_row (same ▸ known) distinct strings begin' some' room orderId old
  have header := readHeaderFromFile_written short rest
  rw [← cleared] at read
  have zero : ∀ info ∈ set.nameToInfo, info.bytesIn blank.bytes = List.replicate info.size 0 := by
    intro info here
    have inside := set.inside info here
    refine window_eq_replicate_iff.mpr fun k small => ?_
    have cell : info.offset + k < (List.replicate set.size (0 : UInt8)).length := by
      rw [List.length_replicate]
      omega
    rw [cleared, ← Nat.zero_add (info.offset + k)]
    show store old.bytes 0 (List.replicate set.size 0) (0 + (info.offset + k)) = 0
    rw [store_inside _ cell, List.getElem_replicate]
  have fields (before : List DataInfo) (info : DataInfo) (after : List DataInfo)
      (split : set.nameToInfo = before ++ info :: after) :
      info.bytesIn (set.nameToInfo.foldl (fun buf info => info.readBack mem buf) blank).bytes =
        info.bytesIn mem ↔ info.ComesBack mem before old.erange := by
    have here : info ∈ set.nameToInfo := split ▸ List.mem_append_right _ (.head _)
    have disjoint := set.disjoint
    rw [split, List.pairwise_append, List.pairwise_cons] at disjoint
    obtain ⟨-, ⟨later, -⟩, earlier⟩ := disjoint
    have untouched := @foldl_readBack_other mem info before
      (fun other member => (earlier other member info (.head _)).symm) blank
    have clear : (before.foldl (fun buf info => info.readBack mem buf) blank).erange = false ∧
        ¬info.OutOfRange mem ↔
          old.erange = false ∧ ∀ field ∈ before ++ [info], ¬field.OutOfRange mem := by
      rw [← Bool.not_eq_true, foldl_readBack_erange, cleared, List.forall_mem_append,
        List.forall_mem_singleton]
      simp [and_assoc]
    rw [split, List.foldl_append, List.foldl_cons, foldl_readBack_other later,
      readBack_own (set.mapped info here).some (untouched.trans (zero info here)), clear]
    rfl
  constructor
  · rintro ⟨csv, shown, columns, names, hdr', buf, result, back⟩ before info after split
    obtain rfl := Option.some.inj (written.symm.trans shown)
    obtain rfl := Option.some.inj (header.symm.trans names)
    obtain ⟨-, rfl⟩ := Prod.mk.inj (Option.some.inj (read.symm.trans result))
    exact (fields before info after split).mp
      (back info (split ▸ List.mem_append_right _ (.head _)))
  · intro all
    refine ⟨_, written, _, header, _, _, read, fun info here => ?_⟩
    obtain ⟨before, after, split⟩ := List.append_of_mem here
    exact (fields before info after split).mpr (all before info after split)

/-- An array of two bytes. -/
def bytePair (name : Char) (offset : Nat) : DataInfo where
  offset := offset
  size := 2
  type := .uint8
  arraySize := 2
  elementSize := 1
  flags := 0
  name := [name]

theorem bytePair_mapped {name : Char} (plain : name ∉ ['"', ':', '\\', ',', '\n', '\r', '\x00'])
    (offset : Nat) : (bytePair name offset).Mapped where
  scalar single := absurd single (Nat.succ_ne_zero 1)
  elements := Nat.le_refl 2
  integer _ := rfl
  some := Nat.two_pos
  name := ⟨List.cons_ne_nil _ _, fun c member => by rwa [List.mem_singleton.mp member]⟩

/-- A byte, and an array of two bytes behind it. -/
def byteAndPair : DataSet where
  size := 3
  nameToInfo := [byteMember 'a' 0, bytePair 'b' 1]
  sorted := by decide
  mapped := List.forall_mem_cons.mpr ⟨byteMember_mapped (by decide) 0,
    List.forall_mem_singleton.mpr (bytePair_mapped (by decide) 1)⟩
  inside := List.forall_mem_cons.mpr ⟨show 0 + 1 ≤ 3 by omega,
    List.forall_mem_singleton.mpr (Nat.le_refl 3)⟩
  disjoint := by decide
  small := by decide

private theorem byteAndPair_distinct : byteAndPair.Distinct := by
  refine List.forall_mem_cons.mpr ⟨fun i small => absurd small (Nat.not_lt_zero i),
    List.forall_mem_singleton.mpr fun i small => ?_⟩
  obtain rfl | rfl : i = 0 ∨ i = 1 := by
    change i < 2 at small
    omega
  · decide
  · decide

private theorem byteAndPair_plain (hdr : DataHdr) (mem : Nat → UInt8) :
    byteAndPair.PlainIn hdr mem := by
  refine List.forall_mem_cons.mpr ⟨fun string => ?_, List.forall_mem_singleton.mpr fun string => ?_⟩
  · cases string
  · cases string

/-- A byte comes back, and an array of zeros behind it. -/
theorem csv_restores_iff_pair :
    CsvRestores (fun _ => some byteAndPair) byteAndPair { id := 7, size := 3, offset := 0 }
      (fun place => if place = 0 then 5 else 0) (fun _ => 0) 1 [] { id := 7, size := 3, offset := 0 }
      { bytes := fun _ => 1, erange := false } 3 := by
  refine (csv_restores_iff rfl rfl byteAndPair_distinct rfl (byteAndPair_plain _ _) (by decide) rfl
    (by decide) (by decide) _ 1 [] _).mpr ?_
  rintro (_ | ⟨_, _ | ⟨_, before⟩⟩) info after split
  · obtain ⟨rfl, -⟩ := List.cons.inj split
    refine .inr ⟨by decide, rfl, List.forall_mem_singleton.mpr fun range => ?_⟩
    exact absurd range.2 (by decide)
  · obtain ⟨rfl, -⟩ := List.cons.inj (List.cons.inj split).2
    refine .inl fun k _ => if_neg ?_
    show ¬1 + k = 0
    omega
  · have length := congrArg List.length split
    simp [byteAndPair] at length

/-- The elements of an array do not come back. -/
theorem csv_array_lost :
    ¬∀ (sets : UInt8 → Option DataSet) (set : DataSet) (hdr start : DataHdr)
      (mem tmpBuffer : Nat → UInt8) (orderId : Nat) (rest : List Char) (old : Buffer) (bufSize : Nat),
      sets hdr.id = some set → start.id = hdr.id → set.Distinct → hdr.size.toNat = set.size →
      set.PlainIn hdr mem → (writeHeaderToFile set).length < 8191 → start.offset = 0 →
      start.size ≠ 0 → start.size.toNat ≤ bufSize →
      CsvRestores sets set hdr mem tmpBuffer orderId rest start old bufSize := by
  intro claim
  obtain ⟨csv, shown, columns, names, hdr', buf, result, back⟩ := claim (fun _ => some byteAndPair) byteAndPair
    { id := 7, size := 3, offset := 0 } { id := 7, size := 3, offset := 0 }
    (fun place => if place = 1 then 1 else 0) (fun _ => 0) 1 [] { bytes := fun _ => 0, erange := false }
    3 rfl rfl byteAndPair_distinct rfl (byteAndPair_plain _ _) (by decide) rfl (by decide) (by decide)
  have row : dataToStringCSV (fun _ => some byteAndPair) { id := 7, size := 3, offset := 0 }
      (fun place => if place = 1 then 1 else 0) (fun _ => 0) =
      some [',', '0', ',', '1', ',', '0', '\n'] := by decide
  obtain rfl := Option.some.inj (row.symm.trans shown)
  have header : readHeaderFromFile byteAndPair (writeHeaderToFile byteAndPair ++ []) =
      some [none, some (byteMember 'a' 0), none, none] := by rfl
  obtain rfl := Option.some.inj (header.symm.trans names)
  have read : (stringCSVToData (fun _ => some byteAndPair)
      (decimal 1 ++ [',', '0', ',', '1', ',', '0', '\n']) { id := 7, size := 3, offset := 0 }
      { bytes := fun _ => 0, erange := false } 3 [none, some (byteMember 'a' 0), none, none]).map
        (fun filled => (bytePair 'b' 1).bytesIn filled.2.bytes) = some [0, 0] := by decide
  rw [show ((1 : Nat) : Int) = 1 from rfl] at result
  rw [result] at read
  have zeros := (back (bytePair 'b' 1) (.tail _ (.head _))).symm.trans (Option.some.inj read)
  revert zeros
  decide

end InertialSense.DataLog
