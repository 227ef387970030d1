import InertialSense.DataLog.Values

/-! How `DataToStringCSV` and `DataToStringJSON` make a whole struct of the part that a packet
holds: what they write to `tmpBuffer`, and whether the text is that of the struct. -/

namespace InertialSense.DataLog

open Foundation

/-- What is written to `tmpBuffer`, as the places where copies start and their sizes. The size of
the last one is a difference of 32 bits. -/
def expansionWrites (size : Nat) (hdr : DataHdr) : List (Nat × Nat) :=
  if hdr.size.toNat < size then
    let dataEnd := hdr.offset.toNat + hdr.size.toNat
    [(0, hdr.offset.toNat), (hdr.offset.toNat, hdr.size.toNat),
      (dataEnd, (((size : Int) - dataEnd) % 2 ^ 32).toNat)]
  else []

/-- All copies are inside `tmpBuffer`. -/
def WritesInside (size : Nat) (hdr : DataHdr) : Prop :=
  ∀ write ∈ expansionWrites size hdr, write.1 + write.2 ≤ maxDatasetSize

/-- The whole struct in which the bytes of a packet are at their place and all others are zero, with
what is in memory behind it. -/
def fullStruct (size : Nat) (hdr : DataHdr) (buf behind : Nat → UInt8) : Nat → UInt8 := fun place =>
  if place < size then
    if hdr.offset.toNat ≤ place ∧ place < hdr.offset.toNat + hdr.size.toNat then
      buf (place - hdr.offset.toNat)
    else 0
  else behind place

section Writes

variable {size : Nat} {hdr : DataHdr}

/-- The copies are inside the buffer exactly for a part of a struct that fits into it. -/
theorem writesInside_iff (small : size < 2 ^ 16) (part : hdr.size.toNat < size) :
    WritesInside size hdr ↔
      hdr.offset.toNat + hdr.size.toNat ≤ size ∧ size ≤ maxDatasetSize := by
  unfold WritesInside expansionWrites maxDatasetSize
  rw [if_pos part]
  simp only [List.forall_mem_cons, List.not_mem_nil, false_imp_iff, implies_true, and_true]
  have start := hdr.offset.toNat_lt
  constructor
  · rintro ⟨-, -, rest⟩
    by_cases ends : hdr.offset.toNat + hdr.size.toNat ≤ size
    · rw [Int.emod_eq_of_lt (by omega) (by omega)] at rest
      omega
    · omega
  · rintro ⟨ends, fits⟩
    rw [Int.emod_eq_of_lt (by omega) (by omega)]
    omega

theorem wholeRecord_part (part : hdr.size.toNat < size)
    (ends : hdr.offset.toNat + hdr.size.toNat ≤ size) (buf tmpBuffer : Nat → UInt8) :
    wholeRecord size hdr buf tmpBuffer = fullStruct size hdr buf tmpBuffer := by
  have zeros (mem : Nat → UInt8) (start count place : Nat) :
      store mem start (List.replicate count 0) place =
        if start ≤ place ∧ place < start + count then 0 else mem place := by
    have blank : window (fun _ => (0 : UInt8)) start count = List.replicate count 0 :=
      window_eq_replicate_iff.mpr fun _ _ => rfl
    rw [← blank, store_window]
  have held (mem : Nat → UInt8) (place : Nat) :
      store mem hdr.offset.toNat (window buf 0 hdr.size.toNat) place =
        if hdr.offset.toNat ≤ place ∧ place < hdr.offset.toNat + hdr.size.toNat then
          buf (place - hdr.offset.toNat)
        else mem place := by
    have moved : window buf 0 hdr.size.toNat =
        window (fun place => buf (place - hdr.offset.toNat)) hdr.offset.toNat hdr.size.toNat := by
      refine window_congr fun k _ => ?_
      rw [Nat.zero_add, Nat.add_sub_cancel_left]
    rw [moved, store_window]
  unfold wholeRecord fullStruct
  rw [if_pos part]
  funext place
  rw [zeros, held, zeros]
  by_cases inside : place < size
  · by_cases before : place < hdr.offset.toNat
    · rw [if_neg (by omega), if_neg (by omega), if_pos (by omega), if_pos inside,
        if_neg (by omega)]
    · by_cases behind : hdr.offset.toNat + hdr.size.toNat ≤ place
      · rw [if_pos (by omega), if_pos inside, if_neg (by omega)]
      · rw [if_neg (by omega), if_pos (by omega), if_pos inside, if_pos (by omega)]
  · rw [if_neg (by omega), if_neg (by omega), if_neg (by omega), if_neg inside]

/-- A whole struct is not expanded. -/
theorem wholeRecord_whole (whole : size ≤ hdr.size.toNat) (buf tmpBuffer : Nat → UInt8) :
    wholeRecord size hdr buf tmpBuffer = buf := by
  unfold wholeRecord
  rw [if_neg (Nat.not_lt.mpr whole)]

theorem fullStruct_start (whole : size ≤ hdr.size.toNat) (start : hdr.offset = 0)
    (buf : Nat → UInt8) : fullStruct size hdr buf buf = buf := by
  funext place
  unfold fullStruct
  rw [start]
  split
  · rw [if_pos ⟨Nat.zero_le _, by simp; omega⟩]
    rfl
  · rfl

end Writes

namespace Values

variable {Number : Type}

/-- The header of a whole struct. -/
def DataSet.header (set : DataSet Number) (hdr : DataHdr) : DataHdr :=
  { hdr with offset := 0, size := UInt16.ofNat set.size }

/-- Packets with this header are expanded inside the buffer, and their texts are those of the whole
struct. -/
def ExpandedRight (printed : FloatText Number) (sets : UInt8 → Option (DataSet Number))
    (hdr : DataHdr) : Prop :=
  ∀ set, sets hdr.id = some set → WritesInside set.size hdr ∧
    ∀ buf tmpBuffer first,
      let behind := if hdr.size.toNat < set.size then tmpBuffer else buf
      let full := fullStruct set.size hdr buf behind
      dataToStringCSV printed sets hdr buf tmpBuffer first =
          dataToStringCSV printed sets (set.header hdr) full tmpBuffer first ∧
        dataToStringJSON printed sets hdr buf tmpBuffer =
          dataToStringJSON printed sets (set.header hdr) full tmpBuffer

/-- A string without room for a character, or a binary field whose text ends before its first
digit. -/
def DataInfo.Hidden (info : DataInfo Number) (first : Char) : Prop :=
  info.type = .mapped .string ∧ info.size < 2 ∨ info.type = .binary ∧ first = '\x00'

/-- No text of the columns has anything of the struct. -/
def Blind (dataSize : Nat) (hdr : DataHdr) : Char → List (Column Number) → Prop
  | _, [] => True
  | first, column :: columns =>
    match fieldData dataSize column.info.located column.arrayIndex hdr with
    | none => Blind dataSize hdr (column.info.defaultString.headD '\x00') columns
    | some _ => column.info.Hidden first ∧ Blind dataSize hdr '\x00' columns

/-- The texts of the struct are the same whatever it holds. -/
def DataSet.Blind (set : DataSet Number) (hdr : DataHdr) : Prop :=
  (∀ first, Values.Blind set.size (set.header hdr) first set.csvColumns) ∧
    Values.Blind set.size (set.header hdr) '{' set.jsonColumns

/-- The packet has a part of the struct, which fits into the buffer, or has all of it from its start
on. -/
def Expands (set : DataSet Number) (hdr : DataHdr) : Prop :=
  if hdr.size.toNat < set.size then
    hdr.offset.toNat + hdr.size.toNat ≤ set.size ∧ set.size ≤ maxDatasetSize
  else hdr.offset = 0 ∨ set.Blind hdr

section Shifts

variable {β : Type*} {size : Nat} {hdr : DataHdr}

/-- The struct moved by so many bytes, with zeros in front. -/
private def moved (size distance : Nat) (buf : Nat → UInt8) : Nat → UInt8 := fun place =>
  if place < size then if distance ≤ place then buf (place - distance) else 0 else buf place

private theorem constant_of_moved (whole : size ≤ hdr.size.toNat) (shifted : hdr.offset ≠ 0)
    {text : (Nat → UInt8) → β} (same : ∀ buf, text buf = text (fullStruct size hdr buf buf))
    {bytes bytes' : Nat → UInt8} (behind : ∀ place, size ≤ place → bytes place = bytes' place) :
    text bytes = text bytes' := by
  have offset : 0 < hdr.offset.toNat :=
    Nat.pos_of_ne_zero fun none => shifted (UInt16.toNat_inj.mp none)
  have once (buf : Nat → UInt8) :
      fullStruct size hdr buf buf = moved size hdr.offset.toNat buf := by
    funext place
    unfold fullStruct moved
    split
    · exact if_congr (and_iff_left_of_imp fun _ => by omega) rfl rfl
    · rfl
  have often (buf : Nat → UInt8) (count : Nat) :
      text buf = text (moved size (count * hdr.offset.toNat) buf) := by
    induction count with
    | zero =>
      congr 1
      funext place
      unfold moved
      simp
    | succ count ih =>
      rw [ih, same, once]
      congr 1
      funext place
      have product : (count + 1) * hdr.offset.toNat =
          count * hdr.offset.toNat + hdr.offset.toNat := Nat.succ_mul ..
      unfold moved
      by_cases inside : place < size
      · by_cases far : hdr.offset.toNat ≤ place
        · rw [if_pos inside, if_pos far, if_pos inside, if_pos (by omega)]
          refine if_congr (by omega) (congrArg buf ?_) rfl
          omega
        · rw [if_pos inside, if_neg far, if_pos inside, if_neg (by omega)]
      · rw [if_neg inside, if_neg inside, if_neg inside]
  rw [often bytes size, often bytes' size]
  congr 1
  funext place
  have all : size ≤ size * hdr.offset.toNat := Nat.le_mul_of_pos_right size offset
  unfold moved
  by_cases inside : place < size
  · rw [if_pos inside, if_pos inside, if_neg (by omega), if_neg (by omega)]
  · rw [if_neg inside, if_neg inside]
    exact behind place (Nat.not_lt.mp inside)

end Shifts

section Columns

variable {printed : FloatText Number} {dataSize : Nat} {hdr : DataHdr}

/-- Nothing, or something behind a comma. -/
private def Separated (rest : List Char) : Prop := ∀ c ∈ rest.head?, c = ','

private theorem columnTexts_separated {columns : List (Column Number)}
    (labels : ∀ column ∈ columns, column.label.head? = some ',') (bytes : Nat → UInt8)
    (first : Char) : Separated (columnTexts printed dataSize hdr bytes first columns) := by
  cases columns with
  | nil => exact fun c none => by cases none
  | cons column columns =>
    have label := labels column List.mem_cons_self
    intro c member
    unfold columnTexts at member
    dsimp only at member
    rw [List.append_assoc, List.head?_append, label] at member
    exact (Option.some.inj member).symm

private theorem text_ends {text text' rest rest' : List Char} (plain : ',' ∉ text)
    (plain' : ',' ∉ text') (ends : Separated rest) (ends' : Separated rest')
    (same : text ++ rest = text' ++ rest') : text = text' := by
  have stops {text rest : List Char} (plain : ',' ∉ text) (ends : Separated rest) :
      (text ++ rest).takeWhile (· ≠ ',') = text := by
    have all : ∀ c ∈ text, decide (c ≠ ',') = true := fun c member =>
      decide_eq_true fun comma => plain (comma ▸ member)
    rw [List.takeWhile_append_of_pos all]
    cases rest with
    | nil => simp
    | cons c rest =>
      obtain rfl : c = ',' := ends c rfl
      simp
  have cut := congrArg (List.takeWhile (· ≠ ',')) same
  rwa [stops plain ends, stops plain' ends'] at cut

private theorem hidden_text {info : DataInfo Number} {first : Char} (hidden : info.Hidden first)
    (bytes : Nat → UInt8) (ptr : Nat) : variableToString printed info bytes ptr first = [] := by
  unfold variableToString
  obtain ⟨string, short⟩ | ⟨binary, rfl⟩ := hidden
  · have none : min maxStringLength info.size - 1 = 0 := by omega
    rw [string]
    unfold DataLog.variableToString
    dsimp only
    rw [none]
    rfl
  · rw [binary]
    rfl

variable (printed) in
/-- Two structs differ in the text of a field, whatever comes behind it. -/
private def TextsApart (dataSize : Nat) (info : DataInfo Number) (ptr : Nat) (first : Char) : Prop :=
  ∃ bytes bytes' : Nat → UInt8, (∀ place, dataSize ≤ place → bytes place = bytes' place) ∧
    ∀ rest rest', Separated rest → Separated rest' →
      variableToString printed info bytes ptr first ++ rest ≠
        variableToString printed info bytes' ptr first ++ rest'

section Fields

variable {info : DataInfo Number} {first : Char} {ptr : Nat}

private theorem number_apart (number : info.IsNumber) (whole : ptr + typeSize info.type ≤ dataSize) :
    TextsApart printed dataSize info ptr first := by
  obtain ⟨text, ⟨plain, value, value', sized, sized', apart⟩, same⟩ := number_shown printed number
  refine ⟨store (fun _ => 0) ptr value, store (fun _ => 0) ptr value', fun place behind => ?_,
    fun rest rest' ends ends' equal => apart ?_⟩
  · rw [store_outside _ (.inr (by omega)), store_outside _ (.inr (by omega))]
  · rw [same, same] at equal
    have texts := text_ends (plain _) (plain _) ends ends' equal
    have stored := window_store (fun _ => 0) ptr value
    have stored' := window_store (fun _ => 0) ptr value'
    rw [sized] at stored
    rw [sized'] at stored'
    rwa [stored, stored'] at texts

/-- A struct with the character 1 at a place, and nothing else. -/
private def single (ptr : Nat) : Nat → UInt8 := fun place => if place = ptr then 0x31 else 0

private theorem single_behind (inside : ptr < dataSize) (place : Nat) (behind : dataSize ≤ place) :
    single ptr place = 0 :=
  if_neg (by omega)

/-- In a string with room for a character, that is there in one struct only. -/
private theorem string_apart (string : info.type = .mapped .string) (long : 2 ≤ info.size)
    (inside : ptr < dataSize) : TextsApart printed dataSize info ptr first := by
  refine ⟨single ptr, fun _ => 0, single_behind inside, fun rest rest' ends ends' equal => ?_⟩
  obtain ⟨count, room⟩ : ∃ count, min maxStringLength info.size - 1 = count + 1 :=
    ⟨min maxStringLength info.size - 2, by unfold maxStringLength; omega⟩
  unfold variableToString at equal
  rw [string] at equal
  unfold DataLog.variableToString at equal
  dsimp only at equal
  rw [room, window_cons, window_cons, show single ptr ptr = 0x31 from if_pos rfl] at equal
  unfold stringChars at equal
  dsimp only at equal
  rw [if_neg (by decide), if_neg (by decide), if_pos rfl, List.nil_append] at equal
  have comma := ends' (Char.ofUInt8 0x31) (by rw [← equal]; rfl)
  exact absurd comma (by decide)

/-- Where nothing cuts off the text, there are the digits of all bytes. -/
private theorem binaryToString_open (whole : first ≠ '\x00') (data : List UInt8) :
    binaryToString data false first = first :: data.flatMap byteDigits := by
  unfold binaryToString
  simp only [Bool.false_eq_true, if_false, List.append_nil]
  rw [List.takeWhile_eq_self_iff]
  intro c member
  simp only [List.mem_cons, List.mem_flatMap] at member
  obtain rfl | ⟨other, -, own⟩ := member
  · exact decide_eq_true whole
  · exact decide_eq_true (byteDigits_plain own)

private theorem binary_apart (binary : info.type = .binary) (whole : first ≠ '\x00')
    (some : 0 < info.size) (inside : ptr < dataSize) :
    TextsApart printed dataSize info ptr first := by
  refine ⟨single ptr, fun _ => 0, single_behind inside, fun rest rest' ends ends' equal => ?_⟩
  obtain ⟨count, size⟩ := Nat.exists_eq_add_of_lt some
  rw [Nat.zero_add] at size
  unfold variableToString at equal
  rw [binary] at equal
  dsimp only at equal
  rw [size, window_cons, window_cons, show single ptr ptr = 0x31 from if_pos rfl,
    binaryToString_open whole, binaryToString_open whole] at equal
  have second := (List.cons.inj (List.cons.inj equal).2).1
  exact absurd second (by decide)

/-- A field that is not hidden has another text in another struct. -/
private theorem texts_apart (shown : ¬info.Hidden first) (some : 0 < info.size)
    (inside : ptr < dataSize) (whole : info.IsNumber → ptr + typeSize info.type ≤ dataSize) :
    TextsApart printed dataSize info ptr first := by
  by_cases string : info.type = .mapped .string
  · refine string_apart string ?_ inside
    by_contra short
    exact shown (.inl ⟨string, Nat.not_le.mp short⟩)
  by_cases binary : info.type = .binary
  · exact binary_apart binary (fun cut => shown (.inr ⟨binary, cut⟩)) some inside
  · exact number_apart ⟨string, binary⟩ (whole ⟨string, binary⟩)

end Fields

private theorem fieldData_lt {info : DataLog.DataInfo} {arrayIndex ptr : Nat}
    (whole : hdr.size.toNat = dataSize) (found : fieldData dataSize info arrayIndex hdr = some ptr) :
    ptr < dataSize := by
  have fullSize : (if hdr.size = 0 then dataSize else hdr.size.toNat) = dataSize := by
    rw [whole, ite_self]
  unfold fieldData at found
  rw [fullSize] at found
  split at found
  · cases found
  · dsimp only at found
    split at found
    · obtain rfl := Option.some.inj found
      omega
    · cases found

variable (printed) in
/-- Columns are blind exactly if their texts are the same for all structs. -/
private theorem blind_iff {columns : List (Column Number)} (whole : hdr.size.toNat = dataSize)
    (labels : ∀ column ∈ columns, column.label.head? = some ',')
    (sized : ∀ column ∈ columns, 0 < column.info.size)
    (numbers : ∀ column ∈ columns, column.info.IsNumber → ∀ ptr,
      fieldData dataSize column.info.located column.arrayIndex hdr = some ptr →
        ptr + typeSize column.info.type ≤ dataSize) (first : Char) :
    Blind dataSize hdr first columns ↔
      ∀ bytes bytes' : Nat → UInt8, (∀ place, dataSize ≤ place → bytes place = bytes' place) →
        columnTexts printed dataSize hdr bytes first columns =
          columnTexts printed dataSize hdr bytes' first columns := by
  induction columns generalizing first with
  | nil => exact iff_of_true trivial fun _ _ _ => rfl
  | cons column columns ih =>
    obtain ⟨-, labels⟩ := List.forall_mem_cons.mp labels
    obtain ⟨size, sized⟩ := List.forall_mem_cons.mp sized
    obtain ⟨number, numbers⟩ := List.forall_mem_cons.mp numbers
    have ih := ih labels sized numbers
    have texts (bytes : Nat → UInt8) :
        columnTexts printed dataSize hdr bytes first (column :: columns) =
          column.label ++ dataToString printed dataSize column.info hdr bytes column.arrayIndex first ++
            columnTexts printed dataSize hdr bytes ((dataToString printed dataSize column.info hdr
              bytes column.arrayIndex first).headD '\x00') columns := rfl
    simp only [texts]
    unfold Blind dataToString
    cases place : fieldData dataSize column.info.located column.arrayIndex hdr with
    | none =>
      simp only [List.append_cancel_left_eq]
      exact ih _
    | some ptr =>
      dsimp only
      constructor
      · rintro ⟨hidden, rest⟩ bytes bytes' behind
        rw [hidden_text hidden, hidden_text hidden]
        exact congrArg _ ((ih _).mp rest bytes bytes' behind)
      · intro same
        by_cases hidden : column.info.Hidden first
        · refine ⟨hidden, (ih _).mpr fun bytes bytes' behind => ?_⟩
          have texts := same bytes bytes' behind
          rw [hidden_text hidden, hidden_text hidden] at texts
          exact List.append_cancel_left texts
        · obtain ⟨bytes, bytes', behind, apart⟩ : TextsApart printed dataSize column.info ptr first :=
            texts_apart hidden size (fieldData_lt whole place) fun isNumber => number isNumber ptr place
          have texts := same bytes bytes' behind
          rw [List.append_assoc, List.append_assoc, List.append_cancel_left_eq] at texts
          exact absurd texts (apart _ _ (columnTexts_separated labels _ _)
            (columnTexts_separated labels _ _))

private theorem Blind.not_number {columns : List (Column Number)} {first : Char}
    (blind : Blind dataSize hdr first columns) {column : Column Number} (member : column ∈ columns)
    {ptr : Nat}
    (found : fieldData dataSize column.info.located column.arrayIndex hdr = some ptr) :
    ¬column.info.IsNumber := by
  induction columns generalizing first with
  | nil => cases member
  | cons other columns ih =>
    unfold Blind at blind
    obtain rfl | later := List.mem_cons.mp member
    · rw [found] at blind
      rintro ⟨string, binary⟩
      obtain ⟨kind, -⟩ | ⟨kind, -⟩ := blind.1
      · exact string kind
      · exact binary kind
    · cases place : fieldData dataSize other.info.located other.arrayIndex hdr with
      | none =>
        rw [place] at blind
        exact ih blind later
      | some _ =>
        rw [place] at blind
        exact ih blind.2 later

end Columns

section Sets

variable {printed : FloatText Number} {sets : UInt8 → Option (DataSet Number)}
  {set : DataSet Number} {hdr : DataHdr}

private theorem header_size (set : DataSet Number) (hdr : DataHdr) :
    (set.header hdr).size.toNat = set.size := by
  change (UInt16.ofNat set.size).toNat = set.size
  rw [UInt16.toNat_ofNat', Nat.mod_eq_of_lt set.small]

/-- Every element of a field is in the struct. -/
private theorem fieldData_element {info : DataInfo Number} (known : info ∈ set.nameToInfo)
    {i : Nat} (element : i ∈ info.indices) (hdr : DataHdr) :
    fieldData set.size info.located i (set.header hdr) = some (info.offset + i * info.elementSize) ∧
      (info.IsNumber →
        info.offset + i * info.elementSize + typeSize info.type ≤ set.size) := by
  obtain ⟨scalar, elements, number, some⟩ := set.mapped info known
  have inside := set.inside info known
  have small := set.small
  have last : (info.arraySize = 0 ∨ i < info.arraySize) ∧
      i * info.elementSize + info.elementSize ≤ info.size := by
    unfold DataInfo.indices at element
    split at element
    case isTrue single =>
      obtain rfl := List.mem_singleton.mp element
      exact ⟨.inl single, by rw [scalar single, Nat.zero_mul, Nat.zero_add]⟩
    case isFalse array =>
      have less := List.mem_range.mp element
      refine ⟨.inr less, (Nat.le_of_eq (Nat.succ_mul ..).symm).trans ?_⟩
      exact (Nat.mul_le_mul_right info.elementSize less).trans elements
  obtain ⟨exists', ends⟩ := last
  have start : info.offset + i * info.elementSize < set.size := by
    obtain none | positive := Nat.eq_zero_or_pos info.elementSize
    · rw [none, Nat.mul_zero]
      omega
    · omega
  have place : Int.bmod (info.offset + (i : Int) * info.elementSize - (0 : Nat)) (2 ^ 32) =
      (info.offset + i * info.elementSize : Nat) := by
    push_cast
    have low : 0 ≤ (i : Int) * info.elementSize := by positivity
    have high : (info.offset + (i : Int) * info.elementSize : Int) < set.size := by
      exact_mod_cast start
    rw [Int.sub_zero, Int.bmod_eq_of_le] <;> omega
  have fullSize : (if (set.header hdr).size = 0 then set.size
      else (set.header hdr).size.toNat) = set.size := by
    rw [header_size, ite_self]
  refine ⟨?_, fun isNumber => ?_⟩
  · unfold fieldData
    rw [fullSize, if_neg (by
      rintro ⟨array, behind⟩
      exact exists'.elim array fun less => Nat.not_le.mpr less behind)]
    dsimp only
    rw [show ((info.located.offset : Int) + (i : Int) * info.located.elementSize -
      (set.header hdr).offset.toNat).bmod (2 ^ 32) = _ from place]
    rw [if_pos ⟨Int.natCast_nonneg _, by exact_mod_cast start⟩, Int.toNat_natCast]
  · rw [← number isNumber]
    omega

variable (printed) in
private theorem texts_known (known : sets hdr.id = some set) (buf tmpBuffer : Nat → UInt8)
    (first : Char) :
    dataToStringCSV printed sets hdr buf tmpBuffer first =
        some (columnTexts printed set.size (set.header hdr) (wholeRecord set.size hdr buf tmpBuffer)
          first set.csvColumns ++ ['\n']) ∧
      dataToStringJSON printed sets hdr buf tmpBuffer =
        some (['{', '"', 'i', 'd', '"', ':'] ++ decimal hdr.id.toNat ++
          columnTexts printed set.size (set.header hdr) (wholeRecord set.size hdr buf tmpBuffer) '{'
            set.jsonColumns ++ ['}']) := by
  unfold dataToStringCSV dataToStringJSON
  rw [known]
  exact ⟨rfl, rfl⟩

/-- The texts of a packet and of a whole struct are the same exactly if those of their columns
are. -/
private theorem texts_same_iff (known : sets hdr.id = some set) (buf full tmpBuffer : Nat → UInt8)
    (first : Char) :
    (dataToStringCSV printed sets hdr buf tmpBuffer first =
          dataToStringCSV printed sets (set.header hdr) full tmpBuffer first ∧
        dataToStringJSON printed sets hdr buf tmpBuffer =
          dataToStringJSON printed sets (set.header hdr) full tmpBuffer) ↔
      columnTexts printed set.size (set.header hdr) (wholeRecord set.size hdr buf tmpBuffer) first
            set.csvColumns =
          columnTexts printed set.size (set.header hdr) full first set.csvColumns ∧
        columnTexts printed set.size (set.header hdr) (wholeRecord set.size hdr buf tmpBuffer) '{'
            set.jsonColumns =
          columnTexts printed set.size (set.header hdr) full '{' set.jsonColumns := by
  have again : sets (set.header hdr).id = some set := known
  obtain ⟨csv, json⟩ := texts_known printed known buf tmpBuffer first
  obtain ⟨csv', json'⟩ := texts_known printed again full tmpBuffer first
  have same : set.header (set.header hdr) = set.header hdr := rfl
  rw [csv, json, csv', json', wholeRecord_whole (header_size set hdr).ge, same]
  simp only [Option.some_inj, List.append_cancel_right_eq]
  exact and_congr_right fun _ => by
    rw [show (set.header hdr).id = hdr.id from rfl, List.append_cancel_left_eq]

/-- The texts of the columns of a row and an object are the same for all structs exactly if the
columns are blind. -/
private theorem blind_set_iff (printed : FloatText Number) (set : DataSet Number) (hdr : DataHdr) :
    set.Blind hdr ↔ ∀ bytes bytes' : Nat → UInt8,
      (∀ place, set.size ≤ place → bytes place = bytes' place) → ∀ first,
        columnTexts printed set.size (set.header hdr) bytes first set.csvColumns =
            columnTexts printed set.size (set.header hdr) bytes' first set.csvColumns ∧
          columnTexts printed set.size (set.header hdr) bytes '{' set.jsonColumns =
            columnTexts printed set.size (set.header hdr) bytes' '{' set.jsonColumns := by
  have whole := header_size set hdr
  have csv (column : Column Number) (member : column ∈ set.csvColumns) :
      column.info ∈ set.nameToInfo ∧ column.arrayIndex ∈ column.info.indices ∧
        column.label.head? = some ',' := by
    obtain ⟨info, known, member⟩ := List.mem_flatMap.mp member
    obtain ⟨i, element, rfl⟩ := List.mem_map.mp member
    exact ⟨known, element, rfl⟩
  have json (column : Column Number) (member : column ∈ set.jsonColumns) :
      column.info ∈ set.nameToInfo ∧ column.label.head? = some ',' := by
    obtain ⟨info, known, rfl⟩ := List.mem_map.mp member
    exact ⟨known, rfl⟩
  have row (first : Char) := blind_iff printed whole
    (fun column member => (csv column member).2.2)
    (fun column member => (set.mapped _ (csv column member).1).some)
    (fun column member isNumber ptr found => by
      obtain ⟨place, ends⟩ := fieldData_element (csv column member).1 (csv column member).2.1 hdr
      obtain rfl := Option.some.inj (found.symm.trans place)
      exact ends isNumber) first
  -- an object has no number if the row is blind
  have object (none : ∀ info ∈ set.nameToInfo, ¬info.IsNumber) := blind_iff printed whole
    (fun column member => (json column member).2)
    (fun column member => (set.mapped _ (json column member).1).some)
    (fun column member isNumber => absurd isNumber (none _ (json column member).1)) '{'
  have numbers (blind : ∀ first, Values.Blind set.size (set.header hdr) first set.csvColumns) :
      ∀ info ∈ set.nameToInfo, ¬info.IsNumber := by
    intro info known
    have zero : 0 ∈ info.indices := by
      unfold DataInfo.indices
      split
      · exact List.mem_singleton.mpr rfl
      · exact List.mem_range.mpr (by omega)
    have member : ({ label := [','], info, arrayIndex := 0 } : Column Number) ∈ set.csvColumns :=
      List.mem_flatMap.mpr ⟨info, known, List.mem_map.mpr ⟨0, zero, rfl⟩⟩
    exact (blind '{').not_number member (fieldData_element known zero hdr).1
  constructor
  · rintro ⟨blind, blind'⟩ bytes bytes' behind first
    exact ⟨(row first).mp (blind first) bytes bytes' behind,
      (object (numbers blind)).mp blind' bytes bytes' behind⟩
  · intro same
    have blind := fun first => (row first).mpr fun bytes bytes' behind =>
      (same bytes bytes' behind first).1
    exact ⟨blind, (object (numbers blind)).mpr fun bytes bytes' behind =>
      (same bytes bytes' behind '{').2⟩

end Sets

private theorem zeroText_shown (size : Nat) (some : 0 < size) :
    Shown size fun bytes => if bytes.all (· = 0) then ['0'] else ['1'] where
  plain bytes := by split <;> decide
  apart := by
    refine ⟨List.replicate size 0, List.replicate size 1, by simp, by simp, ?_⟩
    obtain ⟨count, rfl⟩ := Nat.exists_eq_succ_of_ne_zero some.ne'
    simp

/-- Texts that only tell zero from other numbers. -/
def zeroText : FloatText Unit where
  float _ _ bytes := if bytes.all (· = 0) then ['0'] else ['1']
  double _ _ bytes := if bytes.all (· = 0) then ['0'] else ['1']
  float_shown _ _ := zeroText_shown 4 (by decide)
  double_shown _ _ := zeroText_shown 8 (by decide)

/-- A struct of four bytes with a `float` in it. -/
def oneFloat : DataSet Unit where
  size := 4
  nameToInfo := [{ offset := 0, size := 4, type := .f32, arraySize := 0, elementSize := 4, flags := 0,
                   name := ['a'], conversion := () }]
  mapped := List.forall_mem_singleton.mpr ⟨fun _ => rfl, Nat.zero_le 4, fun _ => rfl, by decide⟩
  inside := List.forall_mem_singleton.mpr (show 0 + 4 ≤ 4 by omega)
  small := by decide

end Values

end InertialSense.DataLog
