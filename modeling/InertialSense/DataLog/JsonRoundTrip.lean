import InertialSense.DataLog.Json

/-! When a record comes back from JSON. The flag for JSON is passed as the index of an array
element, so that a field is written and read one field's size behind its place. -/

namespace InertialSense.DataLog

open Foundation

/-- The place that a field is written from and read to. -/
def DataInfo.behind (info : DataInfo) : Nat := info.offset + info.size

/-- The text of a field's own value. -/
def DataInfo.ownText (info : DataInfo) (mem : Nat → UInt8) : List Char :=
  info.type.toText info.displayHex (info.bytesIn mem)

/-- Every field is zero, and so are as many bytes behind it, where the struct goes on. -/
def DataSet.Blank (set : DataSet) (mem : Nat → UInt8) : Prop :=
  ∀ info ∈ set.nameToInfo, info.behind < set.size ∧
    ∀ place, info.offset ≤ place ∧ place < info.behind + info.size → mem place = 0

/-- A record's text has all its values, and the record is read from it. -/
def JsonRestores (sets : UInt8 → Option DataSet) (set : DataSet) (hdr : DataHdr)
    (mem tmpBuffer : Nat → UInt8) (start : DataHdr) (erange : Bool) : Prop :=
  ∃ json, dataToStringJSON sets hdr mem tmpBuffer = some json ∧
    json = jsonObject ((['i', 'd'], decimal hdr.id.toNat) ::
      set.nameToInfo.map fun info => (info.name, info.ownText mem)) ∧
    ∃ hdr' buf, stringJSONToData sets json start { bytes := fun _ => 0, erange } =
        some (hdr', buf) ∧
      hdr'.id = hdr.id ∧ hdr'.size = hdr.size ∧
      ∀ info ∈ set.nameToInfo, info.bytesIn buf.bytes = info.bytesIn mem

section Record

variable {sets : UInt8 → Option DataSet} {set : DataSet}
  (scalar : ∀ info ∈ set.nameToInfo, info.arraySize = 0 ∧ info.type ≠ .string)

include scalar

private theorem scalar_size {info : DataInfo} (known : info ∈ set.nameToInfo) :
    info.elementSize = info.size ∧ info.type.size = info.size := by
  obtain ⟨single, integer⟩ := scalar info known
  have mapped := set.mapped info known
  have size := mapped.scalar single
  exact ⟨size, (mapped.integer integer).symm.trans size⟩

private theorem fieldData_behind {info : DataInfo} (known : info ∈ set.nameToInfo) {hdr : DataHdr}
    (start : hdr.offset = 0) (whole : hdr.size.toNat = set.size) :
    fieldData set.size info 1 hdr = if info.behind < set.size then some info.behind else none := by
  have size := (scalar_size scalar known).1
  have near : 1 * info.elementSize ≤ info.size := by omega
  have place := fieldData_whole known (.inl (scalar info known).1) near start whole
  rwa [Nat.one_mul, size] at place

/-- The text that is written for a field. -/
def DataSet.shownText (set : DataSet) (mem : Nat → UInt8) (info : DataInfo) : List Char :=
  if info.behind < set.size then
    info.type.toText info.displayHex (window mem info.behind info.size)
  else ['0']

private theorem dataToString_behind {info : DataInfo} (known : info ∈ set.nameToInfo)
    {hdr : DataHdr} (start : hdr.offset = 0) (whole : hdr.size.toNat = set.size)
    (mem : Nat → UInt8) :
    dataToString set.size info hdr mem 1 false = set.shownText mem info := by
  have integer := (scalar info known).2
  have size := (scalar_size scalar known).2
  unfold dataToString DataSet.shownText
  rw [fieldData_behind scalar known start whole]
  by_cases inside : info.behind < set.size
  · rw [if_pos inside, if_pos inside]
    show variableToString info.type info.displayHex mem info.behind info.size false = _
    rw [variableToString_integer integer, size]
  · rw [if_neg inside, if_neg inside]
    exact if_neg integer

/-- A field is read to its place, unless that is behind the record. -/
private theorem readJsonField_own {info : DataInfo} (known : info ∈ set.nameToInfo)
    {hdr : DataHdr} (start : hdr.offset = 0) (whole : hdr.size.toNat = set.size) (buf : Buffer)
    (text : List Char) :
    readJsonField set hdr buf info.name text =
      if info.behind < set.size then
        some (stringToVariable text buf info.behind info.type info.size
          (if info.displayHex then 16 else 10) false)
      else none := by
  unfold readJsonField
  rw [DataSet.find_own known]
  show stringToData set.size text hdr buf info 1 false = _
  unfold stringToData
  rw [fieldData_behind scalar known start whole]
  split <;> rfl

omit scalar in
private theorem json_plain {c : Char} (plain : c ∉ ['"', ',', '}', '\\', '\n', '\r', '\x00']) :
    c ∉ ['"', ',', '}', '\\'] := by
  simp only [List.mem_cons, List.not_mem_nil, or_false, not_or] at plain ⊢
  exact ⟨plain.1, plain.2.1, plain.2.2.1, plain.2.2.2.1⟩

omit scalar in
private theorem json_ends {c : Char} (plain : c ∉ ['"', ',', '}', '\\']) : c ∉ [',', '}'] := by
  simp only [List.mem_cons, List.not_mem_nil, or_false, not_or] at plain ⊢
  exact ⟨plain.2.1, plain.2.2.1⟩

omit scalar in
private theorem shownText_plain (info : DataInfo) (mem : Nat → UInt8) :
    ∀ c ∈ set.shownText mem info, c ∉ ['"', ',', '}', '\\'] := by
  intro c member
  unfold DataSet.shownText at member
  split at member
  · exact json_plain (DataType.toText_plain info.displayHex member)
  · rw [List.mem_singleton.mp member]
    decide

variable {hdr : DataHdr} (known : sets hdr.id = some set) (whole : hdr.size.toNat = set.size)

include known whole

private theorem dataToStringJSON_shown (mem tmpBuffer : Nat → UInt8) :
    dataToStringJSON sets hdr mem tmpBuffer =
      some (jsonObject ((['i', 'd'], decimal hdr.id.toNat) ::
        set.nameToInfo.map fun info => (info.name, set.shownText mem info))) := by
  have record : wholeRecord set.size hdr mem tmpBuffer = mem := by
    unfold wholeRecord
    rw [if_neg (by omega)]
  have size : (UInt16.ofNat set.size).toNat = set.size := by
    rw [UInt16.toNat_ofNat', Nat.mod_eq_of_lt set.small]
  have fields : set.nameToInfo.flatMap (fun info => [',', '"'] ++ info.name ++ ['"', ':'] ++
      dataToString set.size info { hdr with offset := 0, size := UInt16.ofNat set.size } mem 1
        false) ++ ['}'] =
      jsonRest (set.nameToInfo.map fun info => (info.name, set.shownText mem info)) := by
    rw [jsonRest, List.flatMap_map]
    refine congrArg (· ++ ['}']) (List.flatMap_congr fun info member => ?_)
    rw [dataToString_behind scalar member rfl size]
    simp [jsonMember]
  unfold dataToStringJSON
  rw [known]
  simp only [Option.bind_eq_bind, Option.bind_some, record]
  rw [List.append_assoc, fields, jsonObject_cons]
  simp [jsonMember]

omit scalar whole in
/-- What is read from an object whose members have plain texts. -/
private theorem stringJSONToData_object (unnamed : set.find ['i', 'd'] = none)
    {members : List (List Char × List Char)} (plain : ∀ member ∈ members, PlainMember member)
    (start : DataHdr) (buf : Buffer) :
    stringJSONToData sets (jsonObject ((['i', 'd'], decimal hdr.id.toNat) :: members)) start buf =
      (members.foldlM (fun buf member => readJsonField set
        { start with id := hdr.id, size := UInt16.ofNat set.size } buf member.1 member.2) buf).map
        fun buf => ({ start with id := hdr.id, size := UInt16.ofNat set.size }, buf) := by
  obtain ⟨first, first_eq⟩ :
      ∃ first : List Char × List Char, first = (['i', 'd'], decimal hdr.id.toNat) := ⟨_, rfl⟩
  rw [← first_eq]
  have text : jsonObject (first :: members) =
      ['{', '"', 'i', 'd', '"', ':'] ++ (decimal hdr.id.toNat ++ jsonRest members) := by
    rw [jsonObject_cons, first_eq]
    simp [jsonMember]
  have first_plain : PlainMember first := by
    rw [first_eq]
    refine ⟨List.forall_mem_cons.mpr ⟨by decide, List.forall_mem_singleton.mpr (by decide)⟩,
      fun c member => ?_⟩
    change c ∈ decimal hdr.id.toNat at member
    exact json_plain (decimal_plain member)
  have stop : (jsonRest members).takeWhile (isDigitOf 10) = [] := by
    cases members <;> rfl
  have small := hdr.id.toNat_lt
  have id : strtoul 10 ((jsonObject (first :: members)).drop (1 + 5)) =
      ((hdr.id.toNat : Int), false) := by
    rw [text]
    exact strtoul_decimal (by omega) stop
  have same : UInt8.ofNat ((hdr.id.toNat : Int) % 2 ^ 8).toNat = hdr.id := by
    have value : ((hdr.id.toNat : Int) % 2 ^ 8).toNat = hdr.id.toNat := by omega
    rw [value, UInt8.ofNat_toNat]
  have found : findText ['"', 'i', 'd', '"', ':'] (jsonObject (first :: members)) = some 1 := by
    rw [text]
    rfl
  have scanned (hdr' : DataHdr) :
      scanJson set hdr' (jsonObject (first :: members)) 0 (jsonObject (first :: members))
        (.between '\x00') buf =
      members.foldlM (fun buf member => readJsonField set hdr' buf member.1 member.2) buf := by
    have object : jsonObject (first :: members) =
        ['{'] ++ (jsonMember first ++ jsonRest members) := jsonObject_cons first members
    have read := scanJson_members set hdr' (jsonObject (first :: members)) first_plain plain
      (by decide : '{' ≠ '\\') object buf
    have none : readJsonField set hdr' buf first.1 first.2 = some buf := by
      rw [first_eq, readJsonField, unnamed]
    rw [List.foldlM_cons, none] at read
    conv_lhs => arg 5; rw [object]
    exact read
  unfold stringJSONToData
  rw [found]
  simp only [Option.bind_eq_bind, Option.bind_some, id, same, known, Bool.or_false]
  rw [show ({ pc := '\x00', fieldName := [], fieldStart := 0, inName := true, inQuote := false } :
    JsonScan) = .between '\x00' from rfl, scanned]
  rw [Option.map_eq_bind]
  rfl

end Record

section Assign

variable (mem : Nat → UInt8)

/-- A field's own bytes are assigned behind it. -/
def assignBehind (buf : Buffer) (info : DataInfo) : Buffer :=
  { buf with
    erange := buf.erange || info.type.overflows info.displayHex (info.bytesIn mem) }.assign
      info.behind (info.bytesIn mem)

private theorem foldl_assign (fields : List DataInfo)
    (behind : ∀ info ∈ fields, window mem info.behind info.size = info.bytesIn mem) (buf : Buffer)
    (place : Nat) :
    (fields.foldl (assignBehind mem) buf).bytes place = buf.bytes place ∨
      (∃ other ∈ fields, other.behind ≤ place ∧ place < other.behind + other.size) ∧
        (fields.foldl (assignBehind mem) buf).bytes place = mem place := by
  induction fields generalizing buf with
  | nil => exact .inl rfl
  | cons info fields ih =>
    obtain ⟨own, behind⟩ := List.forall_mem_cons.mp behind
    rw [List.foldl_cons]
    obtain same | ⟨⟨other, member, inside⟩, same⟩ := ih behind (assignBehind mem buf info)
    · rw [same]
      unfold assignBehind Buffer.assign
      split
      · exact .inl rfl
      · simp only [← own, store_window]
        split
        case isTrue inside => exact .inr ⟨⟨info, .head _, inside⟩, rfl⟩
        case isFalse => exact .inl rfl
    · exact .inr ⟨⟨other, .tail _ member, inside⟩, same⟩

end Assign

section RoundTrip

variable {sets : UInt8 → Option DataSet} {set : DataSet}
  (scalar : ∀ info ∈ set.nameToInfo, info.arraySize = 0 ∧ info.type ≠ .string)
  {hdr : DataHdr} (start : hdr.offset = 0) (whole : hdr.size.toNat = set.size)

include scalar start whole

private theorem foldlM_shown (mem : Nat → UInt8) {fields : List DataInfo}
    (known : ∀ info ∈ fields, info ∈ set.nameToInfo)
    (behind : ∀ info ∈ fields, info.behind < set.size ∧
      window mem info.behind info.size = info.bytesIn mem) (buf : Buffer) :
    (fields.map fun info => (info.name, set.shownText mem info)).foldlM
        (fun buf member => readJsonField set hdr buf member.1 member.2) buf =
      some (fields.foldl (assignBehind mem) buf) := by
  induction fields generalizing buf with
  | nil => rfl
  | cons info fields ih =>
    obtain ⟨here, known⟩ := List.forall_mem_cons.mp known
    obtain ⟨⟨inside, own⟩, behind⟩ := List.forall_mem_cons.mp behind
    have size := (scalar_size scalar here).2
    have sized : (info.bytesIn mem).length = info.type.size := by
      rw [DataInfo.bytesIn, window_length, size]
    have text : set.shownText mem info = info.type.toText info.displayHex (info.bytesIn mem) := by
      rw [DataSet.shownText, if_pos inside, own]
    rw [List.map_cons, List.foldlM_cons, readJsonField_own scalar here start whole, if_pos inside,
      text, stringToVariable_toText sized (scalar info here).2]
    exact ih known behind _

private theorem behind_of_foldlM {fields : List DataInfo}
    (known : ∀ info ∈ fields, info ∈ set.nameToInfo) {value : DataInfo → List Char}
    {buf buf' : Buffer}
    (read : (fields.map fun info => (info.name, value info)).foldlM
      (fun buf member => readJsonField set hdr buf member.1 member.2) buf = some buf') :
    ∀ info ∈ fields, info.behind < set.size := by
  induction fields generalizing buf with
  | nil => exact fun _ member => absurd member List.not_mem_nil
  | cons info fields ih =>
    obtain ⟨here, known⟩ := List.forall_mem_cons.mp known
    rw [List.map_cons, List.foldlM_cons, readJsonField_own scalar here start whole] at read
    split at read
    case isTrue inside => exact List.forall_mem_cons.mpr ⟨inside, ih known read⟩
    case isFalse => cases read

end RoundTrip

/-- What is followed by a copy of itself, and is such a copy or zero, is zero. -/
private theorem blank_of_copies {set : DataSet} {mem : Nat → UInt8}
    (inside : ∀ info ∈ set.nameToInfo, info.behind < set.size)
    (behind : ∀ info ∈ set.nameToInfo, window mem info.behind info.size = info.bytesIn mem)
    (copied : ∀ info ∈ set.nameToInfo, ∀ place, info.offset ≤ place ∧
      place < info.offset + info.size → mem place = 0 ∨ ∃ other ∈ set.nameToInfo,
        other.behind ≤ place ∧ place < other.behind + other.size) : set.Blank mem := by
  have copy (info : DataInfo) (here : info ∈ set.nameToInfo) (place : Nat)
      (within : info.behind ≤ place ∧ place < info.behind + info.size) :
      mem place = mem (place - info.size) := by
    have size := (set.mapped info here).some
    have same := behind info here
    obtain ⟨k, rfl⟩ := Nat.exists_eq_add_of_le within.1
    have small : k < info.size := by omega
    have held : (window mem info.behind info.size)[k]? = some (mem (info.behind + k)) :=
      getElem?_window mem small
    rw [same, DataInfo.bytesIn, getElem?_window mem small] at held
    rw [← Option.some.inj held]
    congr 1
    unfold DataInfo.behind
    omega
  have zero (place : Nat) : ∀ info ∈ set.nameToInfo, info.offset ≤ place ∧
      place < info.offset + info.size → mem place = 0 := by
    induction place using Nat.strong_induction_on with
    | _ place ih =>
      intro info here within
      obtain nothing | ⟨other, member, after⟩ := copied info here place within
      · exact nothing
      · have size := (set.mapped other member).some
        rw [copy other member place after]
        unfold DataInfo.behind at after
        exact ih _ (by omega) other member ⟨by omega, by omega⟩
  intro info here
  refine ⟨inside info here, fun place within => ?_⟩
  by_cases own : place < info.behind
  · exact zero place info here ⟨within.1, own⟩
  · rw [copy info here place ⟨Nat.le_of_not_lt own, within.2⟩]
    unfold DataInfo.behind at own within
    exact zero _ info here ⟨by omega, by omega⟩

/-- A record of integers comes back from JSON exactly where all its fields are zero, and what is
behind them too. -/
theorem json_restores_iff {sets : UInt8 → Option DataSet} {set : DataSet} {hdr start : DataHdr}
    (mem tmpBuffer : Nat → UInt8) (erange : Bool) (known : sets hdr.id = some set)
    (scalar : ∀ info ∈ set.nameToInfo, info.arraySize = 0 ∧ info.type ≠ .string)
    (unnamed : set.find ['i', 'd'] = none) (whole : hdr.size.toNat = set.size)
    (begin' : start.offset = 0) :
    JsonRestores sets set hdr mem tmpBuffer start erange ↔ set.Blank mem := by
  let hdr' : DataHdr := { start with id := hdr.id, size := UInt16.ofNat set.size }
  have offset : hdr'.offset = 0 := begin'
  have size : hdr'.size.toNat = set.size := by
    show (UInt16.ofNat set.size).toNat = _
    rw [UInt16.toNat_ofNat', Nat.mod_eq_of_lt set.small]
  have plain : ∀ member ∈ set.nameToInfo.map fun info => (info.name, set.shownText mem info),
      PlainMember member := by
    intro member inside
    obtain ⟨info, here, rfl⟩ := List.mem_map.mp inside
    refine ⟨fun c inside => ?_, shownText_plain info mem⟩
    have others := (set.mapped info here).name.2 c inside
    simp only [List.mem_cons, List.not_mem_nil, or_false, not_or] at others ⊢
    exact ⟨others.1, others.2.1, others.2.2.1⟩
  have written := dataToStringJSON_shown scalar known whole mem tmpBuffer
  have read := stringJSONToData_object known unnamed plain start { bytes := fun _ => 0, erange }
  have all : ∀ info ∈ set.nameToInfo, info ∈ set.nameToInfo := fun _ here => here
  constructor
  · rintro ⟨json, shown, own, hdr'', buf, result, -, -, bytes⟩
    obtain rfl := Option.some.inj (written.symm.trans shown)
    have texts : ∀ info ∈ set.nameToInfo, set.shownText mem info = info.ownText mem := by
      rw [jsonObject_cons, jsonObject_cons] at own
      refine jsonRest_inj (fun info _ c member => ?_) (fun info _ c member => ?_)
        (List.append_cancel_left (List.cons.inj own).2)
      · exact json_ends (shownText_plain info mem c member)
      · exact json_ends (json_plain (DataType.toText_plain info.displayHex member))
    rw [read] at result
    obtain ⟨buf', filled, same⟩ := Option.map_eq_some_iff.mp result
    obtain ⟨-, rfl⟩ := Prod.mk.inj same
    have inside := behind_of_foldlM scalar offset size all filled
    have behind : ∀ info ∈ set.nameToInfo,
        window mem info.behind info.size = info.bytesIn mem := by
      intro info here
      have field := (scalar_size scalar here).2
      have text := texts info here
      rw [DataSet.shownText, if_pos (inside info here)] at text
      refine DataType.toText_inj ?_ ?_ text
      · rw [window_length, field]
      · rw [DataInfo.bytesIn, window_length, field]
    rw [foldlM_shown scalar offset size mem all fun info here =>
      ⟨inside info here, behind info here⟩] at filled
    obtain rfl := Option.some.inj filled
    refine blank_of_copies inside behind fun info here place within => ?_
    have own := window_eq_iff.mp (bytes info here) place within
    obtain held | ⟨covered, -⟩ :=
      foldl_assign mem set.nameToInfo behind { bytes := fun _ => 0, erange } place
    · exact .inl (own.symm.trans held)
    · exact .inr covered
  · intro blank
    have behind : ∀ info ∈ set.nameToInfo, info.behind < set.size ∧
        window mem info.behind info.size = info.bytesIn mem := by
      intro info here
      obtain ⟨inside, zero⟩ := blank info here
      refine ⟨inside, window_congr fun k small => ?_⟩
      unfold DataInfo.behind at zero ⊢
      rw [zero _ ⟨by omega, by omega⟩, zero _ ⟨by omega, by omega⟩]
    have texts : set.nameToInfo.map (fun info => (info.name, set.shownText mem info)) =
        set.nameToInfo.map fun info => (info.name, info.ownText mem) := by
      refine List.map_congr_left fun info here => ?_
      obtain ⟨inside, own⟩ := behind info here
      rw [DataSet.shownText, if_pos inside, own]
      rfl
    rw [foldlM_shown scalar offset size mem all behind] at read
    refine ⟨_, written, by rw [texts], hdr', _, read, rfl, ?_, fun info here => ?_⟩
    · exact UInt16.toNat_inj.mp (size.trans whole.symm)
    · refine window_eq_iff.mpr fun place within => ?_
      have zero : mem place = 0 :=
        (blank info here).2 place ⟨within.1, by unfold DataInfo.behind; omega⟩
      obtain held | ⟨-, held⟩ := foldl_assign mem set.nameToInfo
        (fun info here => (behind info here).2) { bytes := fun _ => 0, erange } place
      · exact held.trans zero.symm
      · exact held

def twoBytes (size : Nat) (room : 2 ≤ size) (small : size < 2 ^ 16) : DataSet where
  size := size
  nameToInfo := [byteMember 'a' 0, byteMember 'b' 1]
  sorted := by decide
  mapped := List.forall_mem_cons.mpr ⟨byteMember_mapped (by decide) 0,
    List.forall_mem_singleton.mpr (byteMember_mapped (by decide) 1)⟩
  inside := List.forall_mem_cons.mpr ⟨show 0 + 1 ≤ size by omega,
    List.forall_mem_singleton.mpr room⟩
  disjoint := by decide
  small := small

/-- Behind two bytes that are zero, a third one is too. -/
theorem json_restores_iff_blank :
    JsonRestores (fun _ => some (twoBytes 3 (by decide) (by decide)))
      (twoBytes 3 (by decide) (by decide)) { id := 7, size := 3, offset := 0 } (fun _ => 0)
      (fun _ => 0) { id := 0, size := 0, offset := 0 } false := by
  refine (json_restores_iff _ _ false rfl ?_ (by decide) rfl rfl).mpr ?_
  · exact List.forall_mem_cons.mpr ⟨⟨rfl, by decide⟩, List.forall_mem_singleton.mpr ⟨rfl, by decide⟩⟩
  · exact List.forall_mem_cons.mpr ⟨⟨by decide, fun _ _ => rfl⟩,
      List.forall_mem_singleton.mpr ⟨by decide, fun _ _ => rfl⟩⟩

/-- The first of two bytes is shown as the second, and the second as zero. -/
theorem json_value_shifted :
    ¬∀ (sets : UInt8 → Option DataSet) (set : DataSet) (hdr start : DataHdr)
      (mem tmpBuffer : Nat → UInt8) (erange : Bool), sets hdr.id = some set →
      (∀ info ∈ set.nameToInfo, info.arraySize = 0 ∧ info.type ≠ .string) →
      set.find ['i', 'd'] = none → hdr.size.toNat = set.size → start.offset = 0 →
      JsonRestores sets set hdr mem tmpBuffer start erange := by
  intro claim
  have scalar : ∀ info ∈ (twoBytes 2 (by decide) (by decide)).nameToInfo,
      info.arraySize = 0 ∧ info.type ≠ .string :=
    List.forall_mem_cons.mpr ⟨⟨rfl, by decide⟩, List.forall_mem_singleton.mpr ⟨rfl, by decide⟩⟩
  obtain ⟨json, shown, own, -⟩ := claim (fun _ => some (twoBytes 2 (by decide) (by decide))) _
    { id := 7, size := 2, offset := 0 } { id := 0, size := 0, offset := 0 }
    (fun place => if place = 0 then 1 else 2) (fun _ => 0) false rfl scalar (by decide) rfl rfl
  have text : dataToStringJSON (fun _ => some (twoBytes 2 (by decide) (by decide)))
      { id := 7, size := 2, offset := 0 } (fun place => if place = 0 then 1 else 2) (fun _ => 0) =
      some ['{', '"', 'i', 'd', '"', ':', '7', ',', '"', 'a', '"', ':', '2', ',', '"', 'b', '"',
        ':', '0', '}'] := by decide
  obtain rfl := Option.some.inj (text.symm.trans shown)
  revert own
  decide

end InertialSense.DataLog
