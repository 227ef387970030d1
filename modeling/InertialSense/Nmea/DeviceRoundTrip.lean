import InertialSense.Nmea.DeviceInfo

/-! What `nmea_parse_info` restores of the sentence that `nmea_dev_info` built. -/

namespace InertialSense.Nmea

open Foundation

/-! ### Numbers -/

private theorem uint32_restored (value : UInt32) :
    UInt32.ofInt (atoi (textBytes (intText value))) = value := by
  have small := UInt32.toNat_lt value
  unfold intText
  rw [Int.bmod_def]
  split
  case isTrue low =>
    rw [atoi_decimal_int (by omega) (by omega)]
    have whole : ((value.toNat : Int) % ((2 ^ 32 : Nat) : Int)) % 2 ^ 32 = value.toNat := by omega
    unfold UInt32.ofInt
    rw [whole, Int.toNat_natCast, UInt32.ofNat_toNat]
  case isFalse high =>
    rw [atoi_decimal_int (by omega) (by omega)]
    have whole : ((value.toNat : Int) % ((2 ^ 32 : Nat) : Int) - ((2 ^ 32 : Nat) : Int)) % 2 ^ 32 =
        value.toNat := by omega
    unfold UInt32.ofInt
    rw [whole, Int.toNat_natCast, UInt32.ofNat_toNat]

private theorem year_restored (year : UInt8) :
    UInt8.ofNat (if (((year.toNat + 2000 : Nat) : Int) % 2 ^ 32).toNat ≥ 2000 then
      (((year.toNat + 2000 : Nat) : Int) % 2 ^ 32).toNat - 2000
    else (((year.toNat + 2000 : Nat) : Int) % 2 ^ 32).toNat) = year := by
  have small := UInt8.toNat_lt year
  have whole : (((year.toNat + 2000 : Nat) : Int) % 2 ^ 32).toNat = year.toNat + 2000 := by omega
  have late : year.toNat + 2000 ≥ 2000 := by omega
  rw [whole, if_pos late, Nat.add_sub_cancel, UInt8.ofNat_toNat]

private theorem byte_ofInt {value : Nat} (small : value < 256) :
    UInt8.ofInt (value : Int) = UInt8.ofNat value := by
  have whole : (value : Int) % 2 ^ 8 = value := by omega
  unfold UInt8.ofInt
  rw [whole, Int.toNat_natCast]

private theorem cut_small (milliseconds : UInt8) :
    (if milliseconds.toNat < 100 then milliseconds.toNat else milliseconds.toNat / 10) < 256 := by
  have small := UInt8.toNat_lt milliseconds
  split <;> omega

/-! ### Versions, dates and times -/

private theorem plain_ver (v : Ver4u8) : PlainText v.text :=
  (plain_decimal _).append ((((plain_decimal _).append ((((plain_decimal _).append
    ((plain_decimal _).cons (by decide))).cons (by decide)))).cons (by decide)))

private theorem ends_character {pad value : Nat} {c : Char} {rest : List Char} {width : Option Nat}
    (other : isDigitOf 10 c = false) (wide : ∀ w ∈ width, (padded pad 10 value).length ≤ w) :
    EndsField width (padded pad 10 value) (c :: rest) :=
  .inr ⟨wide, List.takeWhile_cons_of_neg (by rw [other]; decide)⟩

private theorem ver_restored (stale : Nat → Int) (v : Ver4u8) :
    asciiToVer4u8 stale (textBytes v.text) = v := by
  have dot {value : Nat} {rest : List Char} : EndsField none (padded 0 10 value) ('.' :: rest) :=
    ends_character (by decide) fun w member => absurd member (Option.not_mem_none w)
  have last {value : Nat} : EndsField none (padded 0 10 value) [] := .inr ⟨fun w member => absurd member (Option.not_mem_none w), rfl⟩
  have small (value : UInt8) : value.toNat < 2 ^ 63 := (UInt8.toNat_lt value).trans (by decide)
  have fourth := (@sscanf_padded none 0 v.v3.toNat [] (small v.v3) last []).2
  rw [List.append_nil] at fourth
  have values : sscanf [.unsigned none, .character '.', .unsigned none, .character '.', .unsigned none,
      .character '.', .unsigned none] v.text =
        [(v.v0.toNat : Int), (v.v1.toNat : Int), (v.v2.toNat : Int), (v.v3.toNat : Int)] := by
    unfold Ver4u8.text
    simp only [decimal_natCast]
    rw [(sscanf_padded (small v.v0) dot _).2, sscanf_character, (sscanf_padded (small v.v1) dot _).2,
      sscanf_character, (sscanf_padded (small v.v2) dot _).2, sscanf_character, fourth, sscanf_nil]
  unfold asciiToVer4u8
  rw [(plain_ver v).chars, values]
  simp only [assigned, List.getElem?_cons_zero, List.getElem?_cons_succ, Option.getD_some, uint8_ofInt]

section Date

variable {info : DevInfo}

private theorem plain_date : PlainText info.dateText :=
  (plain_padded _ _).append (((plain_padded _ _).append ((plain_padded _ _).cons (by decide))).cons
    (by decide))

private theorem plain_time : PlainText info.timeText :=
  (plain_padded _ _).append (((plain_padded _ _).append ((((plain_padded _ _).append
    ((plain_padded _ _).cons (by decide))).cons (by decide)))).cons (by decide))

private theorem padded_two {value : Nat} (small : value < 100) : (padded 2 10 value).length = 2 :=
  padded_length (by decide) (by decide) small

private theorem date_values (month : info.buildMonth.toNat < 100) (day : info.buildDay.toNat < 100) :
    sscanf [.signed (some 4), .character '-', .unsigned (some 2), .character '-', .unsigned (some 2)]
      info.dateText =
        [((info.buildYear.toNat + 2000 : Nat) : Int), (info.buildMonth.toNat : Int), (info.buildDay.toNat : Int)] := by
  have year := UInt8.toNat_lt info.buildYear
  have four : (padded 4 10 (info.buildYear.toNat + 2000)).length = 4 :=
    padded_length (by decide) (by decide) (by omega)
  have first {rest : List Char} : EndsField (some 4) (padded 4 10 (info.buildYear.toNat + 2000)) rest :=
    .inl (by rw [four])
  have two {value : Nat} (small : value < 100) {rest : List Char} :
      EndsField (some 2) (padded 2 10 value) rest := .inl (by rw [padded_two small])
  have last := (@sscanf_padded (some 2) 2 info.buildDay.toNat [] (by omega) (two day) []).2
  rw [List.append_nil] at last
  unfold DevInfo.dateText
  rw [(sscanf_padded (show info.buildYear.toNat + 2000 < 2 ^ 63 by omega) first _).1, sscanf_character,
    (sscanf_padded (show info.buildMonth.toNat < 2 ^ 63 by omega) (two month) _).2, sscanf_character,
    last, sscanf_nil]

/-- Of the milliseconds no more than two digits are read. -/
private theorem time_values (hour : info.buildHour.toNat < 100) (minute : info.buildMinute.toNat < 100)
    (second : info.buildSecond.toNat < 100) :
    sscanf [.unsigned (some 2), .character ':', .unsigned (some 2), .character ':', .unsigned (some 3),
      .character '.', .unsigned (some 2)] info.timeText =
        [(info.buildHour.toNat : Int), (info.buildMinute.toNat : Int), (info.buildSecond.toNat : Int),
          ((if info.buildMillisecond.toNat < 100 then info.buildMillisecond.toNat
            else info.buildMillisecond.toNat / 10 : Nat) : Int)] := by
  have two {value : Nat} (small : value < 100) {rest : List Char} :
      EndsField (some 2) (padded 2 10 value) rest := .inl (by rw [padded_two small])
  have dot {rest : List Char} : EndsField (some 3) (padded 2 10 info.buildSecond.toNat) ('.' :: rest) := by
    refine ends_character (by decide) fun w three => ?_
    cases three
    rw [padded_two second]
    decide
  have byte := UInt8.toNat_lt info.buildMillisecond
  unfold DevInfo.timeText
  generalize info.buildMillisecond.toNat = ms at byte
  have cut : ∀ ms < 256, numberOf 10 0 ((padded 2 10 ms).take 2) = (if ms < 100 then ms else ms / 10) ∧
      2 ≤ (padded 2 10 ms).length := by decide +kernel
  obtain ⟨number, long⟩ := cut ms byte
  have digits : ((padded 2 10 ms).take 2).length = 2 := by rw [List.length_take]; omega
  have last := (@sscanf_numeral ((padded 2 10 ms).take 2) ((padded 2 10 ms).drop 2) (some 2)
    (fun none => by rw [none] at digits; cases digits)
    (fun c member => mem_padded_decimal (List.mem_of_mem_take member))
    (by rw [number]; split <;> omega) (.inl (by rw [digits])) []).2
  rw [List.take_append_drop, number, sscanf_nil] at last
  rw [(sscanf_padded (show info.buildHour.toNat < 2 ^ 63 by omega) (two hour) _).2, sscanf_character,
    (sscanf_padded (show info.buildMinute.toNat < 2 ^ 63 by omega) (two minute) _).2, sscanf_character,
    (sscanf_padded (show info.buildSecond.toNat < 2 ^ 63 by omega) dot _).2, sscanf_character,
    last]

end Date

/-! ### Strings -/

section Strings

variable {size : Nat} {chars : Nat → UInt8}

private theorem cString_short (ended : ∃ k < size, chars k = 0) : (cString size chars).length < size := by
  obtain ⟨k, inside, null⟩ := ended
  have split : window chars 0 size = window chars 0 k ++ window chars k (size - k) := by
    have added := window_add chars 0 k (size - k)
    rwa [Nat.add_sub_cancel' inside.le, Nat.zero_add] at added
  have cut : (cString size chars).length ≤ k := by
    unfold cString
    rw [split, List.takeWhile_append]
    obtain ⟨rest, more⟩ : ∃ rest, size - k = rest + 1 := ⟨size - k - 1, by omega⟩
    have stops : (window chars k (size - k)).takeWhile (· ≠ 0) = [] := by
      rw [more, window_cons, null]
      rfl
    have short : ((window chars 0 k).takeWhile (· ≠ 0)).length ≤ _ := (List.takeWhile_prefix _).length_le
    rw [window_length] at short
    split
    · rw [stops, List.append_nil, window_length]
    · exact short
  omega

private theorem cString_restored (ended : ∃ k < size, chars k = 0) (dst : Nat → UInt8) :
    cString size (asciiToCharArray dst (cString size chars) ((cString size chars).length + 1) size) =
      cString size chars := by
  have short := cString_short ended
  have plain : ∀ byte ∈ cString size chars, byte ≠ 0 := by
    intro byte member
    simpa using List.mem_takeWhile_imp member
  generalize cString size chars = text at short plain
  have whole : text.take (min size (text.length + 1) - 1) = text := List.take_of_length_le (by omega)
  unfold asciiToCharArray cString
  rw [whole]
  have length : (text ++ [0]).length = text.length + 1 := by simp
  have split : window (store dst 0 (text ++ [0])) 0 size =
      text ++ [0] ++ window (store dst 0 (text ++ [0])) (text.length + 1) (size - (text.length + 1)) := by
    have added := window_add (store dst 0 (text ++ [0])) 0 (text.length + 1) (size - (text.length + 1))
    rw [Nat.add_sub_cancel' short, Nat.zero_add, ← length, window_store] at added
    rwa [length] at added
  rw [split, List.append_assoc, List.takeWhile_append_of_pos (fun byte member => by simpa using plain byte member)]
  simp

end Strings

/-! ### The round trip -/

/-- The string in an array ends inside of it, and has no comma and no star. -/
structure ProperString (size : Nat) (chars : Nat → UInt8) : Prop where
  ended : ∃ k < size, chars k = 0
  comma : 0x2C ∉ cString size chars
  star : 0x2A ∉ cString size chars

/-- A device whose type is known, with a date, a time of day and strings. -/
structure DevInfo.Proper (info : DevInfo) : Prop where
  hardwareType : info.hardwareType ≠ isHardwareTypeUnknown
  buildType : info.buildType ≠ 0
  month : 1 ≤ info.buildMonth.toNat ∧ info.buildMonth.toNat ≤ 12
  day : 1 ≤ info.buildDay.toNat ∧ info.buildDay.toNat ≤ 31
  hour : info.buildHour.toNat < 24
  minute : info.buildMinute.toNat < 60
  second : info.buildSecond.toNat < 60
  manufacturer : ProperString devinfoManufacturerStrlen info.manufacturer
  addInfo : ProperString devinfoAddinfoStrlen info.addInfo

/-- What is read is what was printed, in all fields. -/
structure DevInfo.Restores (info new : DevInfo) : Prop where
  serialNumber : new.serialNumber = info.serialNumber
  hardwareVer : new.hardwareVer = info.hardwareVer
  firmwareVer : new.firmwareVer = info.firmwareVer
  buildNumber : new.buildNumber = info.buildNumber
  protocolVer : new.protocolVer = info.protocolVer
  repoRevision : new.repoRevision = info.repoRevision
  manufacturer : cString devinfoManufacturerStrlen new.manufacturer =
    cString devinfoManufacturerStrlen info.manufacturer
  buildYear : new.buildYear = info.buildYear
  buildMonth : new.buildMonth = info.buildMonth
  buildDay : new.buildDay = info.buildDay
  buildHour : new.buildHour = info.buildHour
  buildMinute : new.buildMinute = info.buildMinute
  buildSecond : new.buildSecond = info.buildSecond
  buildMillisecond : new.buildMillisecond = info.buildMillisecond
  addInfo : cString devinfoAddinfoStrlen new.addInfo = cString devinfoAddinfoStrlen info.addInfo
  hardwareType : new.hardwareType = info.hardwareType
  reserved : new.reserved = info.reserved
  buildType : new.buildType = info.buildType

/-- The sentence that `nmea_dev_info` leaves in a buffer. -/
def DevInfo.built (info : DevInfo) (a : Nat → UInt8) (aSize : Nat) : Sentence where
  a := (nmeaDevInfo a aSize info).1
  aSize := (nmeaDevInfo a aSize info).2
  size := aSize

section RoundTrip

variable {info : DevInfo} {a : Nat → UInt8} {aSize : Nat}

private theorem plain_string {size : Nat} {chars : Nat → UInt8} (proper : ProperString size chars) :
    PlainText ((cString size chars).map Char.ofUInt8) := by
  intro c member
  obtain ⟨byte, inside, rfl⟩ := List.mem_map.mp member
  have same : (Char.ofUInt8 byte).toUInt8 = byte := UInt8.toUInt8_toUInt32 byte
  rw [same]
  refine ⟨?_, rfl⟩
  have null : byte ≠ 0 := by simpa using List.mem_takeWhile_imp inside
  have comma : byte ≠ 0x2C := fun found => proper.comma (found ▸ inside)
  have star : byte ≠ 0x2A := fun found => proper.star (found ▸ inside)
  simp [endsField, null, comma, star]

private theorem plain_intText (value : UInt32) : PlainText (intText value) := by
  unfold intText
  exact plain_decimal _

private theorem fields_plain (proper : info.Proper) : ∀ field ∈ info.fields, PlainText field := by
  unfold DevInfo.fields
  refine List.forall_mem_cons.mpr ⟨plain_intText _, ?_⟩
  refine List.forall_mem_cons.mpr ⟨plain_ver _, ?_⟩
  refine List.forall_mem_cons.mpr ⟨plain_ver _, ?_⟩
  refine List.forall_mem_cons.mpr ⟨plain_intText _, ?_⟩
  refine List.forall_mem_cons.mpr ⟨plain_ver _, ?_⟩
  refine List.forall_mem_cons.mpr ⟨plain_intText _, ?_⟩
  refine List.forall_mem_cons.mpr ⟨plain_string proper.manufacturer, ?_⟩
  refine List.forall_mem_cons.mpr ⟨plain_date, ?_⟩
  refine List.forall_mem_cons.mpr ⟨plain_time, ?_⟩
  refine List.forall_mem_cons.mpr ⟨plain_string proper.addInfo, ?_⟩
  refine List.forall_mem_cons.mpr ⟨plain_decimal _, ?_⟩
  refine List.forall_mem_cons.mpr ⟨plain_decimal _, ?_⟩
  exact fun field none => absurd none List.not_mem_nil

/-- The fields and the build type are read from the sentence. -/
private theorem built_read (proper : info.Proper) (room : info.text.length + 5 < aSize) : ∃ next,
    (info.built a aSize).readFields 12 6 =
        some (info.fields.map fun field => (textBytes field, field.length + 1), next) ∧
      next < aSize ∧ (info.built a aSize).a next = info.buildType := by
  have sentence : [info.draft].flatMap Draft.sentence =
      info.text ++ Printer.footerText (Comm.byteXor (textBytes (info.text.drop 1))) := by
    simp [Draft.sentence, Draft.shown, DevInfo.draft, Head.shown]
  have length : ([info.draft].flatMap Draft.sentence).length = info.text.length + 5 := by
    rw [sentence, List.length_append, Printer.footerText_length]
  obtain ⟨count, shown⟩ := printDrafts_printed a (show ([info.draft].flatMap Draft.sentence).length < aSize by omega)
  dsimp only at count shown
  rw [count] at shown
  have all : (info.built a aSize).Shows 0 ([info.draft].flatMap Draft.sentence) := by
    refine shows_of_window ?_ ?_
    · unfold DevInfo.built
      rw [nmeaDevInfo_eq]
      exact shown
    · change 0 + _ ≤ aSize
      omega
  rw [sentence] at all
  generalize Printer.footerText (Comm.byteXor (textBytes (info.text.drop 1))) = footer at all
  obtain ⟨next, read, inside, here⟩ := readFields_between (fields_plain proper) all
  refine ⟨next, read, inside, here.trans ?_⟩
  rw [if_pos proper.buildType]
  exact UInt8.toUInt8_toUInt32 _

/-- What is read is the device, with the first two digits of its milliseconds. -/
private theorem parsed_eq (proper : info.Proper) (room : info.text.length + 5 < aSize)
    (stale : Nat → Int) (before : DevInfo) :
    nmeaParseInfo stale (info.built a aSize) before =
      some { info with
        manufacturer := asciiToCharArray before.manufacturer
          (cString devinfoManufacturerStrlen info.manufacturer)
          ((cString devinfoManufacturerStrlen info.manufacturer).length + 1) devinfoManufacturerStrlen
        buildMillisecond := UInt8.ofNat (if info.buildMillisecond.toNat < 100 then
          info.buildMillisecond.toNat else info.buildMillisecond.toNat / 10)
        addInfo := asciiToCharArray before.addInfo (cString devinfoAddinfoStrlen info.addInfo)
          ((cString devinfoAddinfoStrlen info.addInfo).length + 1) devinfoAddinfoStrlen } := by
  obtain ⟨next, read, inside, type⟩ := @built_read info a aSize proper room
  have small {value : Nat} (byte : value < 2 ^ 16) : atoi (textBytes (decimal value)) = value :=
    atoi_decimal_int (by omega) (by omega)
  have dates := @date_values info (by have := proper.month; omega) (by have := proper.day; omega)
  have times := @time_values info (by have := proper.hour; omega) (by have := proper.minute; omega)
    (by have := proper.second; omega)
  have early : ¬ (info.built a aSize).size ≤ next := Nat.not_le.mpr inside
  have known : ∀ new : DevInfo, new.hardwareType = info.hardwareType → new.populateMissingHardware = new :=
    fun new same => if_pos (same ▸ proper.hardwareType)
  unfold DevInfo.fields at read
  simp only [List.map_cons, List.map_nil] at read
  unfold nmeaParseInfo
  rw [read]
  dsimp only
  rw [if_neg early, plain_date.chars, plain_time.chars, dates, times, type, if_neg proper.buildType]
  have year {first second third : Int} : assigned stale [first, second, third] 0 = first := rfl
  rw [year, year_restored]
  simp only [uint32_restored, ver_restored, small (UInt16.toNat_lt info.reserved),
    small ((UInt8.toNat_lt info.hardwareType).trans (by decide)), uint8_ofInt, uint16_ofInt, assigned,
    List.getElem?_cons_zero, List.getElem?_cons_succ, Option.getD_some, textBytes_ofUInt8, List.length_map,
    byte_ofInt (cut_small info.buildMillisecond)]
  exact congrArg some (known _ rfl)

/-- Milliseconds of three digits are printed whole and read by their first two. -/
theorem devInfo_restored_iff (proper : info.Proper) (room : info.text.length + 5 < aSize)
    (stale : Nat → Int) (before : DevInfo) :
    (∃ new, nmeaParseInfo stale (info.built a aSize) before = some new ∧ info.Restores new) ↔
      info.buildMillisecond.toNat < 100 := by
  rw [parsed_eq proper room]
  constructor
  · rintro ⟨new, found, restored⟩
    by_contra long
    have cut := congrArg UInt8.toNat restored.buildMillisecond
    obtain rfl := Option.some.inj found
    have byte := UInt8.toNat_lt info.buildMillisecond
    dsimp only at cut
    rw [if_neg long, UInt8.toNat_ofNat'] at cut
    omega
  · intro short
    refine ⟨_, rfl, ⟨rfl, rfl, rfl, rfl, rfl, rfl, ?_, rfl, rfl, rfl, rfl, rfl, rfl, ?_, ?_, rfl, rfl, rfl⟩⟩
    · exact cString_restored proper.manufacturer.ended _
    · dsimp only
      rw [if_pos short, UInt8.ofNat_toNat]
    · exact cString_restored proper.addInfo.ended _

/-- A device at the ends of its ranges. -/
def sampleDevice : DevInfo where
  reserved := 0xFFFF
  hardwareType := 5
  serialNumber := 0xFFFFFFFF
  hardwareVer := ⟨5, 0, 255, 1⟩
  firmwareVer := ⟨2, 3, 0, 0⟩
  buildNumber := 0x80000000
  protocolVer := ⟨2, 0, 8, 4⟩
  repoRevision := 0xCAFEBABE
  manufacturer := fun k => if k < 23 then 0x49 else 0
  buildType := 0x72
  buildYear := 25
  buildMonth := 12
  buildDay := 31
  buildHour := 23
  buildMinute := 59
  buildSecond := 59
  buildMillisecond := 99
  addInfo := fun _ => 0

private theorem sampleDevice_proper : sampleDevice.Proper where
  hardwareType := by decide
  buildType := by decide
  month := by decide
  day := by decide
  hour := by decide
  minute := by decide
  second := by decide
  manufacturer := ⟨⟨23, by decide, by decide⟩, by decide +kernel, by decide +kernel⟩
  addInfo := ⟨⟨0, by decide, by decide⟩, by decide +kernel, by decide +kernel⟩

theorem devInfo_restored_sample : ∃ new,
    nmeaParseInfo (fun _ => 0) (sampleDevice.built (fun _ => 0) 1024) sampleDevice = some new ∧
      sampleDevice.Restores new :=
  (devInfo_restored_iff sampleDevice_proper (by decide +kernel) _ _).mpr (by decide)

/-- 255 milliseconds are read as 25. -/
theorem devInfo_milliseconds : ¬ ∀ (info : DevInfo) (a : Nat → UInt8) (aSize : Nat) (stale : Nat → Int)
    (before : DevInfo), info.Proper → info.text.length + 5 < aSize →
      ∃ new, nmeaParseInfo stale (info.built a aSize) before = some new ∧ info.Restores new := by
  intro restores
  let late : DevInfo := { sampleDevice with buildMillisecond := 255 }
  have proper : late.Proper := { sampleDevice_proper with }
  have room : late.text.length + 5 < 1024 := by decide +kernel
  obtain ⟨new, found, restored⟩ := restores late (fun _ => 0) 1024 (fun _ => 0) late proper room
  rw [parsed_eq proper room] at found
  have cut := restored.buildMillisecond
  rw [← Option.some.inj found] at cut
  exact absurd cut (by decide)

end RoundTrip
end InertialSense.Nmea
