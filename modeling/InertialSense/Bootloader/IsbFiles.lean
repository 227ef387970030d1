import InertialSense.Bootloader.Isb
import InertialSense.Ihex.Denotation

/-! The files that `process_hex_file` is made for: their lines, what the loop reads in each of them,
and where their bytes belong. -/

namespace InertialSense.Bootloader.Isb

open Foundation Ihex

def Digits (chars bytes : List UInt8) : Prop := hexBytes (chars.map Char.ofUInt8) = some bytes

/-- The line of a record: a page is set without an address. -/
def RecordWritten (line : List UInt8) : HexRecord → Prop
  | .data addr bytes =>
    RecordLine 0 addr bytes (line.map Char.ofUInt8) ∧ addr.toNat + bytes.length ≤ 65536
  | .extendedAddress upper =>
    RecordLine 4 0 [(upper >>> 8).toUInt8, upper.toUInt8] (line.map Char.ofUInt8)

/-- How a line ends in a file. -/
def endings : List (List UInt8) := [[0x0A], [0x0D, 0x0A]]

/-- The characters of records, and of an end-of-file record behind them. -/
inductive ImageFile : List HexRecord → List UInt8 → Prop where
  | last {addr : UInt16} {line ending : List UInt8}
      (written : RecordLine 1 addr [] (line.map Char.ofUInt8)) (ends : ending ∈ [] :: endings) :
      ImageFile [] (line ++ ending)
  | record {record : HexRecord} {line ending : List UInt8} {records : List HexRecord}
      {file : List UInt8} (written : RecordWritten line record) (ends : ending ∈ endings)
      (rest : ImageFile records file) : ImageFile (record :: records) (line ++ ending ++ file)

/-- The lines of records, and of the last one. -/
inductive ImageLines : List HexRecord → List (List UInt8) → Prop where
  | last {addr : UInt16} {line : List UInt8}
      (written : RecordLine 1 addr [] (line.map Char.ofUInt8)) : ImageLines [] [line]
  | record {record : HexRecord} {line : List UInt8} {records : List HexRecord}
      {lines : List (List UInt8)} (written : RecordWritten line record)
      (rest : ImageLines records lines) : ImageLines (record :: records) (line :: lines)

def writesOf (page : Nat) : List HexRecord → List (Nat × UInt8)
  | [] => []
  | .data addr bytes :: rest => placed (65536 * page + addr.toNat) bytes ++ writesOf page rest
  | .extendedAddress upper :: rest => writesOf upper.toNat rest

/-- Addresses go up from a limit in this page on, and each page is set once, as one digit. The first
page may be set before there is data. -/
def Ascending (appOffset : Nat) : Nat → Nat → List HexRecord → Prop
  | _, _, [] => True
  | page, limit, .data addr bytes :: rest =>
    if bytes = [] then Ascending appOffset page limit rest
    else limit ≤ 65536 * page + addr.toNat ∧
      Ascending appOffset page (65536 * page + addr.toNat + bytes.length) rest
  | page, limit, .extendedAddress upper :: rest =>
    if upper.toNat = 0 then page = 0 ∧ limit = appOffset ∧ Ascending appOffset page limit rest
    else page < upper.toNat ∧ upper.toNat < 16 ∧
      Ascending appOffset upper.toNat (65536 * upper.toNat) rest

/-- Each page that is set follows the one before. -/
def Adjoining : Nat → List HexRecord → Prop
  | _, [] => True
  | page, .data _ _ :: rest => Adjoining page rest
  | page, .extendedAddress upper :: rest =>
    (upper.toNat = 0 ∨ upper.toNat = page + 1) ∧ Adjoining upper.toNat rest

def endOf (page limit : Nat) : List HexRecord → Nat × Nat
  | [] => (page, limit)
  | .data addr bytes :: rest =>
    if bytes = [] then endOf page limit rest
    else endOf page (65536 * page + addr.toNat + bytes.length) rest
  | .extendedAddress upper :: rest =>
    if upper.toNat = 0 then endOf page limit rest
    else endOf upper.toNat (65536 * upper.toNat) rest

section Content

private theorem writes_parts (content : HexContent) : content.writes =
    content.leading ++ content.segments.flatMap fun part => shifted part.base part.writes := by
  have still (writes : List (Nat × UInt8)) : shifted 0 writes = writes := by
    unfold shifted
    simp
  unfold HexContent.writes HexContent.parts
  split
  case isTrue none => rw [none, List.nil_append]
  case isFalse some =>
    rw [List.flatMap_cons]
    show shifted (0 * 65536) content.leading ++ _ = _
    rw [Nat.zero_mul, still]

private theorem shifted_placed (base start : Nat) (bytes : List UInt8) :
    shifted base (placed start bytes) = placed (base + start) bytes := by
  induction bytes generalizing start with
  | nil => rfl
  | cons byte rest ih =>
    show (base + start, byte) :: shifted base (placed (start + 1) rest) = _
    rw [ih]
    rfl

private theorem writesOf_parts (page : Nat) (records : List HexRecord) : writesOf page records =
    shifted (65536 * page) (contentOf records).leading ++
      (contentOf records).segments.flatMap fun part => shifted part.base part.writes := by
  induction records generalizing page with
  | nil => rfl
  | cons record rest ih =>
    cases record with
    | data addr bytes =>
      show placed _ bytes ++ writesOf page rest =
        shifted (65536 * page) (placed addr.toNat bytes ++ (contentOf rest).leading) ++ _
      rw [ih, ← List.append_assoc, ← shifted_placed]
      unfold shifted
      rw [List.map_append]
      rfl
    | extendedAddress upper =>
      show writesOf upper.toNat rest = shifted (65536 * page) [] ++ _
      rw [ih, Nat.mul_comm]
      rfl

/-- The bytes of the records are those of the file. -/
theorem writesOf_zero (records : List HexRecord) :
    writesOf 0 records = (contentOf records).writes := by
  rw [writes_parts, writesOf_parts]
  congr 1
  unfold shifted
  simp

end Content

section Digits

variable {chars chars' bytes bytes' : List UInt8}

theorem Digits.length (digits : Digits chars bytes) : chars.length = 2 * bytes.length := by
  have size := hexBytes_length digits
  rwa [List.length_map] at size

theorem Digits.append (digits : Digits chars bytes) (digits' : Digits chars' bytes') :
    Digits (chars ++ chars') (bytes ++ bytes') := by
  unfold Digits
  rw [List.map_append]
  exact hexBytes_append digits digits'

theorem Digits.take (digits : Digits chars bytes) (count : Nat) :
    Digits (chars.take (2 * count)) (bytes.take count) ∧
      Digits (chars.drop (2 * count)) (bytes.drop count) := by
  by_cases few : count ≤ bytes.length
  · have whole : hexBytes (chars.map Char.ofUInt8) = some (bytes.take count ++ bytes.drop count) := by
      rwa [List.take_append_drop]
    have split := hexBytes_split whole
    rw [List.length_take_of_le few, ← List.map_take, ← List.map_drop] at split
    exact split
  · have long : chars.length ≤ 2 * count := by
      rw [digits.length]
      omega
    rw [List.take_of_length_le long, List.take_of_length_le (by omega), List.drop_of_length_le long,
      List.drop_of_length_le (by omega)]
    exact ⟨digits, rfl⟩

theorem digits_nil : Digits [] [] := rfl

theorem Digits.cons {byte : UInt8} (digits : Digits chars (byte :: bytes)) :
    ∃ high low rest, chars = high :: low :: rest ∧ Digits [high, low] [byte] ∧ Digits rest bytes := by
  have length := digits.length
  rw [List.length_cons] at length
  match chars, length with
  | high :: low :: rest, _ =>
    obtain ⟨one, others⟩ := digits.take 1
    exact ⟨high, low, rest, rfl, one, others⟩

/-- Unused memory. -/
theorem digits_unused (count : Nat) :
    Digits (List.replicate (2 * count) 0x46) (List.replicate count 0xFF) := by
  induction count with
  | zero => rfl
  | succ count ih =>
    have pair : Digits [0x46, 0x46] [0xFF] := by
      unfold Digits
      decide
    exact pair.append ih

end Digits

/-! ### The lines that are read -/

private theorem isIsbReadLine_plain {line : List UInt8} {room : Nat} (rest : List UInt8)
    (plain : ∀ c ∈ line, c ∉ [0x0D, 0x0A, 0xFF]) (fits : line.length ≤ room) :
    isIsbReadLine room (line ++ rest) =
      (line ++ (isIsbReadLine (room - line.length) rest).1,
        (isIsbReadLine (room - line.length) rest).2) := by
  induction line generalizing room with
  | nil => rfl
  | cons c line ih =>
    obtain ⟨room, rfl⟩ := Nat.exists_eq_succ_of_ne_zero (Nat.ne_zero_of_lt fits)
    obtain ⟨other, plain⟩ := List.forall_mem_cons.mp plain
    simp only [List.mem_cons, List.not_mem_nil, or_false, not_or] at other
    rw [List.cons_append, isIsbReadLine, if_neg other.1, if_neg (not_or.mpr other.2),
      ih plain (Nat.le_of_succ_le_succ fits), List.length_cons, Nat.succ_sub_succ]
    rfl

private theorem isIsbReadLine_line {line ending : List UInt8}
    (plain : ∀ c ∈ line, c ∉ [0x0D, 0x0A, 0xFF]) (ends : ending ∈ endings)
    (short : line.length < 1023) (rest : List UInt8) :
    isIsbReadLine 1023 (line ++ ending ++ rest) = (line, rest) := by
  obtain ⟨room, more⟩ := Nat.exists_eq_add_of_lt short
  have left : 1023 - line.length = room + 1 := by omega
  rw [List.append_assoc, isIsbReadLine_plain _ plain (Nat.le_of_lt short), left]
  simp only [endings, List.mem_cons, List.not_mem_nil, or_false] at ends
  obtain rfl | rfl := ends <;> simp [isIsbReadLine]

private theorem record_plain {type : UInt8} {addr : UInt16} {data line : List UInt8}
    (written : RecordLine type addr data (line.map Char.ofUInt8)) :
    ∀ c ∈ line, c ∉ [0x0D, 0x0A, 0xFF] := by
  obtain ⟨-, cksum, digits, same, hex, -⟩ := written
  intro c member
  have inside : Char.ofUInt8 c ∈ ':' :: digits := same ▸ List.mem_map_of_mem member
  have digit : Char.ofUInt8 c = ':' ∨ Char.ofUInt8 c ∈ hexDigits := by
    obtain colon | later := List.mem_cons.mp inside
    · exact .inl colon
    · exact .inr (hexValue_mem (hexBytes_digits hex _ later))
  intro other
  simp only [List.mem_cons, List.not_mem_nil, or_false] at other
  obtain rfl | rfl | rfl := other <;> revert digit <;> decide

private theorem record_length {type : UInt8} {addr : UInt16} {data line : List UInt8}
    (written : RecordLine type addr data (line.map Char.ofUInt8)) :
    line.length = 11 + 2 * data.length ∧ data.length < 256 := by
  have length := written.length
  rw [List.length_map] at length
  exact ⟨length, written.1⟩

private theorem written_length {line : List UInt8} {record : HexRecord}
    (written : RecordWritten line record) :
    (∀ c ∈ line, c ∉ [0x0D, 0x0A, 0xFF]) ∧ 0 < line.length ∧ line.length < 1023 := by
  cases record with
  | data addr bytes =>
    have length := record_length written.1
    exact ⟨record_plain written.1, by omega, by omega⟩
  | extendedAddress upper =>
    have length := record_length written
    exact ⟨record_plain written, by omega, by omega⟩

theorem isbLines_image {records : List HexRecord} {file : List UInt8}
    (image : ImageFile records file) {count : Nat} (enough : file.length ≤ count) :
    ImageLines records (isbLines count file) := by
  induction image generalizing count with
  | last written ends =>
    rename_i addr line ending
    have length := record_length written
    have plain := record_plain written
    obtain ⟨count, rfl⟩ := Nat.exists_eq_succ_of_ne_zero (n := count) (by
      rintro rfl
      rw [List.length_append] at enough
      omega)
    have read : isIsbReadLine 1023 (line ++ ending) = (line, []) := by
      obtain rfl | ends := List.mem_cons.mp ends
      · have whole := isIsbReadLine_plain [] plain (show line.length ≤ 1023 by omega)
        obtain ⟨room, more⟩ := Nat.exists_eq_add_of_lt (show line.length < 1023 by omega)
        rw [show 1023 - line.length = room + 1 by omega] at whole
        rw [whole]
        simp [isIsbReadLine]
      · have whole := isIsbReadLine_line plain ends (by omega) []
        rwa [List.append_nil] at whole
    have behind : isbLines count [] = [] := by
      cases count <;> rfl
    unfold isbLines
    rw [read]
    dsimp only
    rw [if_neg (by omega), behind]
    exact .last written
  | record written ends rest ih =>
    obtain ⟨plain, some, short⟩ := written_length written
    rw [List.length_append, List.length_append] at enough
    obtain ⟨count, rfl⟩ := Nat.exists_eq_succ_of_ne_zero (n := count) (by omega)
    unfold isbLines
    rw [isIsbReadLine_line plain ends short]
    dsimp only
    rw [if_neg (by omega)]
    exact .record written (ih (by omega))

/-! ### The fields of a line -/

section Fields

variable {type : UInt8} {addr : UInt16} {data line : List UInt8}

/-- A line is its mark, the digits of its head, those of its data and those of its checksum. -/
private theorem record_split (written : RecordLine type addr data (line.map Char.ofUInt8)) :
    ∃ a b c d e f g h chars check,
      line = 0x3A :: a :: b :: c :: d :: e :: f :: g :: h :: (chars ++ check) ∧
        Digits [a, b] [UInt8.ofNat data.length] ∧
        Digits [c, d, e, f] [(addr >>> 8).toUInt8, addr.toUInt8] ∧ Digits [g, h] [type] ∧
        Digits chars data ∧ check.length = 2 := by
  obtain ⟨-, cksum, digits, same, hex, -⟩ := written
  obtain ⟨mark, rest, rfl, colon, rfl⟩ := List.map_eq_cons_iff.mp same
  have mark_eq : mark = 0x3A := by
    have all : (List.range 256).all fun c =>
        Char.ofUInt8 (UInt8.ofNat c) = ':' → UInt8.ofNat c = 0x3A := by decide +kernel
    have known := of_decide_eq_true
      (List.all_eq_true.mp all mark.toNat (List.mem_range.mpr mark.toNat_lt))
    rw [UInt8.ofNat_toNat] at known
    exact known colon
  obtain ⟨a, b, rest, rfl, count, hex⟩ := Digits.cons hex
  obtain ⟨c, d, rest, rfl, high, hex⟩ := hex.cons
  obtain ⟨e, f, rest, rfl, low, hex⟩ := hex.cons
  obtain ⟨g, h, rest, rfl, kind, hex⟩ := hex.cons
  obtain ⟨body, check⟩ := hex.take data.length
  rw [List.take_left] at body
  rw [List.drop_left] at check
  refine ⟨a, b, c, d, e, f, g, h, rest.take (2 * data.length), rest.drop (2 * data.length), ?_,
    count, high.append low, kind, body, check.length⟩
  rw [mark_eq, List.take_append_drop]

private theorem digit_eq {c : UInt8} {value : Nat} (small : value < 10)
    (digit : hexValue (Char.ofUInt8 c) = some value) : c = UInt8.ofNat (0x30 + value) := by
  have all : (List.range 256).all fun c => (hexValue (Char.ofUInt8 (UInt8.ofNat c))).all fun value =>
      value < 10 → UInt8.ofNat c = UInt8.ofNat (0x30 + value) := by decide +kernel
  have known := List.all_eq_true.mp all c.toNat (List.mem_range.mpr c.toNat_lt)
  rw [UInt8.ofNat_toNat, digit] at known
  exact of_decide_eq_true known small

theorem pair_values {high low byte : UInt8} (pair : Digits [high, low] [byte]) :
    ∃ first second, hexValue (Char.ofUInt8 high) = some first ∧
      hexValue (Char.ofUInt8 low) = some second ∧ byte.toNat = 16 * first + second ∧
      first < 16 ∧ second < 16 := by
  obtain ⟨_, _, _, first, second, same, one, two, value, -⟩ := hexBytes_cons pair
  obtain ⟨rfl, rest⟩ := List.cons.inj same
  obtain ⟨rfl, -⟩ := List.cons.inj rest
  exact ⟨first, second, one, two, value, hexValue_lt one, hexValue_lt two⟩

private theorem pair_small {high low byte : UInt8} (pair : Digits [high, low] [byte])
    (digit : UInt8) (small : byte.toNat < 10) (same : UInt8.ofNat (0x30 + byte.toNat) = digit) :
    high = 0x30 ∧ low = digit := by
  obtain ⟨first, second, one, two, value, -, -⟩ := pair_values pair
  have zero : first = 0 := by omega
  have rest : second = byte.toNat := by omega
  subst zero rest
  exact ⟨digit_eq (by decide) one, (digit_eq small two).trans same⟩

private theorem half_pairs {a b c d high low : UInt8} (digits : Digits [a, b, c, d] [high, low]) :
    Digits [a, b] [high] ∧ Digits [c, d] [low] := digits.take 1

private theorem digits_number {chars bytes : List UInt8} (digits : Digits chars bytes)
    (some : chars ≠ []) (short : chars.length < 16) :
    (strtol 16 (chars.map Char.ofUInt8)).1 = numberOf 16 0 (chars.map Char.ofUInt8) := by
  have less := numberOf_lt 0 (chars.map Char.ofUInt8)
  rw [Nat.zero_add, Nat.mul_one, List.length_map] at less
  have small := less.trans_le (Nat.pow_le_pow_right (by decide) (Nat.le_of_lt_succ short))
  rw [strtol_hexDigits (mt List.map_eq_nil_iff.mp some) (hexBytes_digits digits)
    (small.trans (by decide))]

theorem half_number {a b c d high low : UInt8} (digits : Digits [a, b, c, d] [high, low]) :
    (strtol 16 ([a, b, c, d].map Char.ofUInt8)).1 = (256 * high.toNat + low.toNat : Nat) := by
  rw [digits_number digits (List.cons_ne_nil _ _) (show 4 < 16 by decide)]
  obtain ⟨first, rest⟩ := half_pairs digits
  obtain ⟨one, two, found, found', value, -, -⟩ := pair_values first
  obtain ⟨three, four, found'', found''', value', -, -⟩ := pair_values rest
  simp only [List.map_cons, List.map_nil, numberOf, found, found', found'', found''',
    Option.getD_some]
  omega

/-- What the loop reads in a line of data. -/
theorem data_fields (written : RecordLine 0 addr data (line.map Char.ofUInt8)) :
    isData line = decide (data ≠ []) ∧ isSegment line = false ∧ isLast line = false ∧
      subOffsetOf line = addr.toNat ∧ line.length = 11 + 2 * data.length ∧
      Digits ((line.drop 9).take (line.length - 11)) data := by
  obtain ⟨length, -⟩ := record_length written
  obtain ⟨a, b, c, d, e, f, g, h, chars, check, rfl, -, place, kind, body, two⟩ :=
    record_split written
  obtain ⟨rfl, rfl⟩ := pair_small kind 0x30 (by decide) (by decide)
  have some : 12 < 11 + 2 * data.length ↔ data ≠ [] := by
    rw [← List.length_pos_iff]
    omega
  refine ⟨?_, ?_, ?_, ?_, length, ?_⟩
  · unfold isData
    rw [length]
    exact decide_eq_decide.mpr ((and_iff_left ⟨rfl, rfl⟩).trans some)
  · unfold isSegment
    refine decide_eq_false fun ⟨same, _⟩ => ?_
    simp at same
  · unfold isLast
    refine decide_eq_false fun ⟨_, _, same⟩ => ?_
    simp at same
  · show (strtol 16 ([c, d, e, f].map Char.ofUInt8)).1 = _
    rw [half_number place, halves_toNat]
  · have size := body.length
    rw [length, show 11 + 2 * data.length - 11 = chars.length by omega]
    show Digits ((chars ++ check).take chars.length) data
    rwa [List.take_left]

/-- What the loop reads in the line of a page. -/
theorem page_fields {upper : UInt16} (few : upper.toNat < 16)
    (written : RecordLine 4 0 [(upper >>> 8).toUInt8, upper.toUInt8] (line.map Char.ofUInt8)) :
    isData line = false ∧ isSegment line = true ∧ pageOf line = upper.toNat := by
  have plain := record_plain written
  have chars_ne := written.plain
  obtain ⟨length, -⟩ := record_length written
  obtain ⟨a, b, c, d, e, f, g, h, chars, check, rfl, count, place, kind, body, two⟩ :=
    record_split written
  obtain ⟨rfl, rfl⟩ := pair_small kind 0x34 (by decide) (by decide)
  obtain ⟨rfl, rfl⟩ := pair_small count 0x32 (show 2 < 10 by decide) rfl
  obtain ⟨first, rest⟩ := half_pairs place
  obtain ⟨rfl, rfl⟩ := pair_small first 0x30 (by decide) (by decide)
  obtain ⟨rfl, rfl⟩ := pair_small rest 0x30 (by decide) (by decide)
  have halves := halves_toNat upper
  obtain ⟨i, j, _, rfl, high, low⟩ := body.cons
  obtain ⟨k, l, _, rfl, low, none⟩ := low.cons
  have small : (upper >>> 8).toUInt8.toNat = 0 := by omega
  obtain ⟨rfl, rfl⟩ := pair_small high 0x30 (by omega) (by rw [small]; rfl)
  obtain ⟨first, page, found, found', value, -, -⟩ := pair_values low
  have none : first = 0 := by omega
  subst none
  obtain rfl := digit_eq (by decide) found
  refine ⟨?_, ?_, ?_⟩
  · unfold isData
    refine decide_eq_false fun ⟨_, _, same⟩ => ?_
    simp at same
  · unfold isSegment
    refine decide_eq_true ⟨rfl, ?_⟩
    rw [List.takeWhile_eq_self_iff.mpr, length]
    · exact show 13 ≤ 11 + 2 * 2 by decide
    intro c member
    refine decide_eq_true fun ended => ?_
    subst ended
    exact chars_ne _ (List.mem_map_of_mem member) (by decide)
  · unfold pageOf
    have number : numberOf 16 0 [Char.ofUInt8 l] = upper.toNat := by
      simp only [numberOf, found', Option.getD_some]
      omega
    have digit : ∀ digit ∈ [Char.ofUInt8 l], (hexValue digit).isSome := by
      simp [found']
    show (strtol 16 [Char.ofUInt8 l]).1 = _
    rw [strtol_hexDigits (List.cons_ne_nil _ _) digit (by omega), number]

/-- What the loop reads in the last line. -/
theorem last_fields (written : RecordLine 1 addr [] (line.map Char.ofUInt8)) :
    isData line = false ∧ isSegment line = false ∧ isLast line = true := by
  obtain ⟨length, -⟩ := record_length written
  obtain ⟨a, b, c, d, e, f, g, h, chars, check, rfl, -, -, kind, -, -⟩ := record_split written
  obtain ⟨rfl, rfl⟩ := pair_small kind 0x31 (by decide) (by decide)
  refine ⟨?_, ?_, ?_⟩
  · unfold isData
    refine decide_eq_false fun ⟨_, _, same⟩ => ?_
    simp at same
  · unfold isSegment
    refine decide_eq_false fun ⟨same, _⟩ => ?_
    simp at same
  · unfold isLast
    refine decide_eq_true ⟨?_, rfl, rfl⟩
    rw [length]
    decide

end Fields

end InertialSense.Bootloader.Isb
