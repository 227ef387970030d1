import InertialSense.Ihex.Model
import InertialSense.Foundation.AddressMap

/-! The records of an Intel HEX file, the text they are written as, and the addresses they give
their bytes. -/

namespace InertialSense.Ihex

open Foundation

/-- A data record, or one that sets the upper half of the addresses behind it. -/
inductive HexRecord where
  | data (addr : UInt16) (bytes : List UInt8)
  | extendedAddress (upper : UInt16)

def lineBytes (type : UInt8) (addr : UInt16) (data : List UInt8) (cksum : UInt8) : List UInt8 :=
  UInt8.ofNat data.length :: (addr >>> 8).toUInt8 :: addr.toUInt8 :: type :: (data ++ [cksum])

/-- What the variables hold once the line of a record has been read. -/
def Scanned.after (old : Scanned) (type : UInt8) (addr : UInt16) (data : List UInt8) : Scanned where
  addr := addr.toNat
  n := data.length
  status := type.toNat
  bytes := store old.bytes 0 data

/-- A line of a record, without its end. -/
def RecordLine (type : UInt8) (addr : UInt16) (data : List UInt8) (line : List Char) : Prop :=
  data.length < 256 ∧ ∃ cksum digits, line = ':' :: digits ∧
    hexBytes digits = some (lineBytes type addr data cksum) ∧
    ((lineBytes type addr data cksum).map UInt8.toNat).sum % 256 = 0

/-- The line of this record, whose data does not wrap. -/
def HexRecord.Line : HexRecord → List Char → Prop
  | .data addr bytes, line => RecordLine 0 addr bytes line ∧ addr.toNat + bytes.length ≤ 65536
  | .extendedAddress upper, line =>
    ∃ addr, RecordLine 4 addr [(upper >>> 8).toUInt8, upper.toUInt8] line

/-- How a line may end. -/
def lineEnds : List (List Char) := [['\n'], ['\r', '\n']]

/-- The text of such records and of an end-of-file record. -/
inductive HexText : List HexRecord → List Char → Prop where
  | last {addr : UInt16} {line ending : List Char} (written : RecordLine 1 addr [] line)
      (ends : ending ∈ [] :: lineEnds) : HexText [] (line ++ ending)
  | record {record : HexRecord} {line ending : List Char} {records : List HexRecord}
      {text : List Char} (written : record.Line line) (short : line.length < 511)
      (ends : ending ∈ lineEnds) (rest : HexText records text) :
      HexText (record :: records) (line ++ ending ++ text)

/-- The bytes between two records that set the upper half of the addresses. -/
structure Segment where
  upper : UInt16
  writes : List (Nat × UInt8)

/-- The bytes of a file: those before any upper half is set, and its segments. -/
structure HexContent where
  leading : List (Nat × UInt8)
  segments : List Segment

def contentOf : List HexRecord → HexContent
  | [] => { leading := [], segments := [] }
  | .data addr bytes :: rest =>
    { contentOf rest with leading := placed addr.toNat bytes ++ (contentOf rest).leading }
  | .extendedAddress upper :: rest =>
    { leading := []
      segments := { upper, writes := (contentOf rest).leading } :: (contentOf rest).segments }

section Line

variable {type : UInt8} {addr : UInt16} {data : List UInt8} {line : List Char}

theorem halves_toNat (half : UInt16) :
    256 * (half >>> 8).toUInt8.toNat + half.toUInt8.toNat = half.toNat := by
  have small : half.toNat < 65536 := half.toNat_lt
  simp only [UInt16.toNat_toUInt8, UInt16.toNat_shiftRight, UInt16.reduceToNat, Nat.reduceMod,
    Nat.shiftRight_eq_div_pow]
  omega

private theorem sum_toNat (bytes : List UInt8) :
    (bytes.map fun byte => (byte.toNat : Int)).sum = ((bytes.map UInt8.toNat).sum : Nat) := by
  induction bytes with
  | nil => rfl
  | cons byte rest ih =>
    rw [List.map_cons, List.sum_cons, ih, List.map_cons, List.sum_cons]
    omega

/-- The loop over the data bytes reads them one by one. -/
private theorem scanBytes_take {digits : List Char} {cksum : UInt8}
    (hex : hexBytes digits = some (lineBytes type addr data cksum)) (old : Nat → UInt8)
    (count : Nat) (within : count ≤ data.length) :
    scanBytes (':' :: digits) old count = some (data.take count) := by
  induction count with
  | zero => rfl
  | succ count ih =>
    have inside : 4 + count < (lineBytes type addr data cksum).length := by
      simp only [lineBytes, List.length_cons, List.length_append, List.length_nil]
      omega
    have place : (lineBytes type addr data cksum)[4 + count] = data[count] := by
      simp only [lineBytes, Nat.add_comm 4, List.getElem_cons_succ]
      exact List.getElem_append_left within
    have scanned := scanHex_at hex inside
    rw [place, show 2 * (4 + count) = 8 + 2 * count by omega] at scanned
    have drops : (':' :: digits).drop (9 + 2 * count) = digits.drop (8 + 2 * count) := by
      rw [show 9 + 2 * count = 8 + 2 * count + 1 by omega, List.drop_succ_cons]
    have small := data[count].toNat_lt
    have same : UInt8.ofInt data[count].toNat = data[count] := by
      have value : ((data[count].toNat : Int) % 2 ^ 8).toNat = data[count].toNat := by omega
      rw [UInt8.ofInt, value, UInt8.ofNat_toNat]
    rw [scanBytes, ih (Nat.le_of_succ_le within), drops, scanned,
      List.take_succ_eq_append_getElem within]
    simp only [Scan.stored, Option.bind_eq_bind, Option.bind_some, same]
    rfl

theorem parseHexLine_record (leftover : Leftover) (old : Scanned)
    (written : RecordLine type addr data line) :
    parseHexLine leftover old line = some (old.after type addr data) := by
  obtain ⟨short, cksum, digits, rfl, hex, sum⟩ := written
  have size := hexBytes_length hex
  have count : (lineBytes type addr data cksum).length = 5 + data.length := by
    simp only [lineBytes, List.length_cons, List.length_append, List.length_nil]
    omega
  rw [count] at size
  have length : (UInt8.ofNat data.length).toNat = data.length := by
    rw [UInt8.toNat_ofNat']
    omega
  -- the fields, one behind the other
  have len : scanHex 2 ((':' :: digits).drop 1) = .matched data.length := by
    have scanned := scanHex_at hex (show 0 < _ by omega)
    change scanHex 2 digits = .matched (UInt8.ofNat data.length).toNat at scanned
    rwa [length] at scanned
  have place : scanHex 4 ((':' :: digits).drop 3) = .matched addr.toNat := by
    have scanned := scanHex_half hex (show 1 + 1 < _ by omega)
    change scanHex 4 (digits.drop 2) =
      .matched ((256 * (addr >>> 8).toUInt8.toNat + addr.toUInt8.toNat : Nat) : Int) at scanned
    rwa [halves_toNat] at scanned
  have code : scanHex 2 ((':' :: digits).drop 7) = .matched type.toNat :=
    scanHex_at hex (show 3 < _ by omega)
  have bytes := scanBytes_take hex old.bytes data.length (Nat.le_refl _)
  rw [List.take_length] at bytes
  have check : scanHex 2 ((':' :: digits).drop (9 + 2 * data.length)) = .matched cksum.toNat := by
    have scanned := scanHex_at hex (show 4 + data.length < _ by omega)
    have last : (lineBytes type addr data cksum)[4 + data.length] = cksum := by
      simp [lineBytes, Nat.add_comm 4]
    rw [last, show 2 * (4 + data.length) = 8 + 2 * data.length by omega] at scanned
    rwa [show 9 + 2 * data.length = 8 + 2 * data.length + 1 by omega, List.drop_succ_cons]
  have total := sum_toNat data
  have halves := halves_toNat addr
  have high : (addr >>> 8).toUInt8.toNat < 256 := UInt8.toNat_lt _
  have low : addr.toUInt8.toNat < 256 := UInt8.toNat_lt _
  simp only [lineBytes, List.map_cons, List.map_append, List.map_nil, List.sum_cons,
    List.sum_append, List.sum_nil, length] at sum
  unfold parseHexLine
  have long : ¬((':' :: digits).head? ≠ some ':' ∨ (':' :: digits).length < 11) := by
    simp only [List.head?_cons, ne_eq, not_true_eq_false, false_or, List.length_cons, size]
    omega
  rw [if_neg long, len]
  simp only [Scan.stored, Option.bind_eq_bind, Option.bind_some]
  rw [if_neg (by simp only [List.length_cons, size]; omega)]
  simp only [place, code, Option.bind_some]
  rw [if_neg (by omega)]
  simp only [Int.toNat_natCast, bytes, check, Option.bind_some]
  rw [if_neg (by omega)]
  rfl

/-- Nothing in a line ends a line or a string. -/
theorem RecordLine.plain (written : RecordLine type addr data line) :
    ∀ c ∈ line, c ∉ ['\n', '\r', '\x00'] := by
  obtain ⟨-, cksum, digits, rfl, hex, -⟩ := written
  intro c member
  obtain rfl | inside := List.mem_cons.mp member
  · decide
  · have others := (hexValue_plain (hexBytes_digits hex c inside)).2
    simp only [List.mem_cons, List.not_mem_nil, or_false, not_or] at others ⊢
    exact ⟨others.2.2.2.2.2.1, others.2.2.2.2.2.2.1, others.2.2.2.2.2.2.2.1⟩

theorem RecordLine.length (written : RecordLine type addr data line) :
    line.length = 11 + 2 * data.length := by
  obtain ⟨-, cksum, digits, rfl, hex, -⟩ := written
  have size := hexBytes_length hex
  simp only [lineBytes, List.length_cons, List.length_append, List.length_nil] at size ⊢
  omega

end Line

section Reading

variable {line ending : List Char} (plain : ∀ c ∈ line, c ∉ ['\n', '\r', '\x00'])

private theorem takeLine_end {count : Nat} {line : List Char} (plain : ∀ c ∈ line, c ≠ '\n')
    (fits : line.length < count) (rest : List Char) :
    takeLine count (line ++ '\n' :: rest) = line ++ ['\n'] := by
  induction line generalizing count with
  | nil =>
    obtain ⟨count, rfl⟩ := Nat.exists_eq_succ_of_ne_zero (Nat.ne_of_gt fits)
    rfl
  | cons first others ih =>
    obtain ⟨count, rfl⟩ := Nat.exists_eq_succ_of_ne_zero (Nat.ne_zero_of_lt fits)
    obtain ⟨other, plain⟩ := List.forall_mem_cons.mp plain
    rw [List.cons_append, takeLine, if_neg other, ih plain (Nat.lt_of_succ_lt_succ fits)]
    rfl

private theorem takeLine_whole {count : Nat} {line : List Char} (plain : ∀ c ∈ line, c ≠ '\n')
    (fits : line.length ≤ count) : takeLine count line = line := by
  induction line generalizing count with
  | nil => cases count <;> rfl
  | cons first others ih =>
    obtain ⟨count, rfl⟩ := Nat.exists_eq_succ_of_ne_zero (Nat.ne_zero_of_lt fits)
    obtain ⟨other, plain⟩ := List.forall_mem_cons.mp plain
    rw [takeLine, if_neg other, ih plain (Nat.le_of_succ_le_succ fits)]

include plain

private theorem takeLine_line (ends : ending ∈ lineEnds) {count : Nat}
    (fits : line.length + ending.length ≤ count) (rest : List Char) :
    takeLine count (line ++ ending ++ rest) = line ++ ending := by
  have stays (c : Char) (member : c ∈ line) : c ≠ '\n' := by
    rintro rfl
    exact plain _ member (by decide)
  simp only [lineEnds, List.mem_cons, List.not_mem_nil, or_false] at ends
  obtain rfl | rfl := ends
  · rw [List.append_assoc]
    exact takeLine_end stays fits rest
  · have stays' : ∀ c ∈ line ++ ['\r'], c ≠ '\n' := by
      intro c member
      obtain inside | same := List.mem_append.mp member
      · exact stays c inside
      · rw [List.mem_singleton.mp same]
        decide
    have short : (line ++ ['\r']).length < count := by
      rw [List.length_append]
      exact Nat.lt_of_succ_le fits
    simpa using takeLine_end stays' short rest

theorem fgets_line (ends : ending ∈ lineEnds) (fits : line.length + ending.length ≤ 511)
    (rest : List Char) (atEnd : Bool) :
    HexFile.fgets { rest := line ++ ending ++ rest, atEnd } 512 =
      ({ rest, atEnd := false }, line ++ ending) := by
  have read := takeLine_line plain ends fits rest
  have newline : (line ++ ending).getLast? = some '\n' := by
    simp only [lineEnds, List.mem_cons, List.not_mem_nil, or_false] at ends
    obtain rfl | rfl := ends <;> simp
  simp only [HexFile.fgets, Nat.reduceSub, read, List.drop_left, newline]
  simp

theorem fgets_last (ends : ending ∈ [] :: lineEnds) (fits : line.length + ending.length ≤ 511)
    (atEnd : Bool) :
    (HexFile.fgets { rest := line ++ ending, atEnd } 512).2 = line ++ ending := by
  obtain rfl | ends := List.mem_cons.mp ends
  · rw [List.append_nil]
    refine takeLine_whole (fun c member => ?_) fits
    rintro rfl
    exact plain _ member (by decide)
  · have read := takeLine_line plain ends fits []
    rwa [List.append_nil] at read

/-- The end of a line is cut off. -/
theorem stringOf_line (ends : ending ∈ [] :: lineEnds) : stringOf (line ++ ending) = line := by
  have uncut {last : Char} (member : last ∈ ['\n', '\r', '\x00']) : chomp last line = line := by
    refine if_neg fun same => ?_
    exact plain last (List.mem_of_getLast? same) member
  have whole : (line ++ ending).takeWhile (· ≠ '\x00') = line ++ ending := by
    refine List.takeWhile_eq_self_iff.mpr fun c member => decide_eq_true ?_
    rintro rfl
    obtain inside | inside := List.mem_append.mp member
    · exact plain _ inside (by decide)
    · simp only [lineEnds, List.mem_cons, List.not_mem_nil, or_false] at ends
      obtain rfl | rfl | rfl := ends <;> exact absurd inside (by decide)
  rw [stringOf, whole]
  simp only [lineEnds, List.mem_cons, List.not_mem_nil, or_false] at ends
  obtain rfl | rfl | rfl := ends
  · rw [List.append_nil, uncut (by decide), uncut (by decide)]
  · rw [show chomp '\n' (line ++ ['\n']) = line by simp [chomp], uncut (by decide)]
  · rw [show chomp '\n' (line ++ ['\r', '\n']) = line ++ ['\r'] by
      simp [chomp, List.dropLast_append_of_ne_nil]]
    simp [chomp]

end Reading

end InertialSense.Ihex
