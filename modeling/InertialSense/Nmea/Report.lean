import InertialSense.Comm.Checksum
import InertialSense.Nmea.Table
import Mathlib.Data.Nat.Bitwise

/-! `nmea_ASCE` reports the periods of a port, and `nmea_parse_asce` reads the report back. -/

namespace InertialSense.Nmea

open Foundation

def textBytes (text : List Char) : List UInt8 := text.map Char.toUInt8

/-- `ssnprintf` at a place of the buffer, and what it returns. -/
def ssnprintf (a : Nat → UInt8) (place bufSize : Nat) (text : List Char) : (Nat → UInt8) × Nat :=
  if bufSize = 0 then (a, 0)
  else (store a place (textBytes (text.take (bufSize - 1)) ++ [0]), text.length)

/-- The pairs of `nmea_ASCE`. -/
def RmcNmea.pairs (rmc : RmcNmea) : List (Nat × UInt8) :=
  (((List.range nmeaMsgIdCount).filter fun i =>
    rmc.nmeaBits &&& ((1 : UInt32) <<< i.toUInt32) ≠ 0 ∧ 0 < rmc.nmeaPeriod i).map
      -- no more than `MAX_nmeaBroadcastMsgPairs`
      fun i => (i, rmc.nmeaPeriod i)).take 20

def pairText (pair : Nat × UInt8) : List Char :=
  ',' :: decimal pair.1 ++ ',' :: decimal pair.2.toNat

def printPairs (aSize : Nat) : List (Nat × UInt8) → (Nat → UInt8) × Nat → (Nat → UInt8) × Nat
  | [], printed => printed
  | pair :: pairs, (a, n) =>
    let (a, more) := ssnprintf a n (aSize - n) (pairText pair)
    printPairs aSize pairs (a, n + more)

def nmeaSprintFooter (a : Nat → UInt8) (aSize n : Nat) : (Nat → UInt8) × Nat :=
  let checkSum := Comm.byteXor (window a 1 (n - 1))
  let digits := (padded 2 16 checkSum.toNat).map Char.toUpper
  let (a, more) := ssnprintf a n (aSize - n) ('*' :: digits ++ ['\r', '\n'])
  (a, n + more)

/-- What `nmea_ASCE` prints first, with the current port. -/
def asceText : List Char := ['$', 'A', 'S', 'C', 'E', ',', '0']

/-- `nmea_ASCE`: the buffer, and the length that is returned. -/
def nmeaAsce (a : Nat → UInt8) (aSize : Nat) (nRMC : RmcNmea) : (Nat → UInt8) × Nat :=
  let (a, n) := printPairs aSize nRMC.pairs (ssnprintf a 0 aSize asceText)
  nmeaSprintFooter a aSize n

/-! ### The text that is printed -/

/-- The buffer starts with a text of this length. -/
def Printed (printed : (Nat → UInt8) × Nat) (text : List Char) : Prop :=
  printed.2 = text.length ∧ window printed.1 0 printed.2 = textBytes text

section Print

variable {a : Nat → UInt8} {n : Nat} {text : List Char}

@[simp] theorem textBytes_length (text : List Char) : (textBytes text).length = text.length :=
  List.length_map _

@[simp] theorem textBytes_append (first second : List Char) :
    textBytes (first ++ second) = textBytes first ++ textBytes second := List.map_append

theorem textBytes_ofUInt8 (bytes : List UInt8) : textBytes (bytes.map Char.ofUInt8) = bytes := by
  unfold textBytes
  rw [List.map_map]
  exact List.map_id'' (fun byte => UInt8.toUInt8_toUInt32 byte) bytes

theorem ssnprintf_printed (aSize : Nat) (before : Printed (a, n) text) (more : List Char)
    (room : text.length + more.length < aSize) :
    Printed ((ssnprintf a n (aSize - n) more).1, n + (ssnprintf a n (aSize - n) more).2)
      (text ++ more) := by
  obtain ⟨length, shown⟩ := before
  dsimp only at length shown
  have some : aSize - n ≠ 0 := by omega
  have whole : more.take (aSize - n - 1) = more := List.take_of_length_le (by omega)
  unfold ssnprintf
  rw [if_neg some, whole]
  refine ⟨by simp [length], ?_⟩
  dsimp only
  have first : window (store a n (textBytes more ++ [0])) 0 n = window a 0 n :=
    window_store_disjoint a (.inl (by omega))
  have second : window (store a n (textBytes more ++ [0])) n more.length = textBytes more := by
    have stored := window_store a n (textBytes more ++ [0])
    rw [List.length_append, textBytes_length, List.length_singleton, window_succ] at stored
    exact (List.append_inj stored (by simp)).1
  rw [window_add, first, Nat.zero_add, second, shown, textBytes_append]

private theorem printPairs_printed (aSize : Nat) (pairs : List (Nat × UInt8)) {printed : (Nat → UInt8) × Nat}
    (before : Printed printed text) (room : text.length + (pairs.flatMap pairText).length < aSize) :
    Printed (printPairs aSize pairs printed) (text ++ pairs.flatMap pairText) := by
  induction pairs generalizing printed text with
  | nil => simpa [printPairs] using before
  | cons pair pairs ih =>
    rw [List.flatMap_cons, List.length_append] at room
    rw [List.flatMap_cons, ← List.append_assoc]
    have here := ssnprintf_printed aSize before (pairText pair) (by omega)
    exact ih here (by rw [List.length_append]; omega)

private theorem footer_printed {aSize : Nat} (before : Printed (a, n) text) (room : text.length + 5 < aSize) :
    ∃ tail, tail.length = 4 ∧ Printed (nmeaSprintFooter a aSize n) (text ++ '*' :: tail) := by
  have two : ((padded 2 16 (Comm.byteXor (window a 1 (n - 1))).toNat).map Char.toUpper).length = 2 := by
    rw [List.length_map, padded_length (by decide) (by decide)]
    exact UInt8.toNat_lt _
  have footer : ('*' :: (padded 2 16 (Comm.byteXor (window a 1 (n - 1))).toNat).map Char.toUpper ++
      ['\r', '\n']).length = 5 := by
    rw [List.length_append, List.length_cons, two]
    rfl
  exact ⟨_, Nat.succ.inj footer, ssnprintf_printed aSize before _ (footer.symm ▸ room)⟩

/-- What `nmea_ASCE` prints in a large enough buffer. -/
theorem nmeaAsce_printed (a : Nat → UInt8) {aSize : Nat} {rmc : RmcNmea}
    (room : (asceText ++ rmc.pairs.flatMap pairText).length + 5 < aSize) :
    ∃ tail, tail.length = 4 ∧
      Printed (nmeaAsce a aSize rmc) (asceText ++ rmc.pairs.flatMap pairText ++ '*' :: tail) := by
  have length : (asceText ++ rmc.pairs.flatMap pairText).length =
      asceText.length + (rmc.pairs.flatMap pairText).length := List.length_append
  have start : Printed (a, 0) [] := ⟨rfl, rfl⟩
  have first : Printed (ssnprintf a 0 aSize asceText) asceText := by
    have printed := ssnprintf_printed aSize start asceText (by rw [List.length_nil]; omega)
    rw [Nat.sub_zero, Nat.zero_add, List.nil_append] at printed
    exact printed
  have second := printPairs_printed aSize rmc.pairs first (by omega)
  exact footer_printed second room

end Print

/-! ### Plain texts -/

/-- A text of characters that end no field and are kept by their bytes. -/
def PlainText (text : List Char) : Prop :=
  ∀ c ∈ text, endsField c.toUInt8 = false ∧ Char.ofUInt8 c.toUInt8 = c

theorem PlainText.append {first second : List Char} (plain : PlainText first) (plain' : PlainText second) :
    PlainText (first ++ second) := by
  intro c member
  exact (List.mem_append.mp member).elim (plain c) (plain' c)

theorem PlainText.cons {c : Char} {rest : List Char} (plain : PlainText rest)
    (one : endsField c.toUInt8 = false ∧ Char.ofUInt8 c.toUInt8 = c) : PlainText (c :: rest) := by
  intro c member
  obtain rfl | later := List.mem_cons.mp member
  · exact one
  · exact plain c later

theorem PlainText.chars {text : List Char} (plain : PlainText text) : (textBytes text).map Char.ofUInt8 = text := by
  unfold textBytes
  rw [List.map_map]
  exact (List.map_congr_left fun c member => (plain c member).2).trans (List.map_id' _)

theorem plain_hex {c : Char} (hex : (hexValue c).isSome) :
    endsField c.toUInt8 = false ∧ Char.ofUInt8 c.toUInt8 = c := by
  have all : hexDigits.all fun c => endsField c.toUInt8 = false ∧ Char.ofUInt8 c.toUInt8 = c := by
    decide +kernel
  exact of_decide_eq_true (List.all_eq_true.mp all c (hexValue_mem hex))

theorem plain_decimal (value : Int) : PlainText (decimal value) := by
  intro c member
  obtain rfl | ⟨-, hex⟩ := mem_decimal member
  · decide
  · exact plain_hex hex

/-- The numeral of an `int` is read back. -/
theorem atoi_decimal_int {value : Int} (low : -2 ^ 31 ≤ value) (high : value < 2 ^ 31) :
    atoi (textBytes (decimal value)) = value := by
  have read := @strtol_decimal value (by omega) (by omega) [] rfl
  rw [List.append_nil] at read
  unfold atoi
  rw [(plain_decimal value).chars, read]
  dsimp only
  rw [Int.bmod_def]
  split <;> omega

theorem uint8_ofInt (value : UInt8) : UInt8.ofInt (value.toNat : Int) = value := by
  have small := UInt8.toNat_lt value
  have whole : (value.toNat : Int) % 2 ^ 8 = value.toNat := by omega
  unfold UInt8.ofInt
  rw [whole, Int.toNat_natCast, UInt8.ofNat_toNat]

/-! ### The text that is read -/

/-- A text that is in the memory from a place on. -/
def Sentence.Shows (s : Sentence) : Nat → List Char → Prop
  | _, [] => True
  | ptr, c :: text => ptr < s.size ∧ s.a ptr = c.toUInt8 ∧ s.Shows (ptr + 1) text

/-- Where a field ends that is followed by a character. -/
def nextField (stop : Char) (ptr : Nat) : Nat := if stop = ',' then ptr + 1 else ptr

section Read

variable {s : Sentence} {ptr : Nat}

theorem shows_of_window {text : List Char}
    (shown : window s.a ptr text.length = textBytes text) (inside : ptr + text.length ≤ s.size) :
    s.Shows ptr text := by
  induction text generalizing ptr with
  | nil => trivial
  | cons c text ih =>
    rw [List.length_cons] at inside
    rw [List.length_cons, window_cons] at shown
    obtain ⟨here, later⟩ := List.cons.inj shown
    exact ⟨by omega, here, ih later (by omega)⟩

theorem shows_drop {first second : List Char} (shown : s.Shows ptr (first ++ second)) :
    s.Shows (ptr + first.length) second := by
  induction first generalizing ptr with
  | nil => exact shown
  | cons c first ih =>
    have rest := ih shown.2.2
    rw [List.length_cons, Nat.add_comm first.length, ← Nat.add_assoc]
    exact rest

/-- A field is read up to the comma or the star behind it. -/
theorem findNextField_shows {field rest : List Char} {stop : Char}
    (plain : ∀ c ∈ field, endsField c.toUInt8 = false) (ends : stop = ',' ∨ stop = '*')
    (shown : s.Shows ptr (field ++ stop :: rest)) :
    s.findNextField ptr = some (textBytes field, nextField stop (ptr + field.length)) := by
  unfold Sentence.findNextField
  induction field generalizing ptr with
  | nil =>
    obtain ⟨inside, here, -⟩ := shown
    obtain ⟨count, left⟩ : ∃ count, s.size - ptr = count + 1 := ⟨s.size - ptr - 1, by omega⟩
    rw [left]
    unfold scanField nextField
    rw [here]
    obtain rfl | rfl := ends
    · rfl
    · rfl
  | cons c field ih =>
    obtain ⟨inside, here, later⟩ := shown
    obtain ⟨count, left⟩ : ∃ count, s.size - ptr = count + 1 := ⟨s.size - ptr - 1, by omega⟩
    have rest := ih (fun c member => plain c (.tail _ member)) later
    have shorter : s.size - (ptr + 1) = count := by omega
    rw [shorter] at rest
    rw [left]
    unfold scanField
    rw [here, plain c (.head _), if_neg Bool.false_ne_true, rest, List.length_cons,
      Nat.add_right_comm ptr 1]
    rfl

private theorem decimal_isDigit {value : Nat} {c : Char} (member : c ∈ decimal (value : Int)) :
    isDigit c.toUInt8 = true := by
  have all : ∀ digit < 10, isDigit digit.digitChar.toUInt8 = true := by decide +kernel
  obtain ⟨digit, small, rfl⟩ := mem_toDigits (by decide) (by decide) member
  exact all digit small

private theorem shows_digit {value : Nat} {rest : List Char}
    (shown : s.Shows ptr (decimal (value : Int) ++ rest)) :
    ptr < s.size ∧ isDigit (s.a ptr) = true ∧ s.a ptr ≠ 0x2A := by
  obtain ⟨c, digits, same⟩ : ∃ c digits, decimal (value : Int) = c :: digits :=
    List.exists_cons_of_ne_nil Nat.toDigits_ne_nil
  have digit := decimal_isDigit (same ▸ List.mem_cons_self)
  rw [same] at shown
  obtain ⟨inside, here, -⟩ := shown
  refine ⟨inside, here ▸ digit, fun star => ?_⟩
  rw [here] at star
  rw [star] at digit
  exact absurd digit (by decide)

/-- A pair of numerals is read. -/
private theorem readPair_shows {i : Nat} {period : UInt8} {stop : Char} {rest : List Char}
    (small : i < 2 ^ 31) (ends : stop = ',' ∨ stop = '*')
    (shown : s.Shows ptr (decimal (i : Int) ++ ',' :: (decimal (period.toNat : Int) ++ stop :: rest))) :
    s.readPair ptr = .pair (UInt32.ofNat i) period
      (nextField stop (ptr + (decimal (i : Int)).length + 1 +
        (decimal (period.toNat : Int)).length)) := by
  have plain (value : Nat) : ∀ c ∈ decimal (value : Int), endsField c.toUInt8 = false :=
    fun c member => (plain_decimal value c member).1
  have second := (shows_drop shown).2.2
  obtain ⟨inside, digit, star⟩ := shows_digit shown
  obtain ⟨inside', -, star'⟩ := shows_digit second
  have short : period.toNat < 2 ^ 31 := Nat.lt_trans (UInt8.toNat_lt period) (by decide)
  unfold Sentence.readPair
  rw [if_neg (by omega), if_neg star, findNextField_shows (plain i) (.inl rfl) shown]
  dsimp only
  rw [show nextField ',' (ptr + (decimal (i : Int)).length) = ptr + (decimal (i : Int)).length + 1
    from rfl, if_neg (by omega), if_neg star', findNextField_shows (plain _) ends second]
  dsimp only
  unfold Sentence.msgId
  have id : UInt32.ofInt (i : Int) = UInt32.ofNat i := by
    have inside : ((i : Int) % 2 ^ 32).toNat = i := by omega
    unfold UInt32.ofInt
    rw [inside]
  rw [digit, if_pos rfl, atoi_decimal_int (by omega) (by omega), atoi_decimal_int (by omega) (by omega), id,
    uint8_ofInt]

/-- Behind a text with pairs and a star, all pairs are read. -/
private theorem pairs_shows {tail : List Char} (pairs : List (Nat × UInt8)) {count : Nat}
    (few : pairs.length ≤ count) (small : ∀ pair ∈ pairs, pair.1 < 2 ^ 31)
    {stop : Char} {rest : List Char} (same : pairs.flatMap pairText ++ '*' :: tail = stop :: rest)
    (shown : s.Shows ptr (stop :: rest)) :
    s.pairs count (nextField stop ptr) =
      some (pairs.map fun pair => (UInt32.ofNat pair.1, pair.2)) := by
  induction pairs generalizing count ptr stop rest with
  | nil =>
    obtain ⟨rfl, rfl⟩ := List.cons.inj same
    cases count with
    | zero => rfl
    | succ count =>
      obtain ⟨inside, here, -⟩ := shown
      have star : s.a ptr = 0x2A := here
      change s.pairs (count + 1) ptr = _
      unfold Sentence.pairs Sentence.readPair
      rw [if_neg (by omega), if_pos star]
      rfl
  | cons pair pairs ih =>
    obtain ⟨i, period⟩ := pair
    obtain ⟨count, rfl⟩ : ∃ more, count = more + 1 :=
      ⟨count - 1, by rw [List.length_cons] at few; omega⟩
    obtain ⟨next, others, following⟩ : ∃ next others,
        pairs.flatMap pairText ++ '*' :: tail = next :: others := by
      cases pairs with
      | nil => exact ⟨_, _, rfl⟩
      | cons pair pairs => exact ⟨_, _, rfl⟩
    have ends : next = ',' ∨ next = '*' := by
      cases pairs with
      | nil => exact .inr (List.cons.inj following).1.symm
      | cons pair pairs => exact .inl (List.cons.inj following).1.symm
    have text : ',' :: (decimal (i : Int) ++ ',' :: (decimal (period.toNat : Int) ++
        next :: others)) = stop :: rest := by
      rw [← same, ← following]
      simp [pairText]
    obtain ⟨rfl, rfl⟩ := List.cons.inj text
    have fields := shown.2.2
    have later := shows_drop (shows_drop fields).2.2
    have shorter : pairs.length ≤ count := by
      rw [List.length_cons] at few
      omega
    change s.pairs (count + 1) (ptr + 1) = _
    unfold Sentence.pairs
    rw [readPair_shows (small _ (.head _)) ends fields]
    dsimp only
    rw [ih shorter (fun pair member => small pair (.tail _ member)) following later]
    rfl

end Read

/-! ### The periods that are set -/

section Replay

variable {wide : UInt32 → UInt32} {pHandle : Int} {rmc : RmcNmea}

private theorem ofNat_toNat {i : Nat} (inside : i < nmeaMsgIdCount) : (UInt32.ofNat i).toNat = i :=
  UInt32.toNat_ofNat_of_lt' (Nat.lt_trans inside (by decide))

private theorem bit_iff {i : Nat} (inside : i < nmeaMsgIdCount) :
    rmc.nmeaBits &&& ((1 : UInt32) <<< i.toUInt32) ≠ 0 ↔ rmc.nmeaBits.toNat.testBit i = true := by
  unfold nmeaMsgIdCount at inside
  have place : i.toUInt32.toNat = i := Nat.mod_eq_of_lt (by omega)
  have below : 2 ^ i < 2 ^ 32 := Nat.pow_lt_pow_right (by decide) (by omega)
  have bit : ((1 : UInt32) <<< i.toUInt32).toNat = 2 ^ i := by
    rw [UInt32.toNat_shiftLeft, place, Nat.mod_eq_of_lt (show i < 32 by omega), Nat.shiftLeft_eq]
    simpa using below
  rw [Ne, ← UInt32.toNat_inj, UInt32.toNat_and, bit, Nat.and_two_pow]
  cases rmc.nmeaBits.toNat.testBit i <;> simp

private theorem mem_pairs (related : rmc.Related) {i : Nat} {period : UInt8} :
    (i, period) ∈ rmc.pairs ↔
      i < nmeaMsgIdCount ∧ rmc.nmeaPeriod i ≠ 0 ∧ rmc.nmeaPeriod i = period := by
  unfold RmcNmea.pairs
  rw [List.take_of_length_le
    (by rw [List.length_map]; exact Nat.le_trans (List.length_filter_le _ _) (by decide))]
  simp only [List.mem_map, List.mem_filter, List.mem_range, decide_eq_true_iff, Prod.mk.injEq]
  constructor
  · rintro ⟨i, ⟨inside, -, on⟩, rfl, rfl⟩
    exact ⟨inside, UInt8.pos_iff_ne_zero.mp on, rfl⟩
  · rintro ⟨inside, on, rfl⟩
    refine ⟨i, ⟨inside, (bit_iff inside).mpr ?_, UInt8.pos_iff_ne_zero.mpr on⟩, rfl, rfl⟩
    rw [related i inside]
    exact decide_eq_true on

private theorem ascePair_current {streams : Streams} {i : Nat} (inside : i < nmeaMsgIdCount)
    (period : UInt8) :
    ((ascePair wide pHandle 0 streams (UInt32.ofNat i) period).rmci pHandle).rmcNmea =
      (streams.rmci pHandle).rmcNmea.enableStream wide (UInt32.ofNat i) period := by
  have current : selects pHandle 0 pHandle = true := by simp [selects]
  have small : ¬(3840 ≤ UInt32.ofNat i ∧ UInt32.ofNat i ≤ 3951) := by
    rintro ⟨low, -⟩
    have large : 3840 ≤ (UInt32.ofNat i).toNat := UInt32.le_iff_toNat_le.mp low
    rw [ofNat_toNat inside] at large
    unfold nmeaMsgIdCount at inside
    omega
  have id : (asceId streams.constMask (UInt32.ofNat i) period).2 = UInt32.ofNat i := by
    unfold asceId
    split
    case isTrue gsv => rfl
    case isFalse plain => simp
  rw [ascePair_rmci, current, if_pos rfl, id]

/-- The pairs set the periods that they have, and their bits, and leave the others. -/
private theorem replayed (pairs : List (Nat × UInt8)) {streams : Streams}
    (own : ∀ pair ∈ pairs, pair.1 < nmeaMsgIdCount ∧ rmc.nmeaPeriod pair.1 = pair.2) (j : Nat) :
    let after := (((pairs.map fun pair => (UInt32.ofNat pair.1, pair.2)).foldl
      (fun streams each => ascePair wide pHandle 0 streams each.1 each.2) streams).rmci
        pHandle).rmcNmea
    let before := (streams.rmci pHandle).rmcNmea
    (after.nmeaPeriod j = if j ∈ pairs.map Prod.fst then rmc.nmeaPeriod j else before.nmeaPeriod j) ∧
      (j < 32 → after.nmeaBits.toNat.testBit j =
        if j ∈ pairs.map Prod.fst then decide (rmc.nmeaPeriod j ≠ 0)
        else before.nmeaBits.toNat.testBit j) := by
  induction pairs generalizing streams with
  | nil => exact ⟨rfl, fun _ => rfl⟩
  | cons pair pairs ih =>
    obtain ⟨i, period⟩ := pair
    obtain ⟨⟨inside, same⟩, others⟩ := List.forall_mem_cons.mp own
    dsimp only at inside same
    subst same
    have small := ofNat_toNat inside
    obtain ⟨periods, bits⟩ :=
      @ih (ascePair wide pHandle 0 streams (UInt32.ofNat i) (rmc.nmeaPeriod i)) others
    rw [ascePair_current inside] at periods bits
    have member : j ∈ ((i, rmc.nmeaPeriod i) :: pairs).map Prod.fst ↔
        j = i ∨ j ∈ pairs.map Prod.fst := List.mem_cons
    by_cases later : j ∈ pairs.map Prod.fst
    · have now := member.mpr (.inr later)
      rw [if_pos later] at periods
      refine ⟨periods.trans (if_pos now).symm, fun near => (bits near).trans ?_⟩
      rw [if_pos later, if_pos now]
    · rw [if_neg later] at periods
      simp only [if_neg later] at bits
      by_cases same : j = i
      · have now := member.mpr (.inl same)
        refine ⟨periods.trans ?_, fun near => (bits near).trans ?_⟩
        · rw [if_pos now, same]
          exact if_pos small.symm
        · rw [if_pos now, enableStream_testBit (small.symm ▸ inside) _ near, small, if_pos same,
            same]
      · have never := mt member.mp (not_or.mpr ⟨same, later⟩)
        refine ⟨periods.trans ?_, fun near => (bits near).trans ?_⟩
        · rw [if_neg never]
          exact if_neg (small.symm ▸ same)
        · rw [if_neg never, enableStream_testBit (small.symm ▸ inside) _ near, small, if_neg same]

/-- The sentence that `nmea_ASCE` leaves in a buffer. -/
def RmcNmea.reported (rmc : RmcNmea) (a : Nat → UInt8) (aSize : Nat) : Sentence where
  a := (nmeaAsce a aSize rmc).1
  aSize := (nmeaAsce a aSize rmc).2
  size := aSize

/-- The pairs are read from the report. -/
private theorem read_reported (a : Nat → UInt8) {aSize : Nat} (related : rmc.Related)
    (room : (asceText ++ rmc.pairs.flatMap pairText).length + 5 < aSize) :
    (rmc.reported a aSize).read =
      some (0, rmc.pairs.map fun pair => (UInt32.ofNat pair.1, pair.2)) := by
  obtain ⟨tail, four, length, shown⟩ := nmeaAsce_printed a room
  obtain ⟨stop, rest, same⟩ : ∃ stop rest,
      rmc.pairs.flatMap pairText ++ '*' :: tail = stop :: rest := by
    cases rmc.pairs with
    | nil => exact ⟨_, _, rfl⟩
    | cons pair pairs => exact ⟨_, _, rfl⟩
  have ends : stop = ',' ∨ stop = '*' := by
    cases listed : rmc.pairs with
    | nil =>
      rw [listed] at same
      exact .inr (List.cons.inj same).1.symm
    | cons pair pairs =>
      rw [listed] at same
      exact .inl (List.cons.inj same).1.symm
  have whole : (rmc.reported a aSize).Shows 0
      (asceText ++ rmc.pairs.flatMap pairText ++ '*' :: tail) := by
    rw [length] at shown
    refine shows_of_window shown ?_
    rw [List.length_append, List.length_cons, four, Nat.zero_add]
    exact Nat.le_of_lt room
  rw [List.append_assoc, same] at whole
  have zeroPlain : ∀ c ∈ ['0'], endsField c.toUInt8 = false := fun c member =>
    (plain_decimal 0 c member).1
  have options : (rmc.reported a aSize).Shows 6 (['0'] ++ stop :: rest) :=
    @shows_drop _ 0 ['$', 'A', 'S', 'C', 'E', ','] _ whole
  have field := findNextField_shows zeroPlain ends options
  have few : rmc.pairs.length ≤ 20 := List.length_take_le _ _
  have small : ∀ pair ∈ rmc.pairs, pair.1 < 2 ^ 31 := fun pair member =>
    Nat.lt_trans ((mem_pairs related).mp member).1 (by decide)
  have zero : UInt32.ofInt (atoi (textBytes ['0'])) = 0 := by decide
  have pairs := pairs_shows rmc.pairs few small same (shows_drop options)
  unfold Sentence.read
  rw [field]
  simp only [Option.bind_eq_bind, Option.bind_some]
  rw [pairs, zero]
  rfl

private theorem low_bits_eq {bits after : UInt32}
    (low : ∀ j < nmeaMsgIdCount, after.toNat.testBit j = bits.toNat.testBit j)
    (high : ∀ j, nmeaMsgIdCount ≤ j → j < 32 → after.toNat.testBit j = false) :
    after = bits &&& 0x3FFFF := by
  refine UInt32.toNat_inj.mp (Nat.eq_of_testBit_eq fun j => ?_)
  have mask : (0x3FFFF : UInt32).toNat = 2 ^ nmeaMsgIdCount - 1 := rfl
  rw [UInt32.toNat_and, Nat.testBit_and, mask, Nat.testBit_two_pow_sub_one]
  by_cases inside : j < nmeaMsgIdCount
  · rw [low j inside]
    simp [inside]
  · by_cases near : j < 32
    · rw [high j (Nat.not_lt.mp inside) near]
      simp [inside]
    · have power : 2 ^ 32 ≤ 2 ^ j := Nat.pow_le_pow_right (by decide) (by omega)
      rw [Nat.testBit_lt_two_pow (Nat.lt_of_lt_of_le (UInt32.toNat_lt _) power)]
      simp [inside]

/-- The report of a port, read on a port where nothing is set, sets the same periods, and the bits
of the messages: the same bits when no other bit was set. -/
theorem report_replayed (wide : UInt32 → UInt32) {pHandle : Int} (high : pHandle < numComPorts)
    (a : Nat → UInt8) {aSize : Nat} {rmc : RmcNmea} (related : rmc.Related)
    (room : (asceText ++ rmc.pairs.flatMap pairText).length + 5 < aSize) {streams : Streams}
    (zero : (streams.rmci pHandle).rmcNmea.nmeaBits = 0 ∧
      ∀ i < nmeaMsgIdCount, (streams.rmci pHandle).rmcNmea.nmeaPeriod i = 0) :
    ∃ after, nmeaParseAsce wide pHandle (rmc.reported a aSize) streams = some (0, after) ∧
      (∀ i < nmeaMsgIdCount, (after.rmci pHandle).rmcNmea.nmeaPeriod i = rmc.nmeaPeriod i) ∧
      (after.rmci pHandle).rmcNmea.nmeaBits = rmc.nmeaBits &&& 0x3FFFF ∧
      ((after.rmci pHandle).rmcNmea.nmeaBits = rmc.nmeaBits ↔
        rmc.nmeaBits.toNat < 2 ^ nmeaMsgIdCount) := by
  have parsed : nmeaParseAsce wide pHandle (rmc.reported a aSize) streams = _ :=
    parse_eq_read high _ streams
  rw [read_reported a related room] at parsed
  refine ⟨_, parsed, ?_⟩
  have own : ∀ pair ∈ rmc.pairs, pair.1 < nmeaMsgIdCount ∧ rmc.nmeaPeriod pair.1 = pair.2 :=
    fun pair member => ⟨((mem_pairs related).mp member).1, ((mem_pairs related).mp member).2.2⟩
  have member (j : Nat) : j ∈ rmc.pairs.map Prod.fst ↔
      j < nmeaMsgIdCount ∧ rmc.nmeaPeriod j ≠ 0 := by
    rw [List.mem_map]
    constructor
    · rintro ⟨⟨i, period⟩, inside, rfl⟩
      exact ⟨((mem_pairs related).mp inside).1, ((mem_pairs related).mp inside).2.1⟩
    · rintro ⟨inside, on⟩
      exact ⟨(j, rmc.nmeaPeriod j), (mem_pairs related).mpr ⟨inside, on, rfl⟩, rfl⟩
  have each (j : Nat) := @replayed wide pHandle rmc rmc.pairs streams own j
  simp only [member, zero.1] at each
  have off {j : Nat} (silent : ¬(j < nmeaMsgIdCount ∧ rmc.nmeaPeriod j ≠ 0))
      (inside : j < nmeaMsgIdCount) : rmc.nmeaPeriod j = 0 := by
    by_contra on
    exact silent ⟨inside, on⟩
  have low (j : Nat) (inside : j < nmeaMsgIdCount) :
      (if j < nmeaMsgIdCount ∧ rmc.nmeaPeriod j ≠ 0 then decide (rmc.nmeaPeriod j ≠ 0)
        else (0 : UInt32).toNat.testBit j) = rmc.nmeaBits.toNat.testBit j := by
    rw [related j inside]
    split
    case isTrue on => rfl
    case isFalse silent => simp [off silent inside]
  have others (j : Nat) (outside : nmeaMsgIdCount ≤ j) :
      (if j < nmeaMsgIdCount ∧ rmc.nmeaPeriod j ≠ 0 then decide (rmc.nmeaPeriod j ≠ 0)
        else (0 : UInt32).toNat.testBit j) = false := by
    rw [if_neg fun on => Nat.not_lt.mpr outside on.1]
    exact Nat.zero_testBit j
  have bits := low_bits_eq
    (fun j inside => ((each j).2 (Nat.lt_trans inside (by decide))).trans (low j inside))
    (fun j outside near => ((each j).2 near).trans (others j outside))
  refine ⟨fun i inside => (each i).1.trans ?_, bits, ?_⟩
  · split
    case isTrue on => rfl
    case isFalse silent => rw [zero.2 i inside, off silent inside]
  · have mask : (0x3FFFF : UInt32).toNat = 2 ^ nmeaMsgIdCount - 1 := rfl
    rw [bits, ← UInt32.toNat_inj, UInt32.toNat_and, mask, Nat.and_two_pow_sub_one_eq_mod]
    exact Nat.mod_eq_iff_lt (by decide)

end Replay

/-- GGA at each second message. -/
def ggaStream : RmcNmea where
  nmeaBits := 0x80
  nmeaPeriod := fun place => if place = 7 then 2 else 0

theorem ggaStream_replayed : ∃ after,
    nmeaParseAsce id 0 (ggaStream.reported (fun _ => 0) 64) (.even 0) = some (0, after) ∧
      (∀ i < nmeaMsgIdCount, (after.rmci 0).rmcNmea.nmeaPeriod i = ggaStream.nmeaPeriod i) ∧
      (after.rmci 0).rmcNmea.nmeaBits = 0x80 := by
  have related : ggaStream.Related := by
    unfold RmcNmea.Related
    decide
  obtain ⟨after, parsed, periods, bits, -⟩ :=
    @report_replayed id 0 (by decide) (fun _ => 0) 64 ggaStream related (by decide +kernel)
      (.even 0) ⟨rfl, fun _ _ => rfl⟩
  exact ⟨after, parsed, periods, bits⟩

/-- No message has a period, and a bit behind those of the messages is set. -/
def strayBit : RmcNmea where
  nmeaBits := 0x40000
  nmeaPeriod := fun _ => 0

/-- A bit that is not of a message is not reported. -/
theorem strayBit_lost : strayBit.Related ∧
    (asceText ++ strayBit.pairs.flatMap pairText).length + 5 < 16 ∧
    ¬∃ options after,
      nmeaParseAsce id 0 (strayBit.reported (fun _ => 0) 16) (.even 0) = some (options, after) ∧
        (after.rmci 0).rmcNmea.nmeaBits = strayBit.nmeaBits := by
  refine ⟨?_, by decide +kernel, ?_⟩
  · unfold RmcNmea.Related
    decide
  · rintro ⟨options, after, parsed, bits⟩
    have none : (nmeaParseAsce id 0 (strayBit.reported (fun _ => 0) 16) (.even 0)).map
        (fun result => (result.2.rmci 0).rmcNmea.nmeaBits) = some 0 := by decide +kernel
    rw [parsed] at none
    have zero : (after.rmci 0).rmcNmea.nmeaBits = 0 := Option.some.inj none
    rw [bits] at zero
    exact absurd zero (by decide)

end InertialSense.Nmea
