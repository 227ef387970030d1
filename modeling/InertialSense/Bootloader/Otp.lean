import InertialSense.Foundation.LittleEndian

/-! The one-time programmable memory of a device, which two classes decode: `decodeOTPData` of
`ISDFUFirmwareUpdater` and the end of `get_serial_number_libusb` of `ISBootloaderDFU`. -/

namespace InertialSense.Bootloader.Otp

open Foundation

def sectionSize : Nat := 64

/-- `OTP_KEY`, as it lies in memory. -/
def key : List UInt8 := toBytes 8 0xBAADBEEFB0BABABE

/-- The memory around the buffer, which begins at zero. -/
abbrev Surroundings : Type := Int → UInt8

/-- The bytes from a place on. -/
def cells (mem : Surroundings) (place : Int) (count : Nat) : List UInt8 :=
  (List.range count).map fun k => mem (place + k)

/-- A section is not written. -/
def Blank (mem : Surroundings) (index : Nat) : Prop :=
  cells mem (sectionSize * index) sectionSize = List.replicate sectionSize 0xFF

/-- The eight bytes before this section are the key. -/
def KeyBefore (mem : Surroundings) (index : Nat) : Prop := cells mem (sectionSize * index - 8) 8 = key

instance (mem : Surroundings) (index : Nat) : Decidable (Blank mem index) := inferInstanceAs (Decidable (_ = _))

instance (mem : Surroundings) (index : Nat) : Decidable (KeyBefore mem index) := inferInstanceAs (Decidable (_ = _))

/-- `serialNumber`, the first field of the section at a place. -/
def serialNumber (mem : Surroundings) (place : Int) : UInt32 :=
  UInt32.ofNat (fromBytes (cells mem place 4))

/-- Where `id` points: the section before this one. The product of `index`, which is an `int`, and
`OTP_SECTION_SIZE` is a `uint32_t`. -/
def sectionBefore (index : Nat) : Int := ((index : Int) - 1) * sectionSize % 2 ^ 32

/-- Some bytes that are read. -/
structure Span where
  place : Int
  count : Nat

def Span.ofSection (index : Nat) : Span := ⟨sectionSize * index, sectionSize⟩

/-- The loop over the sections: the one that it has come to, `foundSn`, and what has been read. -/
structure Scan where
  index : Nat
  foundSn : Bool
  reads : List Span

/-- The loop, up to the first blank section or behind the last one. The copies of the loop have another
number of sections, and do something else to `foundSn` when they go on. -/
def Scan.run (mem : Surroundings) (numSections : Nat) (advance : Bool → Bool) (s : Scan) : Scan :=
  let reads := s.reads ++ [Span.ofSection s.index]
  if Blank mem s.index then { s with reads }
  else if numSections ≤ s.index + 1 then { index := s.index + 1, foundSn := false, reads }
  else Scan.run mem numSections advance { index := s.index + 1, foundSn := advance s.foundSn, reads }
termination_by numSections - s.index

/-- What a decoder finds, and what it has read. -/
structure Decoded where
  serialNumber : Option UInt32
  reads : List Span

/-- The end of both decoders: the key before the section is looked at, and the section before it is
the last one that is written. -/
def Scan.decoded (mem : Surroundings) (s : Scan) : Decoded :=
  let reads := s.reads ++ [⟨sectionSize * s.index - 8, 8⟩]
  if KeyBefore mem s.index ∧ s.foundSn then
    { serialNumber := some (Otp.serialNumber mem (sectionBefore s.index))
      reads := reads ++ [⟨sectionBefore s.index, 4⟩] }
  else { serialNumber := none, reads }

/-- `OTP_NUM_SECTIONS` of `ISDFUFirmwareUpdater.h`. -/
def numSections : Nat := 8

/-- `DFUDevice::decodeOTPData`, with the serial number that `fetchDeviceInfo` takes of its result. -/
def decodeOTPData (mem : Surroundings) : Decoded :=
  let s := Scan.run mem numSections (fun _ => true) ⟨0, false, []⟩
  if s.index = 0 then { serialNumber := none, reads := s.reads } else s.decoded mem

/-- `OTP_NUM_SECTIONS` of `ISBootloaderDFU.cpp`. -/
def bootloaderNumSections : Nat := 16

/-- The decoding of `cISBootloaderDFU::get_serial_number_libusb`. -/
def getSerialNumberLibusb (mem : Surroundings) : Decoded :=
  (Scan.run mem bootloaderNumSections id ⟨0, true, []⟩).decoded mem

/-! ### What is meant -/

def lastSerialNumber (mem : Surroundings) : Option UInt32 :=
  match (List.range numSections).findIdx (Blank mem ·) with
  | 0 => none
  | index + 1 =>
    if KeyBefore mem (index + 1) then some (serialNumber mem (sectionSize * index)) else none

/-- What is read is in the buffer. -/
def Inside (len : Nat) (reads : List Span) : Prop :=
  ∀ span ∈ reads, 0 ≤ span.place ∧ span.place + span.count ≤ len

/-- Both decoders read what is in the buffer, and find what is meant. -/
structure Agree (mem : Surroundings) (len : Nat) : Prop where
  inside : Inside len (decodeOTPData mem).reads
  inside' : Inside len (getSerialNumberLibusb mem).reads
  found : (decodeOTPData mem).serialNumber = lastSerialNumber mem
  found' : (getSerialNumberLibusb mem).serialNumber = lastSerialNumber mem

/-! ### The loop -/

/-- The sections before this one are written, and it is blank or behind the last one. -/
structure Ends (mem : Surroundings) (count index : Nat) : Prop where
  few : index ≤ count
  filled : ∀ k < index, ¬Blank mem k
  blank : index < count → Blank mem index

theorem exists_ends (mem : Surroundings) (count : Nat) : ∃ index, Ends mem count index := by
  induction count with
  | zero => exact ⟨0, Nat.le_refl 0, nofun, nofun⟩
  | succ count ih =>
    obtain ⟨index, few, filled, blank⟩ := ih
    obtain less | rfl := Nat.lt_or_eq_of_le few
    · exact ⟨index, Nat.le_succ_of_le few, filled, fun _ => blank less⟩
    · by_cases here : Blank mem index
      · exact ⟨index, Nat.le_succ index, filled, fun _ => here⟩
      · refine ⟨index + 1, Nat.le_refl _, fun k inside => ?_, fun less => absurd less (Nat.lt_irrefl _)⟩
        obtain earlier | rfl := Nat.lt_succ_iff_lt_or_eq.mp inside
        · exact filled k earlier
        · exact here

def spans (first count : Nat) : List Span :=
  (List.range' first count).map Span.ofSection

theorem run_eq {mem : Surroundings} {count last : Nat} {advance : Bool → Bool}
    (steady : ∀ found, advance (advance found) = advance found) (ends : Ends mem count last) {s : Scan}
    (inside : s.index ≤ last) (more : s.index < count) :
    s.run mem count advance =
      { index := last
        foundSn := if last = count then false else if last = s.index then s.foundSn else advance s.foundSn
        reads := s.reads ++ spans s.index (min (last + 1) count - s.index) } := by
  induction left : last - s.index generalizing s with
  | zero =>
    obtain rfl : s.index = last := by omega
    unfold Scan.run
    rw [if_pos (ends.blank more), if_neg (by omega), if_pos rfl, Nat.min_eq_left more,
      show s.index.succ - s.index = 1 by omega]
    rfl
  | succ left ih =>
    have filled := ends.filled s.index (by omega)
    unfold Scan.run
    dsimp only
    rw [if_neg filled]
    have few := ends.few
    obtain ⟨rest, length⟩ : ∃ rest, min (last + 1) count - s.index = rest + 1 :=
      ⟨min (last + 1) count - s.index - 1, by omega⟩
    have next : spans s.index (rest + 1) = Span.ofSection s.index :: spans (s.index + 1) rest := by
      unfold spans
      rw [List.range'_succ, List.map_cons]
    by_cases final : count ≤ s.index + 1
    · obtain rfl : last = s.index + 1 := by omega
      obtain rfl : count = s.index + 1 := by omega
      have one : rest = 0 := by omega
      rw [if_pos final, if_pos rfl, length, next, one]
      rfl
    · rw [if_neg final, ih (by dsimp only; omega) (by dsimp only; omega) (by dsimp only; omega)]
      dsimp only
      rw [show min (last + 1) count - (s.index + 1) = rest by omega, length, next, List.append_assoc]
      refine congrArg₂ (fun found reads => Scan.mk last found reads) ?_ rfl
      split
      · rfl
      · rw [if_neg (show last ≠ s.index by omega)]
        split
        · rfl
        · exact steady _

/-! ### What is found -/

section Decoders

variable {mem : Surroundings} {len last : Nat}

theorem findIdx_eq {count : Nat} (ends : Ends mem count last) :
    (List.range count).findIdx (Blank mem ·) = last := by
  obtain less | rfl := Nat.lt_or_eq_of_le ends.few
  · rw [List.findIdx_eq (by rwa [List.length_range])]
    refine ⟨?_, fun k earlier => ?_⟩
    · rw [List.getElem_range]
      exact decide_eq_true (ends.blank less)
    · rw [List.getElem_range]
      exact decide_eq_false (ends.filled k earlier)
  · have none := @List.findIdx_eq_length _ (Blank mem ·) (List.range last)
    rw [List.length_range] at none
    exact none.mpr fun k member => decide_eq_false (ends.filled k (List.mem_range.mp member))

theorem inside_spans {count : Nat} : Inside len (spans 0 count) ↔ sectionSize * count ≤ len := by
  unfold Inside spans Span.ofSection sectionSize
  constructor
  · intro inside
    cases count with
    | zero => omega
    | succ count =>
      have last := (inside _ (List.mem_map.mpr ⟨count, List.mem_range'_1.mpr (by omega), rfl⟩)).2
      dsimp only at last
      omega
  · intro room span member
    obtain ⟨index, listed, rfl⟩ := List.mem_map.mp member
    have before := List.mem_range'_1.mp listed
    dsimp only
    omega

theorem inside_append {first second : List Span} :
    Inside len (first ++ second) ↔ Inside len first ∧ Inside len second := List.forall_mem_append

theorem decoded_serialNumber (s : Scan) : (s.decoded mem).serialNumber =
    if KeyBefore mem s.index ∧ s.foundSn then some (serialNumber mem (sectionBefore s.index))
    else none := by
  unfold Scan.decoded
  dsimp only
  split <;> rfl

/-- Sections are few, so that the product does not wrap. -/
theorem sectionBefore_succ {index : Nat} (few : index < bootloaderNumSections) :
    sectionBefore (index + 1) = sectionSize * index := by
  unfold sectionBefore sectionSize bootloaderNumSections at *
  omega

/-- The bytes before a section are in the buffer if it is not the first one. -/
theorem decoded_inside (s : Scan) : Inside len (s.decoded mem).reads ↔
    Inside len s.reads ∧ 1 ≤ s.index ∧ sectionSize * s.index ≤ len := by
  have before : Inside len [⟨sectionSize * s.index - 8, 8⟩] ↔ 1 ≤ s.index ∧ sectionSize * s.index ≤ len := by
    unfold Inside sectionSize
    rw [List.forall_mem_singleton]
    dsimp only
    omega
  unfold Scan.decoded
  dsimp only
  split
  · rw [inside_append, inside_append, before, and_iff_left_iff_imp]
    rintro ⟨-, some, room⟩
    unfold Inside sectionBefore sectionSize at *
    rw [List.forall_mem_singleton]
    dsimp only
    omega
  · rw [inside_append, before]

/-- What is meant, for the section at which the loop ends. -/
theorem lastSerialNumber_eq (ends : Ends mem numSections last) : lastSerialNumber mem =
    if 1 ≤ last ∧ KeyBefore mem last then some (serialNumber mem (sectionBefore last)) else none := by
  have few := ends.few
  unfold lastSerialNumber
  rw [findIdx_eq ends]
  cases last with
  | zero => rfl
  | succ index =>
    have sections : numSections ≤ bootloaderNumSections := by decide
    rw [sectionBefore_succ (by omega)]
    simp

theorem decodeOTPData_found (ends : Ends mem numSections last) : (decodeOTPData mem).serialNumber =
    if (1 ≤ last ∧ last < numSections) ∧ KeyBefore mem last then
      some (serialNumber mem (sectionBefore last))
    else none := by
  have few := ends.few
  have run := @run_eq mem numSections last (fun _ => true) (fun _ => rfl) ends ⟨0, false, []⟩ (Nat.zero_le _)
    (by decide)
  unfold decodeOTPData
  rw [run]
  dsimp only
  by_cases first : last = 0
  · rw [if_pos first, if_neg (by omega)]
  · rw [if_neg first, decoded_serialNumber]
    refine if_congr ?_ rfl rfl
    dsimp only
    rw [if_neg first, and_comm]
    refine and_congr_left' ?_
    split
    case isTrue full => exact iff_of_false Bool.false_ne_true (by omega)
    case isFalse more => exact iff_of_true rfl (by omega)

theorem decodeOTPData_inside (room : sectionSize * numSections ≤ len) : Inside len (decodeOTPData mem).reads := by
  obtain ⟨last, ends⟩ := exists_ends mem numSections
  have few := ends.few
  have run := @run_eq mem numSections last (fun _ => true) (fun _ => rfl) ends ⟨0, false, []⟩ (Nat.zero_le _)
    (by decide)
  have sections : Inside len ([] ++ spans 0 (min (last + 1) numSections - 0)) :=
    inside_spans.mpr (by unfold sectionSize numSections at *; omega)
  unfold decodeOTPData
  rw [run]
  dsimp only
  split
  · exact sections
  · exact (decoded_inside _).mpr ⟨sections, by dsimp only; omega, by unfold sectionSize numSections at *; dsimp only; omega⟩

theorem getSerialNumberLibusb_found (ends : Ends mem bootloaderNumSections last) :
    (getSerialNumberLibusb mem).serialNumber =
      if last < bootloaderNumSections ∧ KeyBefore mem last then
        some (serialNumber mem (sectionBefore last))
      else none := by
  have few := ends.few
  have run := @run_eq mem bootloaderNumSections last id (fun _ => rfl) ends ⟨0, true, []⟩ (Nat.zero_le _)
    (by decide)
  unfold getSerialNumberLibusb
  rw [run, decoded_serialNumber]
  refine if_congr ?_ rfl rfl
  dsimp only
  rw [and_comm]
  refine and_congr_left' ?_
  split
  case isTrue full => exact iff_of_false Bool.false_ne_true (by omega)
  case isFalse more => exact iff_of_true (by split <;> rfl) (by omega)

theorem getSerialNumberLibusb_inside (ends : Ends mem bootloaderNumSections last) :
    Inside len (getSerialNumberLibusb mem).reads ↔
      1 ≤ last ∧ sectionSize * min (last + 1) bootloaderNumSections ≤ len := by
  have few := ends.few
  have run := @run_eq mem bootloaderNumSections last id (fun _ => rfl) ends ⟨0, true, []⟩ (Nat.zero_le _)
    (by decide)
  unfold getSerialNumberLibusb
  rw [run, decoded_inside]
  dsimp only
  rw [List.nil_append, Nat.sub_zero, inside_spans]
  unfold sectionSize bootloaderNumSections at *
  omega

theorem ends_unique {count first second : Nat} (one : Ends mem count first) (other : Ends mem count second) :
    first = second := by
  have few := one.few
  have few' := other.few
  obtain less | same | more := Nat.lt_trichotomy first second
  · exact absurd (one.blank (by omega)) (other.filled first less)
  · exact same
  · exact absurd (other.blank (by omega)) (one.filled second more)

theorem ite_eq_none {α : Type*} {condition : Prop} [Decidable condition] {value : α} :
    (if condition then some value else none) = none ↔ ¬condition := by
  split <;> simp [*]

theorem agree_iff {last' : Nat} (room : sectionSize * numSections ≤ len)
    (ends' : Ends mem bootloaderNumSections last') : Agree mem len ↔
      (1 ≤ last' ∧ sectionSize * min (last' + 1) bootloaderNumSections ≤ len) ∧
        (decodeOTPData mem).serialNumber = lastSerialNumber mem ∧
        (getSerialNumberLibusb mem).serialNumber = lastSerialNumber mem := by
  rw [← getSerialNumberLibusb_inside ends']
  exact ⟨fun agree => ⟨agree.inside', agree.found, agree.found'⟩,
    fun ⟨inside', found, found'⟩ => ⟨decodeOTPData_inside room, inside', found, found'⟩⟩

/-- A blank section among the first eight ends both loops, and only the first of all is in the way. -/
theorem agree_of_blank (room : sectionSize * numSections ≤ len) (ends : Ends mem numSections last)
    (less : last < numSections) : Agree mem len ↔ ¬Blank mem 0 := by
  have further : numSections < bootloaderNumSections := by decide
  have ends' : Ends mem bootloaderNumSections last :=
    ⟨by omega, ends.filled, fun _ => ends.blank less⟩
  rw [agree_iff room ends', decodeOTPData_found ends, getSerialNumberLibusb_found ends',
    lastSerialNumber_eq ends]
  constructor
  · rintro ⟨⟨some, -⟩, -⟩
    exact ends.filled 0 some
  · intro written
    have some : 1 ≤ last := by
      obtain rfl | some := Nat.eq_zero_or_pos last
      · exact absurd (ends.blank less) written
      · exact some
    refine ⟨⟨some, ?_⟩, if_congr ?_ rfl rfl, if_congr ?_ rfl rfl⟩
    · unfold sectionSize numSections bootloaderNumSections at *
      omega
    · rw [and_iff_left less]
    · rw [iff_true_intro some, iff_true_intro (show last < bootloaderNumSections by omega)]

/-- When eight sections are written, the first decoder finds nothing and the second one goes on. -/
theorem agree_of_filled {last' : Nat} (room : sectionSize * numSections ≤ len)
    (ends : Ends mem numSections numSections) (ends' : Ends mem bootloaderNumSections last') :
    Agree mem len ↔ ¬KeyBefore mem numSections ∧ sectionSize * min (last' + 1) bootloaderNumSections ≤ len ∧
      (last' = bootloaderNumSections ∨ ¬KeyBefore mem last') := by
  have few' := ends'.few
  have behind : numSections ≤ last' := by
    by_contra before
    have short : last' < numSections := Nat.lt_of_not_le before
    exact ends.filled last' short (ends'.blank (Nat.lt_trans short (by decide)))
  have some : 1 ≤ last' := Nat.le_trans (by decide) behind
  rw [agree_iff room ends', decodeOTPData_found ends, getSerialNumberLibusb_found ends',
    lastSerialNumber_eq ends, if_neg (by rintro ⟨⟨-, less⟩, -⟩; exact Nat.lt_irrefl _ less), iff_true_intro some,
    true_and, and_left_comm]
  by_cases signed : KeyBefore mem numSections
  · rw [if_pos ⟨by decide, signed⟩]
    exact iff_of_false (by rintro ⟨found, -⟩; nomatch found) (fun ⟨unsigned, _⟩ => unsigned signed)
  · rw [if_neg (fun both => signed both.2), iff_true_intro rfl, iff_true_intro signed, true_and, true_and,
      ite_eq_none]
    refine and_congr_right' ?_
    rw [not_and_or, show ¬last' < bootloaderNumSections ↔ last' = bootloaderNumSections by omega]

end Decoders

/-- The decoders agree if and only if the first section is written and one of the first eight is blank,
or the eighth does not end with the key and neither does the last one that the second decoder goes on
to, which looks at sixteen. -/
theorem decoders_agree_iff (mem : Surroundings) (len : Nat) (room : sectionSize * numSections ≤ len) :
    Agree mem len ↔ ¬Blank mem 0 ∧ ((∃ k < numSections, Blank mem k) ∨
      ¬KeyBefore mem numSections ∧ ∃ last, Ends mem bootloaderNumSections last ∧
        sectionSize * min (last + 1) bootloaderNumSections ≤ len ∧
        (last = bootloaderNumSections ∨ ¬KeyBefore mem last)) := by
  obtain ⟨last, ends⟩ := exists_ends mem numSections
  obtain ⟨last', ends'⟩ := exists_ends mem bootloaderNumSections
  obtain less | rfl := Nat.lt_or_eq_of_le ends.few
  · rw [agree_of_blank room ends less, and_iff_left]
    exact .inl ⟨last, less, ends.blank less⟩
  · rw [agree_of_filled room ends ends', and_iff_right (ends.filled 0 (by decide))]
    constructor
    · rintro ⟨unsigned, rest⟩
      exact .inr ⟨unsigned, last', ends', rest⟩
    · rintro (⟨k, inside, blank⟩ | ⟨unsigned, other, otherEnds, rest⟩)
      · exact absurd blank (ends.filled k inside)
      · obtain rfl := ends_unique ends' otherEnds
        exact ⟨unsigned, rest⟩

/-- Nothing is written: the second decoder compares the key with the eight bytes before the buffer. -/
theorem blank_memory_disagrees : ¬Agree (fun _ => 0xFF) 512 := by
  have ends : Ends (fun _ => 0xFF) numSections 0 := ⟨Nat.zero_le _, nofun, fun _ => by decide⟩
  rw [agree_of_blank (by decide) ends (by decide)]
  exact fun written => written (by decide)

/-- One section, whose serial number is 7. -/
def oneSection : Surroundings := fun place =>
  if place < 0 then 0 else (toBytes 4 7 ++ List.replicate 52 0 ++ key).getD place.toNat 0xFF

theorem decoders_agree_one : sectionSize * numSections ≤ 512 ∧ Agree oneSection 512 :=
  ⟨by decide, (decoders_agree_iff oneSection 512 (by decide)).mpr ⟨by decide, .inl ⟨1, by decide, by decide⟩⟩⟩

end InertialSense.Bootloader.Otp
