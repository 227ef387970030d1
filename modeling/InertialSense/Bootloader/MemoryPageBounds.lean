import InertialSense.Bootloader.MemoryPages
import InertialSense.FirmwareUpdate.Arguments
import InertialSense.Foundation.Scanf

/-! Which alternate settings `fetchDeviceInfo` decodes within bounds, and that it then has what their
names say. -/

namespace InertialSense.Bootloader.MemoryPages

open Foundation
open FirmwareUpdate (pieces pieces_of_not_mem pieces_append)

section Descriptors

variable {descList : List UInt8} {descType : UInt8} {resSize : Nat}

private theorem copied_count (listLen p first resSize : Nat) (inside : p + 1 < listLen) :
    ∃ count, (if listLen < p + (if resSize < first then resSize else first) then listLen - p
        else if resSize < first then resSize else first) = count ∧ p + count ≤ listLen ∧ count ≤ resSize := by
  refine ⟨_, rfl, ?_, ?_⟩
  · split_ifs <;> omega
  · split_ifs <;> omega

/-- A pass goes on behind the descriptor, so that there are never more passes than bytes. -/
private theorem findDescriptorLoop_bounded {passes p : Nat} (enough : descList.length ≤ p + passes) :
    ∃ found, findDescriptorLoop descList descType resSize (passes + 1) p = .ok found ∧
      ∀ copied ∈ found, copied.length ≤ resSize := by
  induction passes generalizing p with
  | zero =>
    unfold findDescriptorLoop
    rw [if_neg (by omega)]
    exact ⟨none, rfl, nofun⟩
  | succ passes ih =>
    unfold findDescriptorLoop
    split
    case isFalse => exact ⟨none, rfl, nofun⟩
    case isTrue inside =>
      rw [List.getElem?_eq_getElem (Nat.lt_of_succ_lt inside), List.getElem?_eq_getElem inside]
      dsimp only
      split
      case isTrue => exact ⟨none, rfl, nofun⟩
      case isFalse nonzero =>
        split
        case isTrue =>
          obtain ⟨count, same, fits, few⟩ := copied_count descList.length p descList[p].toNat resSize inside
          rw [same, if_neg (Nat.not_lt.mpr fits)]
          refine ⟨_, rfl, fun copied member => ?_⟩
          obtain rfl := Option.some.inj member
          exact (List.length_take_le ..).trans few
        case isFalse =>
          have positive : 0 < descList[p].toNat := by
            refine Nat.pos_of_ne_zero fun zero => nonzero ?_
            exact UInt8.toNat_inj.mp zero
          exact ih (by omega)

/-- `findDescriptor` ends, reads nothing behind the list and copies no more than there is room for. -/
theorem findDescriptor_bounded (descList : List UInt8) (descType : UInt8) (resSize : Nat) :
    ∃ found, findDescriptor descList descType resSize = .ok found ∧
      ∀ copied ∈ found, copied.length ≤ resSize := by
  unfold findDescriptor
  split
  case isTrue => exact ⟨none, rfl, nofun⟩
  case isFalse => exact findDescriptorLoop_bounded (Nat.le_add_left ..)

theorem AltSetting.funcDescriptor_ok (intf : AltSetting) :
    ∃ funcDescriptor, intf.funcDescriptor = .ok funcDescriptor := by
  obtain ⟨found, same, -⟩ := findDescriptor_bounded intf.extra usbDescriptorDfu 9
  unfold AltSetting.funcDescriptor
  dsimp only
  rw [same]
  cases found with
  | some => exact ⟨_, rfl⟩
  | none =>
    cases intf.functional with
    | some => exact ⟨_, rfl⟩
    | none => exact ⟨_, rfl⟩

end Descriptors

section Pieces

variable {d : Char} {text first : List Char} {others : List (List Char)}

/-- The field that a text begins with. -/
def FirstField (d : Char) (field text : List Char) : Prop :=
  d ∉ field ∧ (text = field ∨ ∃ rest, text = field ++ d :: rest)

theorem pieces_ne_nil (d : Char) (filled : text ≠ []) : pieces d text ≠ [] := by
  obtain ⟨c, rest, rfl⟩ := List.exists_cons_of_ne_nil filled
  unfold FirmwareUpdate.pieces
  split
  · exact List.cons_ne_nil _ _
  · split
    · exact List.cons_ne_nil _ _
    · exact List.cons_ne_nil _ _

theorem pieces_cons (split : pieces d text = first :: others) :
    d ∉ first ∧ ((text = first ∧ others = []) ∨ ∃ rest, text = first ++ d :: rest ∧ others = pieces d rest) := by
  by_cases plain : d ∈ text
  · obtain ⟨before, after, rfl, earlier⟩ := List.eq_append_cons_of_mem plain
    rw [pieces_append earlier] at split
    obtain ⟨rfl, rfl⟩ := List.cons.inj split
    exact ⟨earlier, .inr ⟨after, rfl, rfl⟩⟩
  · rw [pieces_of_not_mem plain] at split
    split_ifs at split
    obtain ⟨rfl, rfl⟩ := List.cons.inj split
    exact ⟨plain, .inl ⟨rfl, rfl⟩⟩

theorem firstField_iff (some : first ≠ []) : FirstField d first text ↔ ∃ others, pieces d text = first :: others := by
  constructor
  · rintro ⟨plain, rfl | ⟨rest, rfl⟩⟩
    · exact ⟨[], by rw [pieces_of_not_mem plain, if_neg some]⟩
    · exact ⟨_, pieces_append plain⟩
  · rintro ⟨others, split⟩
    obtain ⟨plain, ⟨rfl, -⟩ | ⟨rest, rfl, -⟩⟩ := pieces_cons split
    · exact ⟨plain, .inl rfl⟩
    · exact ⟨plain, .inr ⟨rest, rfl⟩⟩

theorem pieces_cons_cons_iff {second : List Char} : pieces d text = first :: second :: others ↔
    ∃ rest, text = first ++ d :: rest ∧ d ∉ first ∧ pieces d rest = second :: others := by
  constructor
  · intro split
    obtain ⟨plain, ⟨-, none⟩ | ⟨rest, rfl, more⟩⟩ := pieces_cons split
    · cases none
    · exact ⟨rest, rfl, plain, more.symm⟩
  · rintro ⟨rest, rfl, plain, more⟩
    rw [pieces_append plain, more]

end Pieces

/-- A name announces a segment if it is one of these devices, and goes on behind its first field. -/
def Announces (name : List Char) : Prop := name.head? = some '@' ∧ '/' ∈ name.dropLast

/-- A name describes a segment if it has an address and pages, which have a number and a size with a
character behind its digits. -/
def Describes (name : List Char) : Prop :=
  ∃ head address pairs pair pages sizes size, name = head ++ '/' :: (address ++ '/' :: pairs) ∧ '/' ∉ head ∧
    '/' ∉ address ∧ FirstField '/' pair pairs ∧ pair = pages ++ '*' :: sizes ∧ '*' ∉ pages ∧
    FirstField '*' size sizes ∧ decimalEnd size ≠ []

section Decoding

variable {name : List Char} {segment : Option Segment}

theorem decimalEnd_nil : decimalEnd [] = [] := rfl

/-- The fields that are used of a name that describes a segment. -/
theorem describes_iff : Describes name ↔ ∃ head address pair pairs pages size sizes,
    pieces '/' name = head :: address :: pair :: pairs ∧ pieces '*' pair = pages :: size :: sizes ∧
      decimalEnd size ≠ [] := by
  constructor
  · rintro ⟨head, address, pairs, pair, pages, sizes, size, rfl, plain, plain', first, rfl, plain'', last, ends⟩
    have filled : size ≠ [] := by
      rintro rfl
      exact ends decimalEnd_nil
    obtain ⟨others, split⟩ := (firstField_iff (by simp)).mp first
    obtain ⟨rest, split'⟩ := (firstField_iff filled).mp last
    refine ⟨head, address, pages ++ '*' :: sizes, others, pages, size, rest, ?_, ?_, ends⟩
    · rw [pieces_append plain, pieces_append plain', split]
    · rw [pieces_append plain'', split']
  · rintro ⟨head, address, pair, pairs, pages, size, sizes, split, split', ends⟩
    obtain ⟨behind, rfl, plain, split⟩ := pieces_cons_cons_iff.mp split
    obtain ⟨behind, rfl, plain', split⟩ := pieces_cons_cons_iff.mp split
    obtain ⟨rest, same, plain'', split'⟩ := pieces_cons_cons_iff.mp split'
    have filled : size ≠ [] := by
      rintro rfl
      exact ends decimalEnd_nil
    have filled' : pair ≠ [] := by simp [same]
    exact ⟨head, address, behind, pair, pages, rest, size, rfl, plain, plain',
      (firstField_iff filled').mpr ⟨_, split⟩, same, plain'', (firstField_iff filled).mpr ⟨_, split'⟩, ends⟩

theorem announces_iff : Announces name ↔ name.head? = some '@' ∧
    ∃ head address pairs, pieces '/' name = head :: address :: pairs := by
  refine and_congr_right fun _ => ?_
  constructor
  · intro inside
    have filled : name ≠ [] := by
      rintro rfl
      cases inside
    obtain ⟨before, after, same, plain⟩ := List.eq_append_cons_of_mem inside
    have whole : name = before ++ '/' :: (after ++ [name.getLast filled]) := by
      rw [← List.cons_append, ← List.append_assoc, ← same, List.dropLast_concat_getLast]
    obtain ⟨address, pairs, more⟩ := List.exists_cons_of_ne_nil
      (pieces_ne_nil '/' (List.concat_ne_nil (name.getLast filled) after))
    rw [whole, pieces_append plain, more]
    exact ⟨before, address, pairs, rfl⟩
  · rintro ⟨head, address, pairs, split⟩
    obtain ⟨rest, rfl, -, split⟩ := pieces_cons_cons_iff.mp split
    have filled : rest ≠ [] := by
      rintro rfl
      cases split
    rw [List.dropLast_append_of_ne_nil (List.cons_ne_nil _ _), List.dropLast_cons_of_ne_nil filled]
    exact List.mem_append_right _ (List.mem_cons_self ..)

theorem decodePair_ok_iff {address pair : List Char} : (∃ decoded, decodePair address pair = .ok decoded) ↔
    ∃ pages size sizes, pieces '*' pair = pages :: size :: sizes ∧ decimalEnd size ≠ [] := by
  unfold decodePair
  constructor
  · rintro ⟨decoded, same⟩
    split at same
    case h_1 pages size sizes split =>
      refine ⟨pages, size, sizes, split, fun ends => ?_⟩
      rw [ends] at same
      cases same
    case h_2 => cases same
  · rintro ⟨pages, size, sizes, split, ends⟩
    obtain ⟨unit, pageFlags, behind⟩ := List.exists_cons_of_ne_nil ends
    rw [split]
    dsimp only
    rw [behind]
    exact ⟨_, rfl⟩

theorem decode_ok_iff : (∃ decoded, decodeMemoryPageDescriptor name segment = .ok decoded) ↔
    (Announces name → segment.isSome ∧ Describes name) := by
  rw [announces_iff, describes_iff]
  unfold decodeMemoryPageDescriptor
  split
  case isTrue other =>
    refine iff_of_true ⟨_, rfl⟩ fun announced => absurd ?_ other
    rw [List.headD_eq_head?_getD, announced.1]
    rfl
  case isFalse at_ =>
    have first : name.head? = some '@' := by
      rw [Classical.not_not, List.headD_eq_head?_getD] at at_
      cases found : name.head? with
      | none => rw [found] at at_; cases at_
      | some c => rw [found] at at_; exact congrArg some at_
    obtain split | ⟨head, split⟩ | ⟨head, address, pairs, split⟩ : pieces '/' name = [] ∨
        (∃ head, pieces '/' name = [head]) ∨ ∃ head address pairs, pieces '/' name = head :: address :: pairs := by
      rcases pieces '/' name with - | ⟨head, - | ⟨address, pairs⟩⟩
      · exact .inl rfl
      · exact .inr (.inl ⟨head, rfl⟩)
      · exact .inr (.inr ⟨head, address, pairs, rfl⟩)
    · refine absurd split (pieces_ne_nil '/' ?_)
      rintro rfl
      cases first
    · rw [split]
      refine iff_of_true ⟨_, rfl⟩ ?_
      rintro ⟨-, _, _, _, more⟩
      cases more
    · rw [split, imp_iff_right ⟨first, _, _, _, rfl⟩]
      cases segment with
      | none => exact iff_of_false nofun fun described => Bool.noConfusion described.1
      | some segment =>
        cases pairs with
        | nil =>
          refine iff_of_false nofun ?_
          rintro ⟨-, _, _, _, _, _, _, _, more, -⟩
          cases more
        | cons pair pairs =>
          have pages := @decodePair_ok_iff address pair
          dsimp only
          constructor
          · rintro ⟨decoded, same⟩
            cases found : decodePair address pair with
            | error => rw [found] at same; cases same
            | ok =>
              obtain ⟨pages, size, sizes, split', ends⟩ := pages.mp ⟨_, found⟩
              exact ⟨rfl, head, address, pair, pairs, pages, size, sizes, rfl, split', ends⟩
          · rintro ⟨-, _, _, _, _, pages', size, sizes, same, split', ends⟩
            cases same
            obtain ⟨decoded, found⟩ := pages.mpr ⟨pages', size, sizes, split', ends⟩
            rw [found]
            exact ⟨_, rfl⟩

end Decoding

/-- The unit of a page size. -/
inductive PageUnit where
  | space
  | byte
  | kibi
  | mebi
deriving DecidableEq

def PageUnit.character : PageUnit → Char
  | .space => ' '
  | .byte => 'B'
  | .kibi => 'K'
  | .mebi => 'M'

def PageUnit.bytes : PageUnit → Nat
  | .space | .byte => 1
  | .kibi => 1024
  | .mebi => 1024 * 1024

/-- A numeral in a base. -/
structure Numeral (base : Nat) where
  digits : List Char
  filled : digits ≠ []
  valid : ∀ c ∈ digits, isDigitOf base c = true

def Numeral.value {base : Nat} (numeral : Numeral base) : Nat := numberOf base 0 numeral.digits

/-- The parts of a name `@name/0xA/P*Sut`. -/
structure PageName where
  name : List Char
  address : Numeral 16
  pages : Numeral 10
  size : Numeral 10
  unit : PageUnit
  type : UInt8
  plain : '/' ∉ name
  separates : Char.ofUInt8 type ∉ ['/', '*']
  addressFits : address.value < 2 ^ 63
  pagesFit : pages.value < 2 ^ 16
  sizeFits : size.value * unit.bytes < 2 ^ 32

namespace PageName

def pair (p : PageName) : List Char :=
  p.pages.digits ++ '*' :: (p.size.digits ++ [p.unit.character, Char.ofUInt8 p.type])

def text (p : PageName) : List Char :=
  ('@' :: p.name) ++ '/' :: (('0' :: 'x' :: p.address.digits) ++ '/' :: p.pair)

/-- A segment has what the name says. -/
structure Stored (p : PageName) (segment : Segment) : Prop where
  address : segment.address.toNat = p.address.value
  pages : segment.pages.toNat = p.pages.value
  pageSize : segment.pageSize.toNat = p.size.value * p.unit.bytes
  pageType : segment.pageType = p.type

end PageName

section Numerals

variable {base : Nat} (numeral : Numeral base)

theorem Numeral.hex {c : Char} (member : c ∈ numeral.digits) : (hexValue c).isSome := by
  obtain ⟨value, found, -⟩ := (Option.any_eq_true _ _).mp (numeral.valid c member)
  rw [found]
  rfl

/-- No digit is a separator. -/
theorem Numeral.not_mem {c : Char} (other : hexValue c = none) : c ∉ numeral.digits := by
  intro member
  have found := numeral.hex member
  rw [other] at found
  cases found

theorem Numeral.takeWhile_append (rest : List Char) (stop : rest.takeWhile (isDigitOf base) = []) :
    (numeral.digits ++ rest).takeWhile (isDigitOf base) = numeral.digits := by
  rw [List.takeWhile_append_of_pos numeral.valid, stop, List.append_nil]

theorem strtol_address (address : Numeral 16) (fits : address.value < 2 ^ 63) :
    (strtol 16 ('0' :: 'x' :: address.digits)).1 = address.value := by
  have whole : address.digits.takeWhile (isDigitOf 16) = address.digits := by
    rw [List.takeWhile_eq_self_iff]
    exact address.valid
  have read : signedNumber 16 ('0' :: 'x' :: address.digits) = (false, address.value) := by
    rw [signedNumber_digit 16 (by decide), if_pos rfl]
    show (false, numberOf 16 0 (address.digits.takeWhile _)) = _
    rw [whole]
    rfl
  unfold strtol
  rw [read]
  dsimp only
  rw [if_pos fits]

theorem strtol_numeral (numeral : Numeral 10) (fits : numeral.value < 2 ^ 63) (rest : List Char)
    (stop : rest.takeWhile (isDigitOf 10) = []) : (strtol 10 (numeral.digits ++ rest)).1 = numeral.value :=
  (strtol_digits numeral.filled numeral.valid fits stop).1

theorem decimalEnd_numeral (numeral : Numeral 10) (rest : List Char)
    (stop : rest.takeWhile (isDigitOf 10) = []) : decimalEnd (numeral.digits ++ rest) = rest := by
  obtain ⟨c, more, same⟩ := List.exists_cons_of_ne_nil numeral.filled
  have sign : (signOf ((numeral.digits ++ rest).dropWhile isSpace)).2 = numeral.digits ++ rest := by
    rw [same, List.cons_append, signOf_digit (numeral.hex (same ▸ List.mem_cons_self ..))]
  have behind : (numeral.digits ++ rest).dropWhile (isDigitOf 10) = rest := by
    have whole := List.takeWhile_append_dropWhile (p := isDigitOf 10) (l := rest)
    rwa [stop, List.nil_append, ← List.dropWhile_append_of_pos numeral.valid] at whole
  unfold decimalEnd
  dsimp only
  rw [sign, numeral.takeWhile_append rest stop, if_neg numeral.filled, behind]

end Numerals

section Stores

theorem scaled_toNat (unit : PageUnit) {size : Nat} (fits : size * unit.bytes < 2 ^ 32) :
    (scaled unit.character (UInt32.ofInt size)).toNat = size * unit.bytes := by
  have one : 1 ≤ unit.bytes := by cases unit <;> decide
  have small : size < 2 ^ 32 := (Nat.le_mul_of_pos_right size one).trans_lt fits
  have number : (UInt32.ofInt size).toNat = size := by
    have same : ((size : Int) % 2 ^ 32).toNat = size := by omega
    unfold UInt32.ofInt
    rw [same]
    exact UInt32.toNat_ofNat_of_lt' small
  cases unit with
  | space | byte => exact number.trans (Nat.mul_one size).symm
  | kibi =>
    show (UInt32.ofInt size * 1024).toNat = _
    rw [UInt32.toNat_mul, number]
    exact Nat.mod_eq_of_lt fits
  | mebi =>
    show (UInt32.ofInt size * (1024 * 1024)).toNat = _
    rw [UInt32.toNat_mul, number]
    exact Nat.mod_eq_of_lt fits

variable (p : PageName)

private theorem unit_stops : [p.unit.character, Char.ofUInt8 p.type].takeWhile (isDigitOf 10) = [] := by
  rw [List.takeWhile_cons_of_neg]
  cases p.unit <;> decide

private theorem pair_plain : '/' ∉ p.pair ∧ '*' ∉ p.size.digits ++ [p.unit.character, Char.ofUInt8 p.type] := by
  have separates := p.separates
  simp only [List.mem_cons, List.not_mem_nil, or_false, not_or] at separates
  have unit (c : Char) (separator : c = '/' ∨ c = '*') : c ≠ p.unit.character := by
    obtain rfl | rfl := separator
    · cases p.unit <;> decide
    · cases p.unit <;> decide
  have slash := unit '/' (.inl rfl)
  have star := unit '*' (.inr rfl)
  unfold PageName.pair
  simp only [List.mem_append, List.mem_cons, List.not_mem_nil, or_false, not_or]
  refine ⟨⟨p.pages.not_mem (by decide), by decide, p.size.not_mem (by decide), slash, ?_⟩,
    p.size.not_mem (by decide), star, ?_⟩
  · exact fun same => separates.1 same.symm
  · exact fun same => separates.2 same.symm

theorem decodePair_stored :
    ∃ segment, decodePair ('0' :: 'x' :: p.address.digits) p.pair = .ok segment ∧ p.Stored segment := by
  have stop := unit_stops p
  have split : pieces '*' p.pair =
      [p.pages.digits, p.size.digits ++ [p.unit.character, Char.ofUInt8 p.type]] := by
    unfold PageName.pair
    rw [pieces_append (p.pages.not_mem (by decide)), pieces_of_not_mem (pair_plain p).2, if_neg (by simp)]
  have pages := strtol_numeral p.pages (p.pagesFit.trans (by decide)) [] rfl
  rw [List.append_nil] at pages
  have one : 1 ≤ p.unit.bytes := by cases p.unit <;> decide
  have small : p.size.value < 2 ^ 32 := (Nat.le_mul_of_pos_right p.size.value one).trans_lt p.sizeFits
  have addressFits := p.addressFits
  have pagesFit := p.pagesFit
  have addressSame : ((p.address.value : Int) % 2 ^ 64).toNat = p.address.value := by omega
  have pagesSame : ((p.pages.value : Int) % 2 ^ 16).toNat = p.pages.value := by omega
  unfold decodePair
  rw [split]
  dsimp only
  rw [decimalEnd_numeral p.size _ stop]
  dsimp only
  rw [strtol_address p.address p.addressFits, pages, strtol_numeral p.size (small.trans (by decide)) _ stop]
  refine ⟨_, rfl, ?_, ?_, scaled_toNat p.unit p.sizeFits, ?_⟩
  · show (UInt64.ofNat _).toNat = _
    rw [addressSame]
    exact UInt64.toNat_ofNat_of_lt' (addressFits.trans (by decide))
  · show (UInt16.ofNat _).toNat = _
    rw [pagesSame]
    exact UInt16.toNat_ofNat_of_lt' pagesFit
  · exact UInt8.ofNat_toNat

private theorem pieces_text :
    pieces '/' p.text = ['@' :: p.name, '0' :: 'x' :: p.address.digits, p.pair] := by
  have plain : '/' ∉ '@' :: p.name := List.not_mem_cons_of_ne_of_not_mem (by decide) p.plain
  have plain' : '/' ∉ '0' :: 'x' :: p.address.digits := by
    simp only [List.mem_cons, not_or]
    exact ⟨by decide, by decide, p.address.not_mem (by decide)⟩
  have filled : p.pair ≠ [] := by simp [PageName.pair]
  unfold PageName.text
  rw [pieces_append plain, pieces_append plain', pieces_of_not_mem (pair_plain p).1, if_neg filled]

theorem announces_text : Announces p.text := announces_iff.mpr ⟨rfl, _, _, _, pieces_text p⟩

theorem decode_stored (segment : Segment) :
    ∃ stored, decodeMemoryPageDescriptor p.text (some segment) = .ok (some stored, 0) ∧ p.Stored stored := by
  obtain ⟨stored, decoded, holds⟩ := decodePair_stored p
  refine ⟨stored, ?_, holds⟩
  unfold decodeMemoryPageDescriptor
  rw [if_neg (by simp [PageName.text]), pieces_text]
  dsimp only
  rw [decoded]
  rfl

example : decodeMemoryPageDescriptor "@Internal Flash  /0x08000000/0256*0002Kg".toList (some ⟨⟨0, 0⟩, 0, 0⟩) =
    .ok (some ⟨⟨0x08000000, 0x800⟩, 256, 0x67⟩, 0) := rfl

end Stores

/-- The name that a setting adds to `dfuDescriptors`, if it is one of a device in DFU mode with a name. -/
def AltSetting.dfuName (intf : AltSetting) (idVendor idProduct : UInt16) : Option (List Char) :=
  match intf.funcDescriptor with
  | .error _ => none
  | .ok funcDescriptor =>
    if intf.bInterfaceClass = 0xfe ∧ intf.bInterfaceSubClass = 1 ∧
        intf.dfuMode idVendor idProduct (versionOf funcDescriptor) ∧ intf.iInterface ≠ 0 then
      some (textOf ((intf.getStringDescriptorAscii maxDescStrLen).getD []))
    else none

def DeviceInfo.add (info : DeviceInfo) (name : List Char) : Except Missing DeviceInfo :=
  (decodeMemoryPageDescriptor name info.segments[info.dfuDescriptors.length]?).map fun decoded =>
    { dfuDescriptors := info.dfuDescriptors ++ [name]
      segments := decoded.1.elim info.segments (info.segments.setIfInBounds info.dfuDescriptors.length) }

section Steps

variable (idVendor idProduct : UInt16) {info : DeviceInfo}

/-- A name that is empty changes no segment. -/
theorem DeviceInfo.add_nil (info : DeviceInfo) :
    info.add [] = .ok { info with dfuDescriptors := info.dfuDescriptors ++ [[]] } := by
  have same : info.segments[info.dfuDescriptors.length]?.elim info.segments
      (info.segments.setIfInBounds info.dfuDescriptors.length) = info.segments := by
    cases found : info.segments[info.dfuDescriptors.length]? with
    | none => rfl
    | some segment =>
      obtain ⟨inside, rfl⟩ := Vector.getElem?_eq_some_iff.mp found
      refine Vector.ext fun k bound => ?_
      show (info.segments.setIfInBounds _ _)[k] = _
      rw [Vector.getElem_setIfInBounds]
      split
      case isTrue here => simp only [here]
      case isFalse => rfl
  unfold DeviceInfo.add decodeMemoryPageDescriptor
  rw [if_pos (by decide)]
  show Except.ok _ = _
  dsimp only
  rw [same]

/-- What a setting comes to. -/
theorem fetchSetting_eq (info : DeviceInfo) (intf : AltSetting) : fetchSetting idVendor idProduct info intf =
    match intf.dfuName idVendor idProduct with
    | none => .ok info
    | some name => info.add name := by
  obtain ⟨funcDescriptor, same⟩ := intf.funcDescriptor_ok
  unfold fetchSetting AltSetting.dfuName
  rw [same]
  dsimp only
  by_cases other : intf.bInterfaceClass ≠ 0xfe ∨ intf.bInterfaceSubClass ≠ 1
  · rw [if_pos other, if_neg fun mode => other.elim (· mode.1) (· mode.2.1)]
  · obtain ⟨first, second⟩ := not_or.mp other
    rw [if_neg other]
    by_cases mode : intf.dfuMode idVendor idProduct (versionOf funcDescriptor) ∧ intf.iInterface ≠ 0
    · rw [if_pos mode, if_pos ⟨Classical.not_not.mp first, Classical.not_not.mp second, mode⟩]
      rcases intf.getStringDescriptorAscii maxDescStrLen with - | - | ⟨byte, bytes⟩
      · exact info.add_nil.symm
      · exact info.add_nil.symm
      · dsimp only [Option.getD_some]
        unfold DeviceInfo.add
        cases decodeMemoryPageDescriptor (textOf (byte :: bytes)) info.segments[info.dfuDescriptors.length]? with
        | error => rfl
        | ok => rfl
    · rw [if_neg mode, if_neg fun mode' => mode mode'.2.2]

/-- The names that are added. -/
def dfuNames (settings : List AltSetting) : List (List Char) :=
  settings.filterMap fun intf => intf.dfuName idVendor idProduct

theorem fetchDeviceInfo_eq (settings : List AltSetting) (info : DeviceInfo) :
    fetchDeviceInfo idVendor idProduct settings info =
      (dfuNames idVendor idProduct settings).foldlM DeviceInfo.add info := by
  induction settings generalizing info with
  | nil => rfl
  | cons intf settings ih =>
    unfold fetchDeviceInfo dfuNames
    rw [List.foldlM_cons, fetchSetting_eq, List.filterMap_cons]
    cases intf.dfuName idVendor idProduct with
    | none => exact ih info
    | some name =>
      rw [List.foldlM_cons]
      exact congrArg (info.add name >>= ·) (funext ih)

end Steps

section Names

variable {info info' : DeviceInfo} {name : List Char} {names : List (List Char)}

theorem DeviceInfo.add_ok_iff : (∃ added, info.add name = .ok added) ↔
    (Announces name → info.dfuDescriptors.length < 4 ∧ Describes name) := by
  have decoded := @decode_ok_iff name info.segments[info.dfuDescriptors.length]?
  rw [show info.segments[info.dfuDescriptors.length]?.isSome = true ↔ info.dfuDescriptors.length < 4 by simp] at decoded
  rw [← decoded]
  unfold DeviceInfo.add
  cases decodeMemoryPageDescriptor name info.segments[info.dfuDescriptors.length]? with
  | error => exact iff_of_false nofun nofun
  | ok decoded => exact iff_of_true ⟨_, rfl⟩ ⟨_, rfl⟩

theorem DeviceInfo.add_dfuDescriptors (added : info.add name = .ok info') :
    info'.dfuDescriptors = info.dfuDescriptors ++ [name] := by
  unfold DeviceInfo.add at added
  cases found : decodeMemoryPageDescriptor name info.segments[info.dfuDescriptors.length]? with
  | error => rw [found] at added; cases added
  | ok => rw [found] at added; cases added; rfl

theorem addAll_ok_iff : (∃ added, names.foldlM DeviceInfo.add info = .ok added) ↔
    ∀ k name, names[k]? = some name → Announces name → info.dfuDescriptors.length + k < 4 ∧ Describes name := by
  induction names generalizing info with
  | nil => exact iff_of_true ⟨info, rfl⟩ nofun
  | cons name names ih =>
    rw [List.foldlM_cons]
    cases found : info.add name with
    | error missing =>
      refine iff_of_false nofun fun all => ?_
      obtain ⟨added, same⟩ := DeviceInfo.add_ok_iff.mpr (all 0 name rfl)
      rw [found] at same
      cases same
    | ok added =>
      show (∃ added', names.foldlM DeviceInfo.add added = .ok added') ↔ _
      rw [ih, DeviceInfo.add_dfuDescriptors found, List.length_append, List.length_singleton]
      have first := DeviceInfo.add_ok_iff.mp ⟨added, found⟩
      constructor
      · intro later k other member
        cases k with
        | zero => cases member; exact first
        | succ k =>
          intro announced
          obtain ⟨few, described⟩ := later k other member announced
          exact ⟨by omega, described⟩
      · intro all k other member announced
        obtain ⟨few, described⟩ := all (k + 1) other member announced
        exact ⟨by omega, described⟩

/-- Each name of the form has its segment. -/
def DeviceInfo.Decoded (info : DeviceInfo) : Prop :=
  ∀ (k : Nat) (p : PageName), info.dfuDescriptors[k]? = some p.text →
    ∃ segment, info.segments[k]? = some segment ∧ p.Stored segment

theorem DeviceInfo.Decoded.add (decoded : info.Decoded) (added : info.add name = .ok info') : info'.Decoded := by
  have names := DeviceInfo.add_dfuDescriptors added
  intro k p member
  rw [names] at member
  obtain earlier | here := Nat.lt_or_ge k info.dfuDescriptors.length
  · rw [List.getElem?_append_left earlier] at member
    obtain ⟨segment, place, stored⟩ := decoded k p member
    refine ⟨segment, ?_, stored⟩
    unfold DeviceInfo.add at added
    cases found : decodeMemoryPageDescriptor name info.segments[info.dfuDescriptors.length]? with
    | error => rw [found] at added; cases added
    | ok result =>
      rw [found] at added
      cases added
      rcases result with ⟨_ | segment', code⟩
      · exact place
      · exact (Vector.getElem?_setIfInBounds_ne (Nat.ne_of_gt earlier)).trans place
  · obtain ⟨last, same⟩ : k = info.dfuDescriptors.length ∧ name = p.text := by
      rw [List.getElem?_append_right here, List.getElem?_singleton] at member
      split_ifs at member
      exact ⟨by omega, Option.some.inj member⟩
    subst last same
    obtain ⟨few, -⟩ := DeviceInfo.add_ok_iff.mp ⟨info', added⟩ (announces_text p)
    obtain ⟨segment, decoded, stored⟩ := decode_stored p info.segments[info.dfuDescriptors.length]
    unfold DeviceInfo.add at added
    rw [Vector.getElem?_eq_getElem few, decoded] at added
    cases added
    exact ⟨segment, Vector.getElem?_setIfInBounds_self_of_lt few, stored⟩

theorem DeviceInfo.Decoded.addAll (decoded : info.Decoded) (added : names.foldlM DeviceInfo.add info = .ok info') :
    info'.Decoded := by
  induction names generalizing info with
  | nil => cases added; exact decoded
  | cons name names ih =>
    rw [List.foldlM_cons] at added
    cases found : info.add name with
    | error => rw [found] at added; cases added
    | ok next =>
      rw [found] at added
      exact ih (decoded.add found) added

end Names

/-- The descriptors of a device are decoded within bounds, and the names of the form as they say. -/
structure DecodedInBounds (idVendor idProduct : UInt16) (settings : List AltSetting) (segments : Vector Segment 4) :
    Prop where
  descriptors : ∀ intf ∈ settings, ∃ found, findDescriptor intf.extra usbDescriptorDfu 9 = .ok found ∧
    ∀ copied ∈ found, copied.length ≤ 9
  info : ∃ info, fetchDeviceInfo idVendor idProduct settings ⟨[], segments⟩ = .ok info ∧ info.Decoded

/-- They are exactly if only the first four names announce segments, and each of these describes one. -/
theorem decodedInBounds_iff (idVendor idProduct : UInt16) (settings : List AltSetting) (segments : Vector Segment 4) :
    DecodedInBounds idVendor idProduct settings segments ↔
      ∀ k name, (dfuNames idVendor idProduct settings)[k]? = some name → Announces name → k < 4 ∧ Describes name := by
  have added := @addAll_ok_iff ⟨[], segments⟩ (dfuNames idVendor idProduct settings)
  rw [← fetchDeviceInfo_eq] at added
  simp only [List.length_nil, Nat.zero_add] at added
  constructor
  · rintro ⟨-, info, fetched, -⟩
    exact added.mp ⟨info, fetched⟩
  · intro all
    obtain ⟨info, fetched⟩ := added.mpr all
    have decoded := fetched
    rw [fetchDeviceInfo_eq] at decoded
    refine ⟨fun intf _ => findDescriptor_bounded .., info, fetched, ?_⟩
    exact DeviceInfo.Decoded.addAll (fun k p member => by cases member) decoded

/-- An alternate setting in DFU mode with this name. -/
def settingNamed (name : List UInt8) : AltSetting where
  bInterfaceClass := 0xfe
  bInterfaceSubClass := 1
  bInterfaceProtocol := 2
  iInterface := 4
  extra := [9, 0x21, 0x0b, 0xff, 0x00, 0x00, 0x08, 0x1a, 0x01]
  functional := none
  languages := some [4, 3, 0x09, 0x04]
  name := some (UInt8.ofNat (2 + 2 * name.length) :: 3 :: name.flatMap fun c => [c, 0])

/-- There are no pages behind the address in `@OTP/0x1FFF7000`. -/
theorem address_without_pages : ¬DecodedInBounds 0x0483 0xdf11
    [settingNamed [0x40, 0x4f, 0x54, 0x50, 0x2f, 0x30, 0x78, 0x31, 0x46, 0x46, 0x46, 0x37, 0x30, 0x30, 0x30]]
    (.replicate 4 ⟨⟨0, 0⟩, 0, 0⟩) := by
  rintro ⟨-, info, fetched, -⟩
  cases fetched

end InertialSense.Bootloader.MemoryPages
