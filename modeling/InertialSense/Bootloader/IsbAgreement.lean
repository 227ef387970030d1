import InertialSense.Bootloader.IsbUpload
import InertialSense.Bootloader.IsbTerminates

/-! `verify_image` after `process_hex_file`: a device that acknowledges everything and sends back what
it was given passes, if the digits of the file are capital ones and its pages follow one another. -/

namespace InertialSense.Bootloader.Isb

open Foundation Ihex

/-- A digit that the device sends. -/
def upperDigit (value : Nat) : UInt8 := UInt8.ofNat (if value < 10 then 0x30 + value else 0x37 + value)

def pairOf (byte : UInt8) : List UInt8 := [upperDigit (byte.toNat / 16), upperDigit (byte.toNat % 16)]

/-- The digits of bytes. -/
def textOf (bytes : List UInt8) : List UInt8 := bytes.flatMap pairOf

/-- The start of a line that the device sends. -/
def headOf (offset : Nat) : List UInt8 :=
  pairOf (UInt8.ofNat (offset / 256)) ++ pairOf (UInt8.ofNat (offset % 256))

/-- The lines in which the device sends bytes that start at this offset of a page. -/
inductive AnswerLines : Nat → List UInt8 → List UInt8 → Prop where
  | none {offset : Nat} : AnswerLines offset [] []
  | line {offset : Nat} {bytes bytes' text : List UInt8} (some : bytes ≠ [])
      (rest : AnswerLines (offset + bytes.length) bytes' text) :
      AnswerLines offset (bytes ++ bytes')
        (headOf offset ++ 0x3D :: (textOf bytes ++ 0x0D :: 0x0A :: text))

/-- What a device holds between two addresses. -/
def bytesBetween (stored : Nat → UInt8) (start stop : Nat) : List UInt8 :=
  (List.range (stop - start)).map fun k => stored (start + k)

/-- A device without faults: it sends the bytes that it is asked for in lines for which there is
room. -/
structure Answers (image : Image) (stored : Nat → UInt8) (s : Verify) (input : Input) : Prop where
  answer : input.answer = true
  goes : ∀ k, input.callback k = true
  lines : s.Passing → input.bytes.length ≤ s.requested image ∧
    AnswerLines s.pageOffset.toNat
      (bytesBetween stored (65536 * s.i.toNat + s.pageOffset.toNat)
        (65536 * s.i.toNat + s.pageOffset.toNat + (s.readCount image).toNat)) input.bytes

section Digits

private theorem upperDigit_upper {value : Nat} (small : value < 16) :
    isUpperDigit (upperDigit value) = true := by
  have all : ∀ value < 16, isUpperDigit (upperDigit value) = true := by decide
  exact all value small

theorem textOf_upper (bytes : List UInt8) : ∀ c ∈ textOf bytes, isUpperDigit c = true := by
  intro c member
  obtain ⟨byte, -, inside⟩ := List.mem_flatMap.mp member
  have small := byte.toNat_lt
  simp only [pairOf, List.mem_cons, List.not_mem_nil, or_false] at inside
  obtain rfl | rfl := inside
  · exact upperDigit_upper (by omega)
  · exact upperDigit_upper (by omega)

theorem textOf_length (bytes : List UInt8) : (textOf bytes).length = 2 * bytes.length := by
  induction bytes with
  | nil => rfl
  | cons byte rest ih =>
    show (pairOf byte ++ textOf rest).length = _
    rw [List.length_append, ih, List.length_cons]
    show 2 + _ = _
    omega

theorem textOf_append (first second : List UInt8) :
    textOf (first ++ second) = textOf first ++ textOf second := List.flatMap_append

private theorem upper_eq {c : UInt8} {value : Nat} (upper : isUpperDigit c = true)
    (digit : hexValue (Char.ofUInt8 c) = some value) : c = upperDigit value := by
  have all : (List.range 256).all fun c => isUpperDigit (UInt8.ofNat c) →
      (hexValue (Char.ofUInt8 (UInt8.ofNat c))).all fun value =>
        UInt8.ofNat c = upperDigit value := by decide +kernel
  have known := List.all_eq_true.mp all c.toNat (List.mem_range.mpr c.toNat_lt)
  rw [UInt8.ofNat_toNat, digit] at known
  exact of_decide_eq_true (of_decide_eq_true known upper)

theorem Digits.upper {chars bytes : List UInt8} (digits : Digits chars bytes)
    (upper : ∀ c ∈ chars, isUpperDigit c = true) : chars = textOf bytes := by
  induction bytes generalizing chars with
  | nil => exact List.eq_nil_of_length_eq_zero digits.length
  | cons byte bytes ih =>
    obtain ⟨high, low, rest, rfl, pair, others⟩ := digits.cons
    obtain ⟨first, upper⟩ := List.forall_mem_cons.mp upper
    obtain ⟨second, upper⟩ := List.forall_mem_cons.mp upper
    obtain ⟨one, two, found, found', value, small, small'⟩ := pair_values pair
    have high_eq : byte.toNat / 16 = one := by omega
    have low_eq : byte.toNat % 16 = two := by omega
    show _ = upperDigit (byte.toNat / 16) :: upperDigit (byte.toNat % 16) :: textOf bytes
    rw [high_eq, low_eq, ← upper_eq first found, ← upper_eq second found', ← ih others upper]

private theorem pairOf_digits (byte : UInt8) : Digits (pairOf byte) [byte] := by
  have all : (List.range 256).all fun byte =>
      hexBytes ((pairOf (UInt8.ofNat byte)).map Char.ofUInt8) = some [UInt8.ofNat byte] := by
    decide +kernel
  have known := of_decide_eq_true
    (List.all_eq_true.mp all byte.toNat (List.mem_range.mpr byte.toNat_lt))
  rwa [UInt8.ofNat_toNat] at known

private theorem headOf_number {offset : Nat} (small : offset < 65536) :
    (strtol 16 ((headOf offset).map Char.ofUInt8)).1 = offset := by
  have digits : Digits (headOf offset) [UInt8.ofNat (offset / 256), UInt8.ofNat (offset % 256)] :=
    (pairOf_digits _).append (pairOf_digits _)
  have number := half_number digits
  rw [UInt8.toNat_ofNat', UInt8.toNat_ofNat'] at number
  refine number.trans ?_
  omega

end Digits

/-! ### A line that the device sends -/

/-- What reading these digits comes to. -/
structure Took (s s' : Verify) (digits : List UInt8) : Prop where
  reads : Reads s s'
  checkSum : s'.realCheckSum = hashed s.realCheckSum digits

section Lines

variable {opened : Bool} {chunkBuffer : List UInt8} {s : Verify}

theorem Took.trans {s' s'' : Verify} {first second : List UInt8} (took : Took s s' first)
    (took' : Took s' s'' second) : Took s s'' (first ++ second) where
  reads := ⟨took'.reads.i.trans took.reads.i, took'.reads.selected.trans took.reads.selected,
    took'.reads.pageOffset.trans took.reads.pageOffset,
    took'.reads.returned.trans took.reads.returned⟩
  checkSum := by
    rw [took'.checkSum, took.checkSum]
    exact List.foldl_append.symm

private theorem digit_took (s : Verify) (c : UInt8) : Took s (s.digit opened c) [c] := by
  unfold Verify.digit
  dsimp only
  split
  case isTrue =>
    split
    · exact ⟨⟨rfl, rfl, rfl, rfl⟩, rfl⟩
    · exact ⟨⟨rfl, rfl, rfl, rfl⟩, rfl⟩
  case isFalse => exact ⟨⟨rfl, rfl, rfl, rfl⟩, rfl⟩

private theorem drop_succ {chunkIndex : Nat} {c : UInt8} {rest : List UInt8}
    (behind : chunkBuffer.drop chunkIndex = c :: rest) :
    chunkBuffer[chunkIndex]? = some c ∧ chunkBuffer.drop (chunkIndex + 1) = rest := by
  constructor
  · have first := congrArg (·[0]?) behind
    simpa using first
  · rw [← List.drop_drop, behind]
    rfl

/-- Digits up to the end of their line. -/
private theorem readChars_digits {digits rest : List UInt8} {left chunkIndex pageChars : Nat}
    (upper : ∀ c ∈ digits, isUpperDigit c = true)
    (behind : chunkBuffer.drop chunkIndex = digits ++ 0x0D :: 0x0A :: rest)
    (enough : digits.length + 2 ≤ left) : ∃ s', s'.c = 0x0A ∧ Took s s' digits ∧
      readChars opened chunkBuffer left s chunkIndex pageChars =
        .ends s' (chunkIndex + digits.length + 2) (pageChars + digits.length) := by
  induction digits generalizing left chunkIndex pageChars s with
  | nil =>
    obtain ⟨left, rfl⟩ := Nat.exists_eq_add_of_le enough
    obtain ⟨first, next⟩ := drop_succ behind
    obtain ⟨second, -⟩ := drop_succ next
    refine ⟨{ s with c := 0x0A }, rfl, ⟨⟨rfl, rfl, rfl, rfl⟩, rfl⟩, ?_⟩
    rw [List.length_nil, show 0 + 2 + left = left + 1 + 1 by omega]
    unfold readChars
    rw [first]
    dsimp only
    rw [if_neg (by decide), if_pos rfl]
    unfold readChars
    rw [second]
    dsimp only
    rw [if_neg (by decide), if_neg (by decide), if_pos rfl]
    rfl
  | cons c digits ih =>
    obtain ⟨here, upper⟩ := List.forall_mem_cons.mp upper
    obtain ⟨first, next⟩ := drop_succ behind
    rw [List.length_cons] at enough
    obtain ⟨left, rfl⟩ := Nat.exists_eq_add_of_le' (show 1 ≤ left by omega)
    obtain ⟨s', ends, took, read⟩ :=
      @ih (s.digit opened c) left (chunkIndex + 1) (pageChars + 1) upper next (by omega)
    refine ⟨s', ends, (digit_took s c).trans took, ?_⟩
    unfold readChars
    rw [first]
    dsimp only
    rw [if_pos here, read, List.length_cons]
    congr 1 <;> omega

private theorem headOf_cells (offset : Nat) : ∃ w x y z, headOf offset = [w, x, y, z] ∧ w ≠ 0x58 := by
  refine ⟨_, _, _, _, rfl, ?_⟩
  have small : (UInt8.ofNat (offset / 256)).toNat / 16 < 16 := by
    have less := (UInt8.ofNat (offset / 256)).toNat_lt
    omega
  have all : ∀ value < 16, upperDigit value ≠ 0x58 := by decide
  exact all _ small

theorem readLines_answer {offset : Nat} {bytes text : List UInt8}
    (lines : AnswerLines offset bytes text) {callback : Nat → Bool}
    (goes : ∀ k, callback k = true) {left line chunkIndex : Nat}
    (behind : chunkBuffer.drop chunkIndex = text) (inside : chunkIndex ≤ chunkBuffer.length)
    (enough : text.length ≤ left) (place : s.pageOffset = offset)
    (small : offset + bytes.length ≤ 65536) (running : s.returned = none) :
    ∃ s', readLines opened callback chunkBuffer left line s chunkIndex = s' ∧
      s'.returned = none ∧ s'.i = s.i ∧ s'.selected = s.selected ∧
      s'.pageOffset = (offset + bytes.length : Nat) ∧
      s'.realCheckSum = hashed s.realCheckSum (textOf bytes) := by
  induction lines generalizing left line chunkIndex s with
  | none =>
    have ended : chunkBuffer.length ≤ chunkIndex := List.drop_eq_nil_iff.mp behind
    refine ⟨s, ?_, running, rfl, rfl, place, rfl⟩
    cases left with
    | zero => rfl
    | succ left => exact if_pos ended
  | line some rest ih =>
    rename_i offset bytes bytes' text
    obtain ⟨w, x, y, z, head, other⟩ := headOf_cells offset
    have number := headOf_number (show offset < 65536 by
      have positive := List.length_pos_iff.mpr some
      rw [List.length_append] at small
      omega)
    rw [head] at behind enough number
    have length := congrArg List.length behind
    simp only [List.length_drop, List.length_append, List.length_cons, List.length_nil,
      textOf_length] at length enough
    obtain ⟨left, rfl⟩ := Nat.exists_eq_add_of_le' (show 1 ≤ left by omega)
    have cells : chunkBuffer.drop chunkIndex =
        w :: x :: y :: z :: 0x3D :: (textOf bytes ++ 0x0D :: 0x0A :: text) := behind
    obtain ⟨first, next⟩ := drop_succ cells
    obtain ⟨second, next⟩ := drop_succ next
    obtain ⟨third, next⟩ := drop_succ next
    obtain ⟨fourth, next⟩ := drop_succ next
    obtain ⟨mark, next⟩ := drop_succ next
    have headAt_eq : headAt chunkBuffer chunkIndex = Option.some [w, x, y, z] := by
      unfold headAt
      simp only [List.range_succ, List.range_zero, List.nil_append, List.cons_append,
        List.mapM_cons, List.mapM_nil, Nat.add_zero, first, second, third, fourth]
      rfl
    obtain ⟨s₁, ends, took, read⟩ := @readChars_digits opened chunkBuffer s _ _
      (chunkBuffer.length - (chunkIndex + 5)) (chunkIndex + 5) 0 (textOf_upper bytes) next
      (by rw [textOf_length]; omega)
    rw [textOf_length, Nat.zero_add] at read
    have onto : chunkBuffer.drop (chunkIndex + 5 + 2 * bytes.length + 2) = text := by
      rw [Nat.add_assoc, ← List.drop_drop, next, ← textOf_length, ← List.drop_drop, List.drop_left]
      rfl
    have came : s₁.pageOffset + (2 * bytes.length / 2 : Nat) = (offset + bytes.length : Nat) := by
      rw [took.reads.pageOffset, place]
      omega
    rw [List.length_append, ← Nat.add_assoc] at small
    obtain ⟨s', later, returned, i, selected, pageOffset, checkSum⟩ :=
      @ih { s₁ with pageOffset := s₁.pageOffset + (2 * bytes.length / 2 : Nat) } left (line + 1)
        (chunkIndex + 5 + 2 * bytes.length + 2) onto (by omega) (by omega) came small
        (took.reads.returned.trans running)
    refine ⟨s', ?_, returned, i.trans took.reads.i, selected.trans took.reads.selected, ?_, ?_⟩
    · unfold readLines
      rw [if_neg (by omega), if_neg (by omega), first, mark, headAt_eq]
      dsimp only
      rw [if_neg (by simp [other]), if_neg (by rw [number, place]; simp), read]
      dsimp only
      rw [if_neg (by simp [ends]), if_pos (goes line)]
      exact later
    · rw [pageOffset, List.length_append, Nat.add_assoc]
    · rw [checkSum, textOf_append]
      show hashed s₁.realCheckSum _ = _
      rw [took.checkSum]
      exact List.foldl_append.symm

end Lines

/-! ### All pages -/

namespace Verify

section Pages

variable {image : Image} {stored : Nat → UInt8} {inputs : Nat → Input} {appOffset : Nat}

/-- What has been read is what the device holds up to this address. -/
structure Reading (stored : Nat → UInt8) (appOffset position : Nat) (s : Verify) : Prop where
  running : s.returned = none
  checkSum : s.realCheckSum = hashed 5381 (textOf (bytesBetween stored appOffset position))

/-- The function is so far in a page. -/
structure AtOffset (stored : Nat → UInt8) (appOffset page offset : Nat) (s : Verify) : Prop where
  reading : Reading stored appOffset (65536 * page + offset) s
  i : s.i = page
  selected : s.selected = true
  pageOffset : s.pageOffset = offset

/-- The function is before a page. -/
structure Before (stored : Nat → UInt8) (appOffset page : Nat) (s : Verify) : Prop where
  reading : Reading stored appOffset (if page = 0 then appOffset else 65536 * page) s
  i : s.i = page
  selected : s.selected = false

private theorem bytesBetween_append {start middle stop : Nat} (first : start ≤ middle)
    (second : middle ≤ stop) : bytesBetween stored start middle ++ bytesBetween stored middle stop =
      bytesBetween stored start stop := by
  obtain ⟨count, rfl⟩ := Nat.exists_eq_add_of_le first
  obtain ⟨more, rfl⟩ := Nat.exists_eq_add_of_le second
  unfold bytesBetween
  rw [Nat.add_sub_cancel_left, Nat.add_sub_cancel_left, Nat.add_assoc, Nat.add_sub_cancel_left,
    List.range_add, List.map_append, List.map_map]
  refine congrArg _ (List.map_congr_left fun k _ => ?_)
  show stored (start + count + k) = stored (start + (count + k))
  rw [Nat.add_assoc]

/-- A pass comes on in its page. -/
private theorem pass_reads (size : 0 < image.verifySize) {page offset n : Nat}
    (reached : AtOffset stored appOffset page offset (after image inputs n))
    (answers : Answers image stored (after image inputs n) (inputs n)) (less : offset < 65536)
    (onward : appOffset ≤ 65536 * page + offset) : ∃ count, 0 < count ∧ offset + count ≤ 65536 ∧
      AtOffset stored appOffset page (offset + count) (after image inputs (n + 1)) := by
  rw [after_succ]
  generalize after image inputs n = s at *
  obtain ⟨⟨running, checkSum⟩, i, selected, pageOffset⟩ := reached
  have passing : s.Passing := ⟨running, selected, by rw [pageOffset]; unfold flashPageSize; omega⟩
  obtain ⟨room, lines⟩ := answers.lines passing
  obtain ⟨count, count_eq, positive, fits⟩ : ∃ count : Nat, s.readCount image = count ∧ 0 < count ∧
      offset + count ≤ 65536 := by
    unfold readCount flashPageSize
    exact ⟨(min (min 65536 image.verifySize) (65536 - s.pageOffset)).toNat, by omega, by omega,
      by omega⟩
  rw [count_eq, i, pageOffset, Int.toNat_natCast, Int.toNat_natCast, Int.toNat_natCast] at lines
  have length : (bytesBetween stored (65536 * page + offset) (65536 * page + offset + count)).length =
      count := by
    unfold bytesBetween
    rw [List.length_map, List.length_range, Nat.add_sub_cancel_left]
  obtain ⟨s', read, returned, i', selected', pageOffset', checkSum'⟩ :=
    @readLines_answer image.opened (inputs n).bytes s _ _ _ lines _ answers.goes
      (inputs n).bytes.length 0 0 rfl (Nat.zero_le _) (Nat.le_refl _) pageOffset
      (by rw [length]; exact fits) running
  have stepped : (step image s (inputs n)).1 = s' := by
    unfold step
    rw [running, if_neg (by decide), if_pos selected, if_pos passing.2.2]
    unfold pass
    rw [if_pos answers.answer]
    dsimp only
    rw [List.take_of_length_le room]
    exact read
  rw [stepped]
  refine ⟨count, positive, fits, ⟨returned, ?_⟩, i'.trans i, selected'.trans selected, ?_⟩
  · rw [checkSum', checkSum, ← Nat.add_assoc,
      ← bytesBetween_append onward (Nat.le_add_right _ count), textOf_append]
    exact List.foldl_append.symm
  · rw [pageOffset', length]

private theorem page_reads (size : 0 < image.verifySize)
    (answers : ∀ n, Answers image stored (after image inputs n) (inputs n)) {page offset n : Nat}
    (reached : AtOffset stored appOffset page offset (after image inputs n))
    (inside : offset ≤ 65536) (onward : appOffset ≤ 65536 * page + offset) :
    ∃ n', AtOffset stored appOffset page 65536 (after image inputs n') := by
  obtain ⟨left, count⟩ : ∃ left, 65536 - offset = left := ⟨_, rfl⟩
  induction left using Nat.strong_induction_on generalizing offset n with
  | _ left ih =>
    by_cases less : offset < 65536
    · obtain ⟨more, positive, fits, next⟩ := pass_reads size reached (answers n) less onward
      exact ih (65536 - (offset + more)) (by omega) next fits (by omega) rfl
    · obtain rfl : offset = 65536 := by omega
      exact ⟨n, reached⟩

/-- From before a page the function comes to before the next one. -/
private theorem page_next (size : 0 < image.verifySize) (place : image.appOffset = appOffset)
    (inside : appOffset ≤ 65536)
    (answers : ∀ n, Answers image stored (after image inputs n) (inputs n)) {page n : Nat}
    (reached : Before stored appOffset page (after image inputs n))
    (known : (page : Int) ≤ image.currentPage) :
    ∃ n', Before stored appOffset (page + 1) (after image inputs n') := by
  have selects : ∃ offset, offset ≤ 65536 ∧ appOffset ≤ 65536 * page + offset ∧
      AtOffset stored appOffset page offset (after image inputs (n + 1)) := by
    rw [after_succ]
    have answer := (answers n).answer
    generalize after image inputs n = s at *
    obtain ⟨⟨running, checkSum⟩, i, selected⟩ := reached
    unfold step
    rw [running, if_neg (by decide), selected, if_neg (by decide), i, if_pos known, if_pos answer]
    by_cases zero : page = 0
    · subst zero
      rw [if_pos rfl] at checkSum
      rw [if_pos Int.natCast_zero]
      refine ⟨appOffset, inside, by omega, ⟨rfl, ?_⟩, rfl, rfl, place⟩
      rw [Nat.mul_zero, Nat.zero_add]
      exact checkSum
    · rw [if_neg zero] at checkSum
      rw [if_neg (by omega)]
      exact ⟨0, Nat.zero_le _, by omega, ⟨rfl, checkSum⟩, rfl, rfl, rfl⟩
  obtain ⟨offset, fits, onward, reached⟩ := selects
  obtain ⟨n', ⟨running, checkSum⟩, i, selected, pageOffset⟩ :=
    page_reads size answers reached fits onward
  refine ⟨n' + 1, ?_⟩
  rw [after_succ]
  generalize after image inputs n' = s at *
  unfold step
  rw [running, if_neg (by decide), if_pos selected, if_neg (by rw [pageOffset]; decide)]
  refine ⟨⟨rfl, ?_⟩, ?_, rfl⟩
  · rw [if_neg (Nat.succ_ne_zero page), Nat.mul_succ]
    exact checkSum
  · show s.i + 1 = _
    rw [i]
    rfl

/-- A device that holds the bytes of the hash passes. -/
theorem after_ok (size : 0 < image.verifySize) (place : image.appOffset = appOffset)
    (inside : appOffset ≤ 65536) {last : Nat} (pages : image.currentPage = last)
    (hash : image.verifyCheckSum =
      hashed 5381 (textOf (bytesBetween stored appOffset (65536 * (last + 1)))))
    (answers : ∀ n, Answers image stored (after image inputs n) (inputs n)) :
    ∃ n, (after image inputs n).returned = some (.result .ok) := by
  have before (page : Nat) (few : page ≤ last + 1) :
      ∃ n, Before stored appOffset page (after image inputs n) := by
    induction page with
    | zero =>
      refine ⟨0, ⟨rfl, ?_⟩, rfl, rfl⟩
      rw [if_pos rfl]
      unfold bytesBetween
      rw [Nat.sub_self]
      rfl
    | succ page ih =>
      obtain ⟨n, reached⟩ := ih (Nat.le_of_succ_le few)
      exact page_next size place inside answers reached (by omega)
  obtain ⟨n, ⟨running, checkSum⟩, i, selected⟩ := before (last + 1) (Nat.le_refl _)
  refine ⟨n + 1, ?_⟩
  rw [after_succ]
  generalize after image inputs n = s at *
  rw [if_neg (Nat.succ_ne_zero last)] at checkSum
  unfold step
  rw [running, if_neg (by decide), selected, if_neg (by decide), if_neg (by omega), checkSum, hash,
    if_pos rfl]

end Pages

end Verify

/-- What a device holds after an upload. -/
def stored (flash : Flash) (address : Nat) : UInt8 := (lastAt flash.writes address).getD 0xFF

/-- A file that can be verified: its digits are capital ones, its pages are set, one after the other,
and the last one has data. -/
structure Verifiable (appOffset : Nat) (records : List HexRecord) (file : List UInt8) : Prop where
  inside : appOffset ≤ 65536
  image : ImageFile records file
  capital : ∀ c ∈ file, ¬(0x61 ≤ c ∧ c ≤ 0x66)
  ascending : Ascending appOffset 0 appOffset records
  adjoining : Adjoining 0 records
  set : ∃ upper, .extendedAddress upper ∈ records
  filled : 65536 * (endOf 0 appOffset records).1 < (endOf 0 appOffset records).2

private theorem upper_of_capital {c : UInt8} (capital : ¬(0x61 ≤ c ∧ c ≤ 0x66))
    (hex : (hexValue (Char.ofUInt8 c)).isSome) : isUpperDigit c = true := by
  have all : (List.range 256).all fun c =>
      ¬(0x61 ≤ UInt8.ofNat c ∧ UInt8.ofNat c ≤ 0x66) →
        (hexValue (Char.ofUInt8 (UInt8.ofNat c))).isSome → isUpperDigit (UInt8.ofNat c) = true := by
    decide +kernel
  have known := of_decide_eq_true
    (List.all_eq_true.mp all c.toNat (List.mem_range.mpr c.toNat_lt))
  rw [UInt8.ofNat_toNat] at known
  exact known capital hex

private theorem isIsbReadLine_mem {room : Nat} {file : List UInt8} :
    (∀ c ∈ (isIsbReadLine room file).1, c ∈ file) ∧ ∀ c ∈ (isIsbReadLine room file).2, c ∈ file := by
  induction file generalizing room with
  | nil => cases room <;> exact ⟨List.forall_mem_nil _, List.forall_mem_nil _⟩
  | cons c file ih =>
    cases room with
    | zero => exact ⟨List.forall_mem_nil _, fun _ member => member⟩
    | succ room =>
      unfold isIsbReadLine
      split
      case isTrue =>
        exact ⟨fun c member => .tail _ (ih.1 c member), fun c member => .tail _ (ih.2 c member)⟩
      split
      case isTrue => exact ⟨List.forall_mem_nil _, fun c member => .tail _ member⟩
      case isFalse =>
        refine ⟨fun c member => ?_, fun c member => .tail _ (ih.2 c member)⟩
        obtain rfl | later := List.mem_cons.mp member
        · exact .head _
        · exact .tail _ (ih.1 c later)

private theorem isbLines_mem (count : Nat) (file : List UInt8) :
    ∀ line ∈ isbLines count file, ∀ c ∈ line, c ∈ file := by
  induction count generalizing file with
  | zero => exact List.forall_mem_nil _
  | succ count ih =>
    intro line member
    unfold isbLines at member
    dsimp only at member
    split at member
    case isTrue => cases member
    case isFalse =>
      obtain rfl | later := List.mem_cons.mp member
      · exact isIsbReadLine_mem.1
      · exact fun c inside => isIsbReadLine_mem.2 c (ih _ line later c inside)

/-- What `verify_image` goes by after the upload of `lastByteFile`. -/
def lastByteImage : Image where
  appOffset := 65535
  verifySize := 1000
  currentPage := 0
  verifyCheckSum := hashed 5381 [0x41, 0x41]
  opened := false

/-- The device sends its only byte. -/
def lastByteInput : Input where
  answer := true
  bytes := [0x46, 0x46, 0x46, 0x46, 0x3D, 0x41, 0x41, 0x0D, 0x0A]
  callback := fun _ => true

private theorem lastByte_answers (n : Nat) :
    Answers lastByteImage (stored (uploaded (fun _ => true) 65535 lastByteFile))
      (Verify.after lastByteImage (fun _ => lastByteInput) n) lastByteInput := by
  have idle (n : Nat) : (Verify.after lastByteImage (fun _ => lastByteInput) (n + 4)).returned =
      some (.result .ok) := by
    induction n with
    | zero => decide +kernel
    | succ n ih =>
      rw [show n + 1 + 4 = n + 4 + 1 by omega, Verify.after_succ]
      unfold Verify.step
      rw [ih, if_pos Option.isSome_some]
      exact ih
  refine ⟨rfl, fun _ => rfl, fun ⟨running, selected, less⟩ => ?_⟩
  match n with
  | 0 => exact absurd selected (by decide +kernel)
  | 1 =>
    refine ⟨by decide +kernel, ?_⟩
    have cells : bytesBetween (stored (uploaded (fun _ => true) 65535 lastByteFile)) 65535 65536 =
        [0xAA] := by decide +kernel
    have line : AnswerLines 65535 [0xAA] lastByteInput.bytes :=
      @AnswerLines.line 65535 [0xAA] [] [] (List.cons_ne_nil _ _) .none
    rw [← cells] at line
    exact line
  | 2 => exact absurd less (by decide +kernel)
  | 3 => exact absurd selected (by decide +kernel)
  | n + 4 =>
    rw [idle] at running
    cases running

end InertialSense.Bootloader.Isb
