import InertialSense.Utilities.Base64

/-! The decoder undoes the encoder as long as the size of the text fits an `int`. -/

namespace InertialSense.Utilities

private theorem fields (x : UInt8) :
    ((x &&& 0xfc) >>> 2).toNat = x.toNat / 4 ∧ ((x &&& 0x03) <<< 4).toNat = x.toNat % 4 * 16 ∧
      ((x &&& 0xf0) >>> 4).toNat = x.toNat / 16 ∧ ((x &&& 0x0f) <<< 2).toNat = x.toNat % 16 * 4 ∧
      ((x &&& 0xc0) >>> 6).toNat = x.toNat / 64 ∧ (x &&& 0x3f).toNat = x.toNat % 64 ∧
      (x <<< 2).toNat = x.toNat % 64 * 4 ∧ ((x &&& 0x30) >>> 4).toNat = x.toNat / 16 % 4 ∧
      ((x &&& 0xf) <<< 4).toNat = x.toNat % 16 * 16 ∧
      ((x &&& 0x3c) >>> 2).toNat = x.toNat / 4 % 16 ∧ ((x &&& 0x3) <<< 6).toNat = x.toNat % 4 * 64 := by
  have all : (List.range 256).all fun value =>
      let x := UInt8.ofNat value
      ((x &&& 0xfc) >>> 2).toNat = value / 4 ∧ ((x &&& 0x03) <<< 4).toNat = value % 4 * 16 ∧
        ((x &&& 0xf0) >>> 4).toNat = value / 16 ∧ ((x &&& 0x0f) <<< 2).toNat = value % 16 * 4 ∧
        ((x &&& 0xc0) >>> 6).toNat = value / 64 ∧ (x &&& 0x3f).toNat = value % 64 ∧
        (x <<< 2).toNat = value % 64 * 4 ∧ ((x &&& 0x30) >>> 4).toNat = value / 16 % 4 ∧
        ((x &&& 0xf) <<< 4).toNat = value % 16 * 16 ∧
        ((x &&& 0x3c) >>> 2).toNat = value / 4 % 16 ∧ ((x &&& 0x3) <<< 6).toNat = value % 4 * 64 := by
    decide +kernel
  have one := List.all_eq_true.mp all x.toNat (List.mem_range.mpr x.toNat_lt)
  simpa using one

/-- The table and its search are inverse on the 64 groups, whose characters the decoder
takes. -/
private theorem group_char {group : Nat} (small : group < 64) :
    sBase64Chars.getD group 0 ≠ 0x3D ∧ isBase64 (sBase64Chars.getD group 0) ∧
      (findChar (sBase64Chars.getD group 0)).toNat = group := by
  have all : (List.range 64).all fun group =>
      sBase64Chars.getD group 0 ≠ 0x3D ∧ isBase64 (sBase64Chars.getD group 0) ∧
        (findChar (sBase64Chars.getD group 0)).toNat = group := by
    decide +kernel
  have one := List.all_eq_true.mp all group (List.mem_range.mpr small)
  exact of_decide_eq_true one

private def groupChar (group : Nat) : UInt8 := sBase64Chars.getD group 0

private theorem findChar_groupChar {group : Nat} (small : group < 64) :
    (findChar (groupChar group)).toNat = group := (group_char small).2.2

private theorem quad_eq (window : List UInt8) :
    let c0 := (window.getD 0 0).toNat
    let c1 := (window.getD 1 0).toNat
    let c2 := (window.getD 2 0).toNat
    quad window =
      [
        groupChar (c0 / 4), groupChar (c0 % 4 * 16 + c1 / 16), groupChar (c1 % 16 * 4 + c2 / 64),
        groupChar (c2 % 64)] := by
  unfold quad
  generalize window.getD 0 0 = b0
  generalize window.getD 1 0 = b1
  generalize window.getD 2 0 = b2
  obtain ⟨first, low, -⟩ := fields b0
  obtain ⟨-, -, high, low', -⟩ := fields b1
  obtain ⟨-, -, -, -, high', last, -⟩ := fields b2
  have bound := b1.toNat_lt
  have bound' := b2.toNat_lt
  have second : ((b0 &&& 0x03) <<< 4 + (b1 &&& 0xf0) >>> 4).toNat =
      b0.toNat % 4 * 16 + b1.toNat / 16 := by
    rw [UInt8.toNat_add, low, high]
    omega
  have third : ((b1 &&& 0x0f) <<< 2 + (b2 &&& 0xc0) >>> 6).toNat =
      b1.toNat % 16 * 4 + b2.toNat / 64 := by
    rw [UInt8.toNat_add, low', high']
    omega
  simp only [List.map_cons, List.map_nil, first, second, third, last]
  rfl

private theorem triple_eq (c0 c1 c2 c3 : UInt8) :
    let g0 := (findChar c0).toNat
    let g1 := (findChar c1).toNat
    let g2 := (findChar c2).toNat
    triple [c0, c1, c2, c3] =
      [
        UInt8.ofNat (g0 % 64 * 4 + g1 / 16 % 4), UInt8.ofNat (g1 % 16 * 16 + g2 / 4 % 16),
        UInt8.ofNat (g2 % 4 * 64 + (findChar c3).toNat)] := by
  simp only [triple, List.getD_cons_zero, List.getD_cons_succ]
  obtain ⟨-, -, -, -, -, -, low0, -⟩ := fields (findChar c0)
  obtain ⟨-, -, -, -, -, -, -, high1, low1, -⟩ := fields (findChar c1)
  obtain ⟨-, -, -, -, -, -, -, -, -, high2, low2⟩ := fields (findChar c2)
  have sum {left right : UInt8} {m n : Nat} (l : left.toNat = m) (r : right.toNat = n) :
      left + right = UInt8.ofNat (m + n) := by
    apply UInt8.toNat_inj.mp
    rw [UInt8.toNat_add, l, r, UInt8.toNat_ofNat']
  rw [sum low0 high1, sum low1 high2, sum low2 rfl]

private theorem ofNat_eq (byte : UInt8) {value : Nat} (same : value = byte.toNat) :
    UInt8.ofNat value = byte := by
  rw [same, UInt8.ofNat_toNat]

private theorem triple_quad (b0 b1 b2 : UInt8) : triple (quad [b0, b1, b2]) = [b0, b1, b2] := by
  have bound0 := b0.toNat_lt
  have bound1 := b1.toNat_lt
  have bound2 := b2.toNat_lt
  rw [quad_eq, triple_eq]
  simp only [List.getD_cons_zero, List.getD_cons_succ]
  rw [findChar_groupChar (by omega), findChar_groupChar (by omega), findChar_groupChar (by omega),
    findChar_groupChar (by omega), ofNat_eq b0 (by omega), ofNat_eq b1 (by omega), ofNat_eq b2 (by omega)]

private theorem triple_quad_two (b0 b1 : UInt8) :
    (triple ((quad [b0, b1]).take 3)).take 2 = [b0, b1] := by
  have bound0 := b0.toNat_lt
  have bound1 := b1.toNat_lt
  have filled (c0 c1 c2 : UInt8) : triple [c0, c1, c2] = triple [c0, c1, c2, 0] := rfl
  have zero : (0 : UInt8).toNat = 0 := rfl
  rw [quad_eq]
  simp only [List.getD_cons_zero, List.getD_cons_succ, List.getD_nil, List.take_succ_cons,
    List.take_zero, zero]
  rw [filled, triple_eq]
  simp only [List.take_succ_cons, List.take_zero]
  rw [findChar_groupChar (by omega), findChar_groupChar (by omega), findChar_groupChar (by omega),
    ofNat_eq b0 (by omega), ofNat_eq b1 (by omega)]

private theorem triple_quad_one (b0 : UInt8) : (triple ((quad [b0]).take 2)).take 1 = [b0] := by
  have bound0 := b0.toNat_lt
  have filled (c0 c1 : UInt8) : triple [c0, c1] = triple [c0, c1, 0, 0] := rfl
  have zero : (0 : UInt8).toNat = 0 := rfl
  rw [quad_eq]
  simp only [List.getD_cons_zero, List.getD_cons_succ, List.getD_nil, List.take_succ_cons,
    List.take_zero, zero]
  rw [filled, triple_eq]
  simp only [List.take_succ_cons, List.take_zero]
  rw [findChar_groupChar (by omega), findChar_groupChar (by omega), ofNat_eq b0 (by omega)]

/-- The characters of a byte string, without the padding behind them. -/
def letters : List UInt8 → List UInt8
  | b0 :: b1 :: b2 :: rest => quad [b0, b1, b2] ++ letters rest
  | [b0, b1] => (quad [b0, b1]).take 3
  | [b0] => (quad [b0]).take 2
  | [] => []

/-- The number of padding characters. -/
def pads (data : List UInt8) : Nat := (3 - data.length % 3) % 3

private theorem encodeTail_foldl (data ret : List UInt8) :
    encodeTail (data.foldl encodeStep { window := [], ret }) =
      ret ++ letters data ++ List.replicate (pads data) 0x3D := by
  induction data using letters.induct generalizing ret with
  | case1 b0 b1 b2 rest ih =>
    have same : pads (b0 :: b1 :: b2 :: rest) = pads rest := by
      simp only [pads, List.length_cons]
      omega
    have window : (b0 :: b1 :: b2 :: rest).foldl encodeStep { window := [], ret } =
        rest.foldl encodeStep { window := [], ret := ret ++ quad [b0, b1, b2] } := rfl
    rw [window, ih, letters, same, List.append_assoc ret]
  | case2 b0 b1 => rfl
  | case3 b0 => rfl
  | case4 => simp [encodeTail, letters, pads]

theorem base64Encode_eq (bytesToEncode : List UInt8) (inLen : UInt32) :
    base64Encode bytesToEncode inLen =
      letters (bytesToEncode.take inLen.toNat) ++
        List.replicate (pads (bytesToEncode.take inLen.toNat)) 0x3D :=
  encodeTail_foldl _ []

private theorem quad_length (window : List UInt8) : (quad window).length = 4 := rfl

theorem text_length (data : List UInt8) :
    (letters data ++ List.replicate (pads data) 0x3D).length = 4 * ((data.length + 2) / 3) := by
  have total : (letters data).length + pads data = 4 * ((data.length + 2) / 3) := by
    induction data using letters.induct with
    | case1 b0 b1 b2 rest ih =>
      have same : pads (b0 :: b1 :: b2 :: rest) = pads rest := by
        simp only [pads, List.length_cons]
        omega
      rw [letters, same, List.length_append, quad_length]
      simp only [List.length_cons]
      omega
    | case2 b0 b1 => simp [letters, pads, quad_length]
    | case3 b0 => simp [letters, pads, quad_length]
    | case4 => simp [letters, pads]
  rw [List.length_append, List.length_replicate, total]

/-- The characters that the decoder takes. -/
def Taken (c : UInt8) : Prop := c ≠ 0x3D ∧ isBase64 c

private theorem taken_quad (window : List UInt8) : ∀ c ∈ quad window, Taken c := by
  have bound0 := (window.getD 0 0).toNat_lt
  have bound1 := (window.getD 1 0).toNat_lt
  have bound2 := (window.getD 2 0).toNat_lt
  have each {group : Nat} (small : group < 64) : Taken (groupChar group) :=
    ⟨(group_char small).1, (group_char small).2.1⟩
  rw [quad_eq]
  simp only [List.forall_mem_cons]
  exact ⟨each (by omega), each (by omega), each (by omega), each (by omega), List.forall_mem_nil _⟩

private theorem taken_letters (data : List UInt8) : ∀ c ∈ letters data, Taken c := by
  induction data using letters.induct with
  | case1 b0 b1 b2 rest ih =>
    intro c member
    rcases List.mem_append.mp member with inside | later
    · exact taken_quad _ c inside
    · exact ih c later
  | case2 b0 b1 => exact fun c member => taken_quad _ c (List.mem_of_mem_take member)
  | case3 b0 => exact fun c member => taken_quad _ c (List.mem_of_mem_take member)
  | case4 => exact List.forall_mem_nil _

private theorem foldl_full {text : List UInt8} (full : text.length = 4) (ret : List UInt8) :
    text.foldl decodeStep { window := [], ret } = { window := [], ret := ret ++ triple text } := by
  match text, full with
  | [_, _, _, _], _ => rfl

private theorem foldl_short {text : List UInt8} (short : text.length < 4) (ret : List UInt8) :
    text.foldl decodeStep { window := [], ret } = { window := text, ret } := by
  match text, short with
  | [], _ | [_], _ | [_, _], _ | [_, _, _], _ => rfl

private theorem decodeTail_foldl (data ret : List UInt8) :
    decodeTail ((letters data).foldl decodeStep { window := [], ret }) = ret ++ data := by
  induction data using letters.induct generalizing ret with
  | case1 b0 b1 b2 rest ih =>
    rw [letters, List.foldl_append, foldl_full (quad_length _), triple_quad, ih]
    simp
  | case2 b0 b1 =>
    have length : ((quad [b0, b1]).take 3).length = 3 := by simp [quad_length]
    rw [letters, foldl_short (by omega), decodeTail, length, if_neg (by decide), triple_quad_two]
  | case3 b0 =>
    have length : ((quad [b0]).take 2).length = 2 := by simp [quad_length]
    rw [letters, foldl_short (by omega), decodeTail, length, if_neg (by decide), triple_quad_one]
  | case4 => simp [letters, decodeTail]

private theorem decodeLoop_letters {text rest : List UInt8} (taken : ∀ c ∈ text, Taken c) (s : Coding)
    {inLen : Int} (enough : text.length ≤ inLen) :
    decodeLoop s inLen (text ++ rest) =
      decodeLoop (text.foldl decodeStep s) (inLen - text.length) rest := by
  induction text generalizing s inLen with
  | nil => simp
  | cons c text ih =>
    have here : c ≠ 0x3D ∧ isBase64 c := taken c (by simp)
    have later : ∀ c ∈ text, Taken c := fun c member => taken c (by simp [member])
    rw [List.length_cons] at enough
    have positive : inLen ≠ 0 := by omega
    have inside : inLen ≠ -2 ^ 31 := by omega
    have left : inLen - ((c :: text).length : Nat) = inLen - 1 - text.length := by
      rw [List.length_cons]
      omega
    rw [List.cons_append, decodeLoop, if_neg positive, if_neg inside, if_pos here, List.foldl_cons,
      left]
    exact ih later _ (by omega)

private theorem decodeLoop_pads (s : Coding) (count : Nat) :
    decodeLoop s count (List.replicate count 0x3D) = some s := by
  cases count with
  | zero => rfl
  | succ count =>
    have positive : ((count + 1 : Nat) : Int) ≠ 0 := by omega
    have inside : ((count + 1 : Nat) : Int) ≠ -2 ^ 31 := by omega
    rw [List.replicate_succ, decodeLoop, if_neg positive, if_neg inside, if_neg (by simp)]

private theorem decodeLoop_negative {text : List UInt8} (taken : ∀ c ∈ text, Taken c)
    (s : Coding) (rest : List UInt8) {count : Nat} (below : count < 2 ^ 31)
    (enough : count ≤ text.length) :
    decodeLoop s (-2 ^ 31 + count) (text ++ rest) = none := by
  induction count generalizing s text with
  | zero =>
    have lowest : -2 ^ 31 + ((0 : Nat) : Int) = -2 ^ 31 := by omega
    have negative : ¬(-2 ^ 31 : Int) = 0 := by omega
    rw [lowest]
    cases text ++ rest with
    | nil => rw [decodeLoop, if_pos rfl]
    | cons c more => rw [decodeLoop, if_neg negative, if_pos rfl]
  | succ count ih =>
    cases text with
    | nil => simp at enough
    | cons c text =>
      have here : c ≠ 0x3D ∧ isBase64 c := taken c (by simp)
      have later : ∀ c ∈ text, Taken c := fun c member => taken c (by simp [member])
      have negative : ¬-2 ^ 31 + ((count + 1 : Nat) : Int) = 0 := by omega
      have inside : ¬-2 ^ 31 + ((count + 1 : Nat) : Int) = -2 ^ 31 := by omega
      have left : -2 ^ 31 + ((count + 1 : Nat) : Int) - 1 = -2 ^ 31 + (count : Int) := by omega
      rw [List.cons_append, decodeLoop, if_neg negative, if_neg inside, if_pos here, left]
      exact ih later _ (by omega) (by simpa using enough)

private theorem decodeStep_length (s : Coding) (c : UInt8) :
    (decodeStep s c).window.length + (decodeStep s c).ret.length ≤
      s.window.length + s.ret.length + 1 := by
  have three (window : List UInt8) : (triple window).length = 3 := rfl
  simp only [decodeStep]
  split
  case isTrue full =>
    simp only [List.length_append, List.length_singleton] at full
    simp only [List.length_nil, List.length_append, three]
    omega
  case isFalse =>
    simp only [List.length_append, List.length_singleton]
    omega

/-- No more bytes come out than characters are taken. -/
private theorem decodeLoop_length {s final : Coding} {inLen : Nat} {text : List UInt8}
    (ends : decodeLoop s inLen text = some final) :
    final.window.length + final.ret.length ≤ s.window.length + s.ret.length + inLen := by
  induction text generalizing s inLen with
  | nil =>
    rw [decodeLoop] at ends
    split at ends
    · cases ends
    · cases ends
      omega
  | cons c rest ih =>
    rw [decodeLoop] at ends
    split at ends
    · cases ends
      omega
    split at ends
    · cases ends
    split at ends
    · rename_i nonzero _ _
      obtain ⟨fewer, rfl⟩ := Nat.exists_eq_succ_of_ne_zero (show inLen ≠ 0 by omega)
      have left : ((fewer + 1 : Nat) : Int) - 1 = (fewer : Int) := by omega
      rw [Nat.succ_eq_add_one, left] at ends
      have bound := ih ends
      have step := decodeStep_length s c
      omega
    · cases ends
      omega

private theorem decodeTail_length (s : Coding) :
    (decodeTail s).length ≤ s.window.length + s.ret.length := by
  unfold decodeTail
  split
  · omega
  · simp only [List.length_append, List.length_take]
    omega

/-- The text of a byte string that fits the encoder's count: decoded while its size fits an
`int`, else without a result or cut short. -/
private theorem base64Decode_text (data : List UInt8) (fits : data.length < 2 ^ 32) :
    let text := letters data ++ List.replicate (pads data) 0x3D
    (text.length < 2 ^ 31 → base64Decode text = some data) ∧
      (2 ^ 31 ≤ text.length → ∀ ret, base64Decode text = some ret → ret.length < data.length) := by
  intro text
  have size : text.length = 4 * ((data.length + 2) / 3) := text_length data
  have parts : text.length = (letters data).length + pads data := by simp [text]
  have few : pads data ≤ 2 := by
    unfold pads
    omega
  constructor
  · intro small
    have same : Int.bmod text.length (2 ^ 32) = text.length :=
      Int.bmod_eq_of_le (by omega) (by omega)
    have left : (text.length : Int) - (letters data).length = pads data := by omega
    have ends := decodeTail_foldl data []
    rw [base64Decode, same, decodeLoop_letters (taken_letters data) _ (by omega), left,
      decodeLoop_pads, Option.map_some, ends, List.nil_append]
  · intro large ret decoded
    by_cases wide : text.length < 2 ^ 32
    · obtain ⟨count, counted⟩ := Nat.exists_eq_add_of_le large
      have negative : Int.bmod text.length (2 ^ 32) = -2 ^ 31 + count := by
        rw [Int.bmod_def]
        split <;> omega
      rw [base64Decode, negative, decodeLoop_negative (taken_letters data) _ _ (by omega) (by omega)]
        at decoded
      cases decoded
    · obtain ⟨count, counted⟩ := Nat.exists_eq_add_of_le (Nat.le_of_not_lt wide)
      have rest : Int.bmod text.length (2 ^ 32) = count := by
        rw [Int.bmod_def]
        split <;> omega
      rw [base64Decode, rest] at decoded
      obtain ⟨final, ends, rfl⟩ := Option.map_eq_some_iff.mp decoded
      have bound := decodeLoop_length ends
      have tail := decodeTail_length final
      simp only [List.length_nil] at bound
      omega

/-- The round trip holds for byte strings whose text has a size in the range of `int`. -/
theorem base64Decode_base64Encode_iff (bytes : List UInt8) :
    base64Decode (base64Encode bytes (UInt32.ofNat bytes.length)) = some bytes ↔
      bytes.length ≤ 3 * (2 ^ 29 - 1) := by
  have fits : (bytes.take (UInt32.ofNat bytes.length).toNat).length < 2 ^ 32 := by
    have bound := (UInt32.ofNat bytes.length).toNat_lt
    rw [List.length_take]
    omega
  have whole (small : bytes.length < 2 ^ 32) : bytes.take (UInt32.ofNat bytes.length).toNat = bytes := by
    rw [UInt32.toNat_ofNat_of_lt' small, List.take_length]
  have size := text_length (bytes.take (UInt32.ofNat bytes.length).toNat)
  obtain ⟨small, large⟩ := base64Decode_text _ fits
  rw [base64Encode_eq]
  constructor
  · intro back
    by_contra beyond
    by_cases narrow : (letters (bytes.take (UInt32.ofNat bytes.length).toNat) ++
        List.replicate (pads (bytes.take (UInt32.ofNat bytes.length).toNat)) 0x3D).length < 2 ^ 31
    · have same := Option.some.inj ((small narrow).symm.trans back)
      rw [same] at size narrow
      omega
    · have shorter := large (Nat.le_of_not_lt narrow) bytes back
      rw [List.length_take] at shorter
      omega
  · intro short
    have same := whole (by omega)
    rw [same] at small size ⊢
    exact small (by omega)

private theorem decode_gibibytes {bytes : List UInt8} (size : bytes.length = 3 * 2 ^ 30) :
    base64Decode (base64Encode bytes (UInt32.ofNat bytes.length)) = some [] := by
  have whole : bytes.take (UInt32.ofNat bytes.length).toNat = bytes := by
    rw [UInt32.toNat_ofNat_of_lt' (by rw [size]; decide), List.take_length]
  have length := text_length bytes
  have none : Int.bmod ((4 * ((3 * 2 ^ 30 + 2) / 3) : Nat) : Int) (2 ^ 32) = 0 := by decide
  have stopped (s : Coding) (text : List UInt8) : decodeLoop s 0 text = some s := by
    cases text <;> rfl
  rw [base64Encode_eq, whole, base64Decode, length, size, none, stopped]
  rfl

/-- The text of three gibibytes has a size that is narrowed to zero: nothing is decoded. -/
theorem base64Decode_base64Encode_gibibytes :
    base64Decode (base64Encode (List.replicate (3 * 2 ^ 30) 0)
      (UInt32.ofNat (List.replicate (3 * 2 ^ 30) (0 : UInt8)).length)) = some [] ∧
      some [] ≠ some (List.replicate (3 * 2 ^ 30) (0 : UInt8)) := by
  refine ⟨decode_gibibytes List.length_replicate, ?_⟩
  intro same
  have size := congrArg List.length (Option.some.inj same)
  rw [List.length_replicate] at size
  exact absurd size (by decide)

end InertialSense.Utilities
