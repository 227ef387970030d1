import InertialSense.Comm.Checksum
import InertialSense.Foundation.Memory
import InertialSense.Foundation.Strtol

/-! ASCII sentences in `serialPort.c`: `serialPortWriteAscii` on a port that takes all bytes, and
`serialPortReadAscii` on a port that delivers some. -/

namespace InertialSense.SerialPort

open Foundation
open Comm (byteXor)

/-! ### Writing -/

/-- `serialPortWrite`: the bytes on the wire. -/
def serialPortWrite (buffer : Nat → UInt8) (writeCount : Int) : List UInt8 :=
  if writeCount < 1 then [] else window buffer 0 writeCount.toNat

/-- `%.2x` of a byte. -/
def hexText (checkSum : UInt8) : List UInt8 := (padded 2 16 checkSum.toNat).map Char.toUInt8

/-- The end of a sentence, as `snprintf` prints it. -/
def trailer (checkSum : UInt8) : List UInt8 := 0x2A :: hexText checkSum ++ [0x0D, 0x0A]

/-- `serialPortWriteAscii`, which returns how many bytes go on the wire. -/
def serialPortWriteAscii (buffer : Nat → UInt8) (bufferLength : Int) : List UInt8 :=
  if bufferLength < 2 then []
  else if buffer 0 = 0x24 then
    let bufferLength := bufferLength - 1
    serialPortWrite buffer bufferLength ++ trailer (byteXor (window buffer 1 bufferLength.toNat))
  else
    0x24 :: serialPortWrite buffer bufferLength ++ trailer (byteXor (window buffer 0 bufferLength.toNat))

/-! ### Reading -/

/-- The loop of `serialPortReadLineTimeout`. -/
structure LineReader where
  buffer : Nat → UInt8
  bufferIndex : Nat
  prevCR : Bool

/-- The loop on the bytes that the port delivers, one for each `serialPortReadCharTimeout`: the buffer and
what is returned. -/
def LineReader.run (bufferLength : Nat) : LineReader → List UInt8 → (Nat → UInt8) × Int
  | s, [] => (s.buffer, -1)
  | s, c :: rest =>
    if s.bufferIndex < bufferLength then
      let buffer := store s.buffer s.bufferIndex [c]
      let bufferIndex := s.bufferIndex + 1
      if c = 0x0A ∧ s.prevCR then (store buffer (bufferIndex - 2) [0], (bufferIndex - 2 : Nat))
      else LineReader.run bufferLength ⟨buffer, bufferIndex, c = 0x0D⟩ rest
    else (s.buffer, -1)

def serialPortReadLineTimeout (delivered : List UInt8) (buffer : Nat → UInt8) (bufferLength : Nat) :
    (Nat → UInt8) × Int :=
  if bufferLength < 8 then (buffer, 0) else LineReader.run bufferLength ⟨buffer, 0, false⟩ delivered

/-- What `serialPortReadAscii` returns, and leaves in `buffer` and `*asciiData`. -/
structure AsciiRead where
  count : Int
  buffer : Nat → UInt8
  asciiData : Option Nat

/-- The first `$` of the line, or its end. -/
def findDollar (buffer : Nat → UInt8) (count : Nat) : Nat :=
  ((List.range count).find? fun k => buffer k = 0x24).getD count

/-- `serialPortReadAsciiTimeout`. The line has a NUL at its end, so that `strtol` looks at two characters. -/
def serialPortReadAsciiTimeout (delivered : List UInt8) (buffer : Nat → UInt8) (bufferLength : Nat) : AsciiRead :=
  let (buffer, count) := serialPortReadLineTimeout delivered buffer bufferLength
  let ptr := findDollar buffer count.toNat
  if count - ptr > 7 then
    let star := count.toNat - 3
    let checksum := byteXor (window buffer (ptr + 1) (star - (ptr + 1)))
    let digits := (window buffer (star + 1) 2).takeWhile (· ≠ 0)
    if buffer star = 0x2A ∧ (strtol 16 (digits.map Char.ofUInt8)).1 = checksum.toNat then
      { count, buffer, asciiData := some ptr }
    else { count := -1, buffer, asciiData := some ptr }
  else { count := -1, buffer, asciiData := none }

/-! ### What is meant -/

/-- A body that a sentence can have. -/
structure Body where
  text : List UInt8
  long : 4 ≤ text.length
  plain : ∀ c ∈ text, c ≠ 0 ∧ c ≠ 0x0D ∧ c ≠ 0x0A

/-- How the body is passed: bare, or with a `$` before it. -/
inductive Form where
  | bare
  | dollar
deriving DecidableEq

def Form.passed : Form → Body → List UInt8
  | bare, body => body.text
  | dollar, body => 0x24 :: body.text

/-- What a call puts on the wire. -/
def wire (form : Form) (body : Body) : List UInt8 :=
  serialPortWriteAscii (fun k => (form.passed body).getD k 0) (form.passed body).length

/-- A body is read back, into any buffer that is large enough. -/
def ReadBack (form : Form) (body : Body) : Prop :=
  ∀ (buffer : Nat → UInt8) (bufferLength : Nat), body.text.length + 6 ≤ bufferLength →
    let read := serialPortReadAsciiTimeout (wire form body) buffer bufferLength
    read.count = body.text.length + 4 ∧ ∃ ptr high low, read.asciiData = some ptr ∧
      (hexValue high).isSome ∧ (hexValue low).isSome ∧
      window read.buffer ptr (body.text.length + 5) =
        0x24 :: body.text ++ [0x2A, high.toUInt8, low.toUInt8, 0]

/-! ### The two digits -/

private theorem hexText_all : ∀ value < 256,
    (padded 2 16 value).length = 2 ∧
      (padded 2 16 value).all (fun c => (hexValue c).isSome ∧ c.toUInt8 ∉ [0, 0x0D, 0x0A]) ∧
      (strtol 16 (((padded 2 16 value).map Char.toUInt8).map Char.ofUInt8)).1 = value := by
  decide +kernel

theorem hexText_digits (checkSum : UInt8) : ∃ high low, hexText checkSum = [high.toUInt8, low.toUInt8] ∧
    (hexValue high).isSome ∧ (hexValue low).isSome := by
  obtain ⟨two, all, -⟩ := hexText_all checkSum.toNat checkSum.toNat_lt
  obtain ⟨high, low, digits⟩ := List.length_eq_two.mp two
  have hex (c : Char) (member : c ∈ padded 2 16 checkSum.toNat) : (hexValue c).isSome :=
    (of_decide_eq_true (List.all_eq_true.mp all c member)).1
  refine ⟨high, low, ?_, hex high (by simp [digits]), hex low (by simp [digits])⟩
  unfold hexText
  rw [digits]
  rfl

theorem hexText_plain {checkSum c : UInt8} (member : c ∈ hexText checkSum) : c ≠ 0 ∧ c ≠ 0x0D ∧ c ≠ 0x0A := by
  obtain ⟨digit, inside, rfl⟩ := List.mem_map.mp member
  have all := (hexText_all checkSum.toNat checkSum.toNat_lt).2.1
  have plain := (of_decide_eq_true (List.all_eq_true.mp all digit inside)).2
  simp only [List.mem_cons, List.not_mem_nil, or_false, not_or] at plain
  exact plain

theorem strtol_hexText (checkSum : UInt8) : (strtol 16 ((hexText checkSum).map Char.ofUInt8)).1 = checkSum.toNat :=
  (hexText_all checkSum.toNat checkSum.toNat_lt).2.2

@[simp] theorem hexText_length (checkSum : UInt8) : (hexText checkSum).length = 2 := by
  obtain ⟨high, low, digits, -⟩ := hexText_digits checkSum
  rw [digits]
  rfl

/-! ### A line that is read -/

/-- Up to the end of the line everything is stored. -/
theorem run_line {bufferLength : Nat} {line : List UInt8} (plain : ∀ c ∈ line, c ≠ 0x0D ∧ c ≠ 0x0A)
    (s : LineReader) (fresh : s.prevCR = false) (room : s.bufferIndex + line.length + 2 ≤ bufferLength) :
    s.run bufferLength (line ++ [0x0D, 0x0A]) =
      (store (store s.buffer s.bufferIndex (line ++ [0x0D, 0x0A])) (s.bufferIndex + line.length) [0],
        ((s.bufferIndex + line.length : Nat) : Int)) := by
  induction line generalizing s with
  | nil =>
    rw [List.length_nil, Nat.add_zero] at room
    have first : s.bufferIndex < bufferLength := by omega
    have second : s.bufferIndex + 1 < bufferLength := by omega
    have both := store_append s.buffer s.bufferIndex [0x0D] [0x0A]
    show LineReader.run bufferLength s [0x0D, 0x0A] = _
    unfold LineReader.run
    rw [if_pos first, if_neg (by rw [fresh]; decide)]
    unfold LineReader.run
    dsimp only
    rw [if_pos second, if_pos (by decide)]
    exact Prod.ext (congrArg (store · s.bufferIndex [0]) both) rfl
  | cons c rest ih =>
    obtain ⟨here, later⟩ := List.forall_mem_cons.mp plain
    rw [List.length_cons] at room
    have inside : s.bufferIndex < bufferLength := by omega
    have next := ih later ⟨store s.buffer s.bufferIndex [c], s.bufferIndex + 1, decide (c = 0x0D)⟩
      (decide_eq_false here.1) (by dsimp only; omega)
    have joined := store_append s.buffer s.bufferIndex [c] (rest ++ [0x0D, 0x0A])
    rw [List.length_singleton] at joined
    rw [List.cons_append]
    unfold LineReader.run
    rw [if_pos inside, if_neg fun both => here.2 both.1, next]
    dsimp only
    rw [joined, List.length_cons, Nat.add_right_comm, Nat.add_assoc]
    rfl

theorem readLine_line {bufferLength : Nat} {line : List UInt8} (plain : ∀ c ∈ line, c ≠ 0x0D ∧ c ≠ 0x0A)
    (room : line.length + 2 ≤ bufferLength) (large : 8 ≤ bufferLength) (buffer : Nat → UInt8) :
    ∃ buffer', serialPortReadLineTimeout (line ++ [0x0D, 0x0A]) buffer bufferLength =
        (buffer', (line.length : Int)) ∧ window buffer' 0 (line.length + 1) = line ++ [0] := by
  have lines := run_line plain ⟨buffer, 0, false⟩ rfl (show 0 + line.length + 2 ≤ bufferLength by omega)
  dsimp only at lines
  rw [Nat.zero_add] at lines
  refine ⟨_, (if_neg (by omega)).trans lines, ?_⟩
  have before := store_append buffer 0 line [0x0D, 0x0A]
  rw [window_succ, Nat.zero_add]
  congr 1
  · rw [window_store_disjoint _ (by omega), ← before, window_store_disjoint _ (by omega), window_store]
  · have ending := @store_inside _ (store buffer 0 (line ++ [0x0D, 0x0A])) line.length 0 [0] (by decide)
    exact congrArg List.singleton ending

/-! ### A sentence that is read -/

theorem window_part {mem : Nat → UInt8} {count place length : Nat} {bytes : List UInt8}
    (whole : window mem 0 count = bytes) (inside : place + length ≤ count) :
    window mem place length = (bytes.drop place).take length := by
  have rest : place ≤ count := by omega
  rw [← whole, drop_window mem rest, take_window _ (by omega), Nat.zero_add]

theorem findDollar_first {buffer : Nat → UInt8} {count : Nat} (first : buffer 0 = 0x24) (positive : 0 < count) :
    findDollar buffer count = 0 := by
  unfold findDollar
  have found : (List.range count).find? (fun k => buffer k = 0x24) = some 0 :=
    List.find?_range_eq_some.mpr ⟨decide_eq_true first, List.mem_range.mpr positive, nofun⟩
  rw [found, Option.getD_some]

section Sentences

variable {content : List UInt8} {checkSum : UInt8} {bufferLength : Nat}

/-- A sentence is accepted if it is long enough and its checksum is right, and is in the buffer in any
case. -/
theorem read_sentence (plain : ∀ c ∈ content, c ≠ 0 ∧ c ≠ 0x0D ∧ c ≠ 0x0A)
    (room : content.length + 6 ≤ bufferLength) (large : 8 ≤ bufferLength) (buffer : Nat → UInt8) :
    let read := serialPortReadAsciiTimeout (0x24 :: content ++ trailer checkSum) buffer bufferLength
    read.count = (if 4 ≤ content.length ∧ byteXor content = checkSum then (content.length : Int) + 4 else -1) ∧
      (4 ≤ content.length → read.asciiData = some 0) ∧
      window read.buffer 0 (content.length + 5) = 0x24 :: content ++ 0x2A :: hexText checkSum ++ [0] := by
  have length : (0x24 :: content ++ 0x2A :: hexText checkSum).length = content.length + 4 := by
    simp
  have ends : ∀ c ∈ 0x24 :: content ++ 0x2A :: hexText checkSum, c ≠ 0x0D ∧ c ≠ 0x0A := by
    intro c member
    obtain inner | digits := List.mem_append.mp member
    · obtain rfl | inner := List.mem_cons.mp inner
      · decide
      · exact (plain c inner).2
    · obtain rfl | digits := List.mem_cons.mp digits
      · decide
      · exact (hexText_plain digits).2
  obtain ⟨buffer', line, whole⟩ := readLine_line ends (by omega) large buffer
  rw [length] at line whole
  have first : buffer' 0 = 0x24 := by
    have cell := window_part whole (show 0 + 1 ≤ content.length + 4 + 1 by omega)
    exact (List.cons.inj cell).1
  have body : window buffer' 1 content.length = content := by
    rw [window_part whole (by omega)]
    simp
  have star : buffer' (content.length + 1) = 0x2A := by
    have cell := window_part whole (show content.length + 1 + 1 ≤ content.length + 4 + 1 by omega)
    simpa [window] using cell
  have digits : window buffer' (content.length + 2) 2 = hexText checkSum := by
    rw [window_part whole (by omega)]
    simp
  have number : (hexText checkSum).takeWhile (· ≠ 0) = hexText checkSum :=
    List.takeWhile_eq_self_iff.mpr fun c member => decide_eq_true (hexText_plain member).1
  have sentence : 0x24 :: content ++ trailer checkSum =
      0x24 :: content ++ 0x2A :: hexText checkSum ++ [0x0D, 0x0A] := by
    simp [trailer]
  rw [sentence]
  unfold serialPortReadAsciiTimeout
  rw [line]
  dsimp only
  rw [Int.toNat_natCast, findDollar_first first (by omega)]
  by_cases long : 4 ≤ content.length
  · have behind : content.length + 4 - 3 = content.length + 1 := by omega
    have count : content.length + 1 - (0 + 1) = content.length := by omega
    rw [if_pos (by omega), behind, count, Nat.zero_add, body, digits, number, strtol_hexText]
    by_cases right : byteXor content = checkSum
    · rw [if_pos ⟨star, by rw [right]⟩, if_pos ⟨long, right⟩]
      exact ⟨rfl, fun _ => rfl, whole⟩
    · have wrong : ¬((checkSum.toNat : Int) = (byteXor content).toNat) :=
        fun same => right (UInt8.toNat_inj.mp (Int.natCast_inj.mp same).symm)
      rw [if_neg fun both => wrong both.2, if_neg fun both => right both.2]
      exact ⟨rfl, fun _ => rfl, whole⟩
  · rw [if_neg (by omega), if_neg fun both => long both.1]
    exact ⟨rfl, fun enough => absurd enough long, whole⟩

end Sentences

/-! ### The two forms -/

theorem byteXor_concat (content : List UInt8) (last : UInt8) :
    byteXor (content ++ [last]) = byteXor content ^^^ last := List.foldl_concat ..

/-- The checksum without the last byte is another one. -/
theorem byteXor_dropLast {text : List UInt8} (some : text ≠ []) (plain : ∀ c ∈ text, c ≠ 0) :
    byteXor text.dropLast ≠ byteXor text := by
  intro same
  have whole := byteXor_concat text.dropLast (text.getLast some)
  rw [List.dropLast_append_getLast some, ← same] at whole
  have zero : text.getLast some = 0 := by
    have cancelled := congrArg (byteXor text.dropLast ^^^ ·) whole
    simpa [← UInt8.xor_assoc] using cancelled.symm
  exact plain _ (List.getLast_mem some) zero

theorem window_passed (text : List UInt8) (count : Nat) (short : count ≤ text.length) :
    window (fun k => text.getD k 0) 0 count = text.take count := by
  rw [window_getD text 0 (by omega), List.drop_zero]

/-- Without a `$` in front all of the text is written. -/
theorem write_plain {text : List UInt8} (long : 2 ≤ text.length) (plain : text.getD 0 0 ≠ 0x24) :
    serialPortWriteAscii (fun k => text.getD k 0) text.length = 0x24 :: text ++ trailer (byteXor text) := by
  unfold serialPortWriteAscii serialPortWrite
  rw [if_neg (by omega), if_neg plain, if_neg (by omega), Int.toNat_natCast,
    window_passed text _ (Nat.le_refl _), List.take_length]

/-- With a `$` in front the last byte is left out. -/
theorem write_dollar {text : List UInt8} (some : text ≠ []) :
    serialPortWriteAscii (fun k => (0x24 :: text).getD k 0) (0x24 :: text).length =
      0x24 :: text.dropLast ++ trailer (byteXor text) := by
  have positive := List.length_pos_of_ne_nil some
  have length : (((0x24 :: text).length : Nat) : Int) - 1 = (text.length : Nat) := by
    rw [List.length_cons]
    omega
  have summed : window (fun k => (0x24 :: text).getD k 0) 1 text.length = text := by
    rw [window_getD _ 0 (by rw [List.length_cons]; omega), List.drop_succ_cons, List.drop_zero, List.take_length]
  have written : (0x24 :: text).take text.length = 0x24 :: text.dropLast := by
    obtain ⟨rest, count⟩ := Nat.exists_eq_succ_of_ne_zero (Nat.ne_of_gt positive)
    rw [List.dropLast_eq_take, count]
    rfl
  unfold serialPortWriteAscii serialPortWrite
  have starts : (fun k => (0x24 :: text).getD k 0) 0 = 0x24 := rfl
  rw [if_neg (by rw [List.length_cons]; omega), if_pos starts]
  dsimp only
  rw [length, if_neg (by omega), Int.toNat_natCast, summed, window_passed _ _ (by simp), written]

variable {form : Form} {body : Body}

theorem Body.nonempty (body : Body) : body.text ≠ [] :=
  List.ne_nil_of_length_pos (Nat.lt_of_lt_of_le (by decide) body.long)

/-- What lacks its last byte is refused. -/
theorem not_readBack {text : List UInt8} (part : ∀ c ∈ text, c ∈ body.text) (few : text.length ≤ body.text.length)
    (some : text ≠ []) (written : wire form body = 0x24 :: text.dropLast ++ trailer (byteXor text)) :
    ¬ReadBack form body := by
  intro back
  have plain : ∀ c ∈ text.dropLast, c ≠ 0 ∧ c ≠ 0x0D ∧ c ≠ 0x0A :=
    fun c member => body.plain c (part c (List.dropLast_subset text member))
  have long := body.long
  have shorter := text.length_dropLast
  have refused := (@read_sentence _ (byteXor text) (body.text.length + 6) plain (by omega) (by omega)
    fun _ => 0).1
  have count := (back (fun _ => 0) _ (Nat.le_refl _)).1
  have wrong := byteXor_dropLast some fun c member => (body.plain c (part c member)).1
  rw [written, refused, if_neg fun both => wrong both.2] at count
  omega

theorem readBack_plain (plain : body.text.getD 0 0 ≠ 0x24) : ReadBack .bare body := by
  intro buffer bufferLength room
  have long := body.long
  have two : 2 ≤ body.text.length := by omega
  have written : wire .bare body = 0x24 :: body.text ++ trailer (byteXor body.text) := write_plain two plain
  obtain ⟨count, data, inside⟩ := @read_sentence _ (byteXor body.text) _ body.plain room (by omega) buffer
  obtain ⟨high, low, digits, first, second⟩ := hexText_digits (byteXor body.text)
  dsimp only
  rw [written]
  refine ⟨count.trans (if_pos ⟨long, rfl⟩), 0, high, low, data long, first, second, ?_⟩
  rw [inside, digits]
  simp

/-- A body is read back if and only if it is passed bare and does not begin with a `$`, and the two forms
never put the same bytes on the wire. -/
theorem readBack_iff (body : Body) :
    (∀ form, ReadBack form body ↔ form = .bare ∧ body.text.getD 0 0 ≠ 0x24) ∧
      wire .bare body ≠ wire .dollar body := by
  have some := body.nonempty
  have withDollar : wire .dollar body = 0x24 :: body.text.dropLast ++ trailer (byteXor body.text) :=
    write_dollar some
  have refused : ¬ReadBack .dollar body := not_readBack (fun _ member => member) (Nat.le_refl _) some withDollar
  have long := body.long
  have two : 2 ≤ body.text.length := by omega
  by_cases dollar : body.text.getD 0 0 = 0x24
  case neg =>
    have bare : wire .bare body = 0x24 :: body.text ++ trailer (byteXor body.text) := write_plain two dollar
    refine ⟨fun form => ?_, fun same => ?_⟩
    · cases form with
      | bare => exact iff_of_true (readBack_plain dollar) ⟨rfl, dollar⟩
      | dollar => exact iff_of_false refused nofun
    · have lengths := congrArg List.length (bare.symm.trans (same.trans withDollar))
      simp at lengths
      omega
  case pos =>
    obtain ⟨first, rest, split⟩ := List.exists_cons_of_ne_nil some
    obtain rfl : first = 0x24 := by rwa [split] at dollar
    have count := congrArg List.length split
    rw [List.length_cons] at count
    have more : rest ≠ [] := List.ne_nil_of_length_pos (by omega)
    have bare : wire .bare body = 0x24 :: rest.dropLast ++ trailer (byteXor rest) := by
      unfold wire Form.passed
      dsimp only
      rw [split]
      exact write_dollar more
    have refused' : ¬ReadBack .bare body :=
      not_readBack (fun c member => split ▸ List.mem_cons_of_mem _ member) (by omega) more bare
    refine ⟨fun form => ?_, fun same => ?_⟩
    · cases form with
      | bare => exact iff_of_false refused' fun plain => plain.2 dollar
      | dollar => exact iff_of_false refused nofun
    · have lengths := congrArg List.length (bare.symm.trans (same.trans withDollar))
      simp [trailer] at lengths
      omega

/-- The body `INFO`. -/
def infoBody : Body := ⟨[0x49, 0x4E, 0x46, 0x4F], by decide, by simp⟩

/-- With a `$` in front its last byte is not sent. -/
theorem dollar_info_refused : ¬ReadBack .dollar infoBody := by
  intro back
  exact absurd (back (fun _ => 0) 10 (by decide)).1 (by decide +kernel)

end InertialSense.SerialPort
