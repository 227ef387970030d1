import InertialSense.Comm.Sentences
import InertialSense.Nmea.Printing

/-! Sentences that `nmea_sprint_footer` completes are accepted by the parser, one after another. -/

namespace InertialSense.Nmea

open Foundation Comm

private theorem digit_upper {digit : Nat} (small : digit < 16) :
    hexDigit? (Char.toUInt8 (Char.toUpper digit.digitChar)) = some digit := by
  have all : ∀ digit < 16, hexDigit? (Char.toUInt8 (Char.toUpper digit.digitChar)) = some digit := by
    decide
  exact all digit small

/-- The footer of a text is a star, the digits of its checksum and the end of the line. -/
theorem footerText_digits (body : List UInt8) : ∃ high low, NmeaCksum body high low ∧
    textBytes (Printer.footerText (byteXor body)) = [0x2A, high, low, 0x0D, 0x0A] := by
  have byte := UInt8.toNat_lt (byteXor body)
  generalize value : (byteXor body).toNat = checkSum at byte
  have upper : checkSum / 16 < 16 := by omega
  have lower : checkSum % 16 < 16 := Nat.mod_lt _ (by decide)
  have digits : padded 2 16 checkSum = [(checkSum / 16).digitChar, (checkSum % 16).digitChar] := by
    rw [padded_succ (by decide) (by decide)]
    unfold padded
    rw [Nat.toDigits_of_lt_base upper]
    rfl
  refine ⟨_, _, ⟨_, _, digit_upper upper, digit_upper lower, ?_⟩, ?_⟩
  · omega
  · unfold Printer.footerText
    rw [value, digits]
    rfl

/-- A sentence that is begun in a buffer: its start byte and a body without a carriage return, and
room for its footer. -/
structure Begun where
  a : Nat → UInt8
  aSize : Nat
  body : List UInt8
  long : 3 ≤ body.length
  short : body.length ≤ 194
  plain : 0x0D ∉ body
  begun : window a 0 (body.length + 1) = 0x24 :: body
  room : body.length + 6 < aSize

namespace Begun

/-- The sentence as `nmea_sprint_footer` completes it, up to the length that it returns. -/
def sentence (s : Begun) : List UInt8 :=
  window (nmeaSprintFooter s.a s.aSize (s.body.length + 1)).1 0
    (nmeaSprintFooter s.a s.aSize (s.body.length + 1)).2

theorem sentence_frame (s : Begun) : ∃ high low, NmeaCksum s.body high low ∧
    s.sentence = nmeaFrame s.body high low := by
  obtain ⟨high, low, cksum, footer⟩ := footerText_digits s.body
  refine ⟨high, low, cksum, ?_⟩
  have shows : (⟨s.a, 0, s.body.length + 1, []⟩ : Printer).Shows
      ([] ++ (0x24 :: s.body).map Char.ofUInt8) := by
    rw [List.nil_append]
    refine ⟨by simp, ?_⟩
    dsimp only
    rw [textBytes_ofUInt8, s.begun]
  have printed := @Printer.footer_shows s.aSize _ [] _ shows rfl (by simpa using s.room)
  unfold Printer.Shows at printed
  rw [footer_eq s.aSize rfl, List.nil_append, ← List.map_drop, List.drop_one, List.tail_cons,
    textBytes_ofUInt8] at printed
  unfold sentence
  rw [printed.2, textBytes_append, textBytes_ofUInt8, footer]
  rfl

end Begun

/-- However the sentences follow each other, each is reported once, at its last byte and as a whole. -/
theorem sentences_accepted (mem : Nat → UInt8) {bufferSize : Nat} (size : 300 ≤ bufferSize)
    {enabledMask : UInt32} (enabled : enabledMask &&& Processor.nmea.enableBit ≠ 0)
    (sentences : List Begun) :
    (run Instance.parseByte (started mem bufferSize enabledMask)
        (sentences.flatMap Begun.sentence)).2 =
      sentences.flatMap fun s =>
        List.replicate (s.sentence.length - 1) [] ++ [[nmeaReport s.sentence]] := by
  have all {c : Instance} (boundary : Boundary bufferSize enabledMask c) :
      (run Instance.parseByte c (sentences.flatMap Begun.sentence)).2 =
        sentences.flatMap fun s =>
          List.replicate (s.sentence.length - 1) [] ++ [[nmeaReport s.sentence]] := by
    induction sentences generalizing c with
    | nil => rfl
    | cons s rest ih =>
      obtain ⟨high, low, cksum, frame⟩ := s.sentence_frame
      have long := s.long
      have short := s.short
      have conforms := nmeaFrame_conforms bufferSize s.plain cksum (by omega) (by omega)
      obtain ⟨outputs, after⟩ := run_frame_last parseByte_feedsOnce conforms
        (by rw [nmeaFrame_length]; omega) enabled boundary
      rw [List.flatMap_cons, List.flatMap_cons, run_append, frame, outputs, ih after.toBoundary]
      rfl
  exact all (started_boundary mem bufferSize enabledMask)

/-- A body of three letters in a buffer of ten bytes. -/
def shortSentence : Begun where
  a k := [0x24, 0x41, 0x42, 0x43].getD k 0
  aSize := 10
  body := [0x41, 0x42, 0x43]
  long := by decide
  short := by decide
  plain := by decide
  begun := by decide
  room := by decide

theorem sentences_accepted_twice :
    (run Instance.parseByte (started (fun _ => 0) 300 0x0F)
        ([shortSentence, shortSentence].flatMap Begun.sentence)).2 =
      [shortSentence, shortSentence].flatMap fun s =>
        List.replicate (s.sentence.length - 1) [] ++ [[nmeaReport s.sentence]] :=
  sentences_accepted (fun _ => 0) (by decide) (by decide) [shortSentence, shortSentence]

end InertialSense.Nmea
