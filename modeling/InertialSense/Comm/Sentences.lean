import InertialSense.Comm.Arrival

/-! The grammar of NMEA sentences and the sentences that are reported. The parser looks at neither
the star nor the line feed, and it reads the checksum with `strtol`. -/

namespace InertialSense.Comm

open Foundation

/-! ### The grammar -/

/-- Five bytes behind the text, the fourth of them a carriage return. -/
def sentence (text : List UInt8) (star high low last : UInt8) : List UInt8 :=
  0x24 :: (text ++ [star, high, low, 0x0D, last])

/-- An NMEA sentence of at most `MAX_MSG_LENGTH_NMEA` bytes. -/
def IsNmea (frame : List UInt8) : Prop :=
  ∃ text high low, frame = sentence text 0x2A high low 0x0A ∧ 0x0D ∉ text ∧
    NmeaCksum text high low ∧ 8 ≤ frame.length ∧ frame.length ≤ 200

/-- Bytes whose checksum is right as `strtol` reads it, although the star or the line feed is
missing, a digit is none, or the length is too large. -/
def SlipsThrough (frame : List UInt8) : Prop :=
  ∃ text star high low last, frame = sentence text star high low last ∧
    0x0D ∉ text ++ [star, high, low] ∧ 8 ≤ frame.length ∧
    strtol16 [high, low] = (byteXor text).toNat ∧
    (star ≠ 0x2A ∨ hexDigit? high = none ∨ hexDigit? low = none ∨ last ≠ 0x0A ∨ 200 < frame.length)

/-- The exclusive or is what `strtol` reads, and it is written with two digits. -/
theorem nmeaCksum_iff {text : List UInt8} {high low : UInt8} :
    NmeaCksum text high low ↔ strtol16 [high, low] = (byteXor text).toNat ∧
      hexDigit? high ≠ none ∧ hexDigit? low ≠ none := by
  constructor
  · rintro ⟨first, second, one, two, value⟩
    rw [strtol16_digits one two, value, one, two]
    exact ⟨rfl, nofun, nofun⟩
  · rintro ⟨value, one, two⟩
    obtain ⟨first, one⟩ := Option.ne_none_iff_exists'.mp one
    obtain ⟨second, two⟩ := Option.ne_none_iff_exists'.mp two
    rw [strtol16_digits one two] at value
    exact ⟨first, second, one, two, Int.ofNat_inj.mp value⟩

section Sentence

variable {text text' : List UInt8} {star star' high high' low low' last last' : UInt8}

@[simp] theorem sentence_length : (sentence text star high low last).length = text.length + 6 := by
  simp [sentence]

theorem sentence_inj : sentence text star high low last = sentence text' star' high' low' last' ↔
    text = text' ∧ star = star' ∧ high = high' ∧ low = low' ∧ last = last' := by
  constructor
  · intro same
    obtain ⟨front, back⟩ := List.append_inj' (List.cons.inj same).2 rfl
    simp at back
    exact ⟨front, back⟩
  · rintro ⟨rfl, rfl, rfl, rfl, rfl⟩
    rfl

/-- For a sentence with a single carriage return the grammar asks for five things. -/
theorem isNmea_sentence (plain : 0x0D ∉ text ++ [star, high, low]) :
    IsNmea (sentence text star high low last) ↔
      (8 ≤ text.length + 6 ∧ strtol16 [high, low] = (byteXor text).toNat) ∧
        star = 0x2A ∧ hexDigit? high ≠ none ∧ hexDigit? low ≠ none ∧ last = 0x0A ∧
          text.length + 6 ≤ 200 := by
  unfold IsNmea
  rw [sentence_length]
  constructor
  · rintro ⟨text', high', low', same, -, cksum, long, short⟩
    obtain ⟨rfl, rfl, rfl, rfl, rfl⟩ := sentence_inj.mp same
    obtain ⟨value, one, two⟩ := nmeaCksum_iff.mp cksum
    exact ⟨⟨long, value⟩, rfl, one, two, rfl, short⟩
  · rintro ⟨⟨long, value⟩, rfl, one, two, rfl, short⟩
    refine ⟨text, high, low, rfl, ?_, nmeaCksum_iff.mpr ⟨value, one, two⟩, long, short⟩
    exact fun member => plain (List.mem_append_left _ member)

theorem slipsThrough_sentence (plain : 0x0D ∉ text ++ [star, high, low]) :
    SlipsThrough (sentence text star high low last) ↔
      (8 ≤ text.length + 6 ∧ strtol16 [high, low] = (byteXor text).toNat) ∧
        ¬(star = 0x2A ∧ hexDigit? high ≠ none ∧ hexDigit? low ≠ none ∧ last = 0x0A ∧
          text.length + 6 ≤ 200) := by
  unfold SlipsThrough
  rw [sentence_length]
  constructor
  · rintro ⟨text', star', high', low', last', same, -, long, value, wrong⟩
    obtain ⟨rfl, rfl, rfl, rfl, rfl⟩ := sentence_inj.mp same
    refine ⟨⟨long, value⟩, ?_⟩
    rintro ⟨star, one, two, last, short⟩
    rcases wrong with other | none | none | other | long
    · exact other star
    · exact one none
    · exact two none
    · exact other last
    · omega
  · rintro ⟨⟨long, value⟩, wrong⟩
    refine ⟨text, star, high, low, last, rfl, plain, long, value, ?_⟩
    by_contra right
    simp only [not_or, not_not, Nat.not_lt] at right
    exact wrong right

private theorem sentence_ended : 0x0D ∈ (sentence text star high low last).dropLast := by
  have split : sentence text star high low last = 0x24 :: text ++ [star, high, low, 0x0D, last] := rfl
  rw [split, List.dropLast_append_of_ne_nil (by simp)]
  exact List.mem_append_right _ (by simp)

end Sentence

section Frame

variable {frame : List UInt8}

theorem SlipsThrough.ended (slips : SlipsThrough frame) : 0x0D ∈ frame.dropLast := by
  obtain ⟨_, _, _, _, _, rfl, -⟩ := slips
  exact sentence_ended

theorem IsNmea.ended (right : IsNmea frame) : 0x0D ∈ frame.dropLast := by
  obtain ⟨_, _, _, rfl, -⟩ := right
  exact sentence_ended

theorem IsNmea.start (right : IsNmea frame) : frame.getD 0 0 = 0x24 := by
  obtain ⟨_, _, _, rfl, -⟩ := right
  rfl

theorem IsNmea.long (right : IsNmea frame) : 8 ≤ frame.length := by
  obtain ⟨_, _, _, -, -, -, long, -⟩ := right
  exact long

end Frame

/-! ### What the checks say -/

private theorem nmeaVerdict_waits {byte : Nat → UInt8} {count : Nat}
    (plain : ∀ k < count, byte k ≠ 0x0D) :
    nmeaVerdict byte (count + 1) = .incomplete ∨ nmeaVerdict byte (count + 1) = .rejected := by
  unfold nmeaVerdict
  cases ends : carriageReturn byte (count + 1) with
  | none =>
    dsimp only
    split
    · exact .inr rfl
    · exact .inl rfl
  | some cr =>
    obtain ⟨there, -, -⟩ := carriageReturn_eq_some.mp ends
    have late : ¬cr < count := fun early => plain cr early there
    dsimp only
    rw [if_pos (show count + 1 < cr + 2 by omega)]
    split
    · exact .inr rfl
    · exact .inl rfl

private theorem nmeaVerdict_some {byte : Nat → UInt8} {cr : Nat}
    (ends : carriageReturn byte (cr + 2) = some cr) (near : cr ≤ 201) :
    nmeaVerdict byte (cr + 2) =
      if cr + 2 < 8 then .rejected
      else if strtol16 [byte (cr - 2), byte (cr - 1)] =
          (byteXor (window byte 1 (cr - 4))).toNat then
        .accepted (cr + 2) (Nat.succ_pos _) (frameReport .nmea
          (getNmeaMsgId byte (cr + 2) % 2 ^ 16).toNat (cr + 2) (window byte 0 (cr + 2)))
      else .rejected := by
  unfold nmeaVerdict
  simp only [ends]
  rw [if_neg (by omega), if_neg (by omega)]

private theorem nmeaVerdict_report {byte : Nat → UInt8} {count : Nat} {positive : 0 < count}
    {report : Report} (accepted : nmeaVerdict byte count = .accepted count positive report) :
    ∃ id, report = frameReport .nmea id count (window byte 0 count) := by
  unfold nmeaVerdict at accepted
  split at accepted
  · split at accepted <;> cases accepted
  split at accepted
  · cases accepted
  split at accepted
  · cases accepted
  split at accepted
  · cases accepted
  split at accepted
  · obtain ⟨length, same⟩ := Verdict.accepted.inj accepted
    rw [length] at same
    exact ⟨_, same.symm⟩
  · cases accepted

private theorem window_sentence {byte : Nat → UInt8} (start : byte 0 = 0x24) (count : Nat)
    (there : byte (count + 4) = 0x0D) :
    window byte 0 (count + 6) = sentence (window byte 1 count) (byte (count + 1))
      (byte (count + 2)) (byte (count + 3)) (byte (count + 5)) := by
  have parts : window byte 0 (count + 6) =
      window byte 0 1 ++ (window byte 1 count ++ window byte (count + 1) 5) := by
    rw [show count + 6 = 1 + (count + 5) by omega, window_add, window_add, Nat.zero_add,
      Nat.add_comm 1 count]
  rw [parts, show window byte 0 1 = [0x24] from congrArg (fun first => [first]) start]
  unfold sentence
  rw [← there]
  rfl

namespace Instance

variable {c : Instance}

/-- The bytes of the packet in progress, up to the current one. -/
def frame (c : Instance) : List UInt8 := window c.byteAt 0 c.numBytes

/-- The packet in progress is given up with a parse error, which is returned unless the bytes
before it have already caused one. -/
def Rejects (c : Instance) : Prop :=
  c.turn.1.processPkt = none ∧ c.turn.2 = if c.rxErrorState then .none else .parseError

/-- A pass reports an NMEA packet if and only if the bytes of the packet in progress are a
sentence, and anything else that ends like a sentence is rejected. -/
structure TreatsNmea (c : Instance) : Prop where
  starts : c.processPkt = none → c.current = 0x24 →
    c.enabledMask &&& Processor.nmea.enableBit ≠ 0 → c.turn.1.processPkt = some .nmea
  accepts : c.turn.2 = .nmea ↔ c.processPkt = some .nmea ∧ IsNmea c.frame
  data : c.turn.2 = .nmea →
    ∃ id, c.turn.1.report .nmea = { ptype := .nmea, packet := some (wholeView id c.frame) }
  rejects : c.processPkt = some .nmea → 0x0D ∈ c.frame.dropLast → ¬IsNmea c.frame → c.Rejects

/-! ### One pass -/

private theorem rejects_of_decides {processor : Processor} (busy : c.processPkt = some processor)
    (decides : c.Decides processor .rejected) : c.Rejects := by
  obtain ⟨state, size, error, rejects⟩ := decides
  unfold Rejects
  rw [turn_busy busy, rejects]
  refine ⟨parseErrorResetState_processPkt _ _, ?_⟩
  show (((c.setState state).setSize size).parseErrorResetState error).2 = _
  unfold parseErrorResetState
  rw [reportParseError_ptype]
  rfl

/-- The three cases of a byte of an NMEA packet: no carriage return before it; not enough bytes;
or a sentence, about which the number that `strtol` reads decides. -/
private theorem Reached.nmea_cases (reached : c.Reached) (busy : c.processPkt = some .nmea) :
    (0x0D ∉ c.frame.dropLast ∧ c.turn.2 ≠ .nmea) ∨
      (c.frame.length < 8 ∧ c.turn.2 ≠ .nmea ∧ c.Rejects) ∨
        ∃ text star high low last, c.frame = sentence text star high low last ∧
          0x0D ∉ text ++ [star, high, low] ∧ 8 ≤ text.length + 6 ∧
          if strtol16 [high, low] = (byteXor text).toNat then c.turn.2 = .nmea
          else c.turn.2 ≠ .nmea ∧ c.Rejects := by
  obtain ⟨-, undecided⟩ := reached.undecided .nmea busy
  have decides : c.Decides .nmea (nmeaVerdict c.byteAt c.numBytes) :=
    reached.decides busy (by decide)
  have count : c.numBytes = c.held + 1 := rfl
  have rejected (decides : c.Decides .nmea .rejected) : c.turn.2 ≠ .nmea ∧ c.Rejects := by
    have rejects := rejects_of_decides busy decides
    refine ⟨?_, rejects⟩
    rw [rejects.2]
    split <;> nofun
  rcases nmea_undecided undecided.verdict with ⟨plain, -⟩ | ⟨cr, same, there, near, first⟩
  · refine .inl ⟨?_, fun found => ?_⟩
    · unfold frame
      rw [count, window_succ, List.dropLast_concat]
      intro member
      obtain ⟨k, small, here⟩ := List.mem_map.mp member
      rw [Nat.zero_add] at here
      exact plain k (List.mem_range.mp small) here
    · rw [count] at decides
      rcases nmeaVerdict_waits plain with verdict | verdict
      · rw [verdict] at decides
        obtain ⟨state, size, waits, -⟩ := decides
        rw [turn_busy busy, waits] at found
        cases found
      · rw [verdict] at decides
        exact (rejected decides).1 found
  · have whole : c.numBytes = cr + 2 := by omega
    have ends : carriageReturn c.byteAt (cr + 2) = some cr :=
      carriageReturn_eq_some.mpr ⟨there, by omega, first⟩
    rw [whole, nmeaVerdict_some ends near] at decides
    have length : c.frame.length = cr + 2 := by
      unfold frame
      rw [window_length, whole]
    by_cases short : cr + 2 < 8
    · rw [if_pos short] at decides
      exact .inr (.inl ⟨by omega, rejected decides⟩)
    · obtain ⟨size, rfl⟩ : ∃ size, cr = size + 4 := ⟨cr - 4, by omega⟩
      have shape : c.frame = sentence (window c.byteAt 1 size) (c.byteAt (size + 1))
          (c.byteAt (size + 2)) (c.byteAt (size + 3)) (c.byteAt (size + 5)) := by
        unfold frame
        rw [whole]
        exact window_sentence undecided.start size there
      rw [if_neg short] at decides
      refine .inr (.inr ⟨window c.byteAt 1 size, c.byteAt (size + 1), c.byteAt (size + 2),
        c.byteAt (size + 3), c.byteAt (size + 5), shape, ?_, by rw [window_length]; omega, ?_⟩)
      · intro member
        have inside (k : Nat) (small : k < size + 3) : c.byteAt (1 + k) ≠ 0x0D :=
          first (1 + k) (by omega)
        have joined : window c.byteAt 1 (size + 3) = window c.byteAt 1 size ++
            [c.byteAt (size + 1), c.byteAt (size + 2), c.byteAt (size + 3)] := by
          rw [window_add, Nat.add_comm 1 size]
          rfl
        rw [← joined] at member
        obtain ⟨k, small, here⟩ := List.mem_map.mp member
        exact inside k (List.mem_range.mp small) here
      · change c.Decides .nmea (if strtol16 [c.byteAt (size + 2), c.byteAt (size + 3)] =
          (byteXor (window c.byteAt 1 size)).toNat then _ else _) at decides
        split
        case isTrue right =>
          rw [if_pos right] at decides
          obtain ⟨-, -, -, pkt, ackNeeded, accepts, -⟩ := decides
          rw [turn_busy busy, accepts]
          rfl
        case isFalse wrong =>
          rw [if_neg wrong] at decides
          exact rejected decides

/-- In one pass NMEA is treated by the grammar unless something slips through. -/
theorem Reached.treatsNmea_iff (reached : c.Reached) :
    c.TreatsNmea ↔ (c.processPkt = some .nmea → ¬SlipsThrough c.frame) := by
  constructor
  · intro treats busy slips
    rcases reached.nmea_cases busy with
      ⟨plain, -⟩ | ⟨short, -, -⟩ | ⟨_, _, _, _, _, shape, plain, -, decided⟩
    · exact plain slips.ended
    · obtain ⟨_, _, _, _, _, -, -, long, -⟩ := slips
      omega
    · rw [shape, slipsThrough_sentence plain] at slips
      obtain ⟨⟨long, value⟩, wrong⟩ := slips
      rw [if_pos value] at decided
      have right := (treats.accepts.mp decided).2
      rw [shape, isNmea_sentence plain] at right
      exact wrong right.2
  · intro sound
    have grammar (busy : c.processPkt = some .nmea) :
        (c.turn.2 = .nmea ↔ IsNmea c.frame) ∧
          (0x0D ∈ c.frame.dropLast → ¬IsNmea c.frame → c.Rejects) := by
      have whole := sound busy
      rcases reached.nmea_cases busy with
        ⟨plain, silent⟩ | ⟨short, silent, rejects⟩ | ⟨_, _, _, _, _, shape, plain, long, decided⟩
      · exact ⟨⟨fun found => absurd found silent, fun right => absurd right.ended plain⟩,
          fun ended => absurd ended plain⟩
      · refine ⟨⟨fun found => absurd found silent, fun right => ?_⟩, fun _ _ => rejects⟩
        obtain ⟨_, _, _, -, -, -, long, -⟩ := right
        omega
      · rw [shape, slipsThrough_sentence plain] at whole
        rw [shape, isNmea_sentence plain]
        split at decided
        case isTrue value =>
          have right := not_not.mp fun wrong => whole ⟨⟨long, value⟩, wrong⟩
          exact ⟨⟨fun _ => ⟨⟨long, value⟩, right⟩, fun _ => decided⟩,
            fun _ wrong => absurd ⟨⟨long, value⟩, right⟩ wrong⟩
        case isFalse other =>
          exact ⟨⟨fun found => absurd found decided.1, fun right => absurd right.1.2 other⟩,
            fun _ _ => decided.2⟩
    refine ⟨?_, ⟨?_, ?_⟩, ?_, fun busy ended wrong => (grammar busy).2 ended wrong⟩
    · intro idle start enabled
      have found : startOf c.current = some .nmea := by rw [start]; rfl
      rw [turn_start idle found enabled]
      rfl
    · intro found
      have busy := (reached.turn_packet (by decide)
        (show c.turn.2 = Processor.nmea.packetType from found)).1
      exact ⟨busy, (grammar busy).1.mp found⟩
    · rintro ⟨busy, right⟩
      exact (grammar busy).1.mpr right
    · intro found
      obtain ⟨-, positive, report, verdict, reported⟩ :=
        reached.turn_packet (by decide) (show c.turn.2 = Processor.nmea.packetType from found)
      obtain ⟨id, same⟩ := nmeaVerdict_report verdict
      refine ⟨id, reported.trans (same.trans ?_)⟩
      unfold frameReport wholeView frame
      rw [window_length]

end Instance

/-- What is reported of a sentence. -/
def nmeaReport (frame : List UInt8) : Report :=
  { ptype := .nmea
    packet := some (wholeView
      (getNmeaMsgId (fun k => frame.getD k 0) frame.length % 2 ^ 16).toNat frame) }

/-- A sentence is accepted as a whole. -/
private theorem IsNmea.accepted {frame : List UInt8} (right : IsNmea frame) :
    ∃ positive, nmeaVerdict (fun k => frame.getD k 0) frame.length =
      .accepted frame.length positive (nmeaReport frame) := by
  obtain ⟨text, high, low, rfl, plain, cksum, long, short⟩ := right
  rw [sentence_length] at long short
  have ends : carriageReturn (fun k => (sentence text 0x2A high low 0x0A).getD k 0)
      (text.length + 4 + 2) = some (text.length + 4) := by
    refine carriageReturn_eq_some.mpr ⟨?_, by omega, fun k before => ?_⟩
    · simp [sentence, List.getD_eq_getElem?_getD]
    · by_cases first : k = 0
      · subst first
        exact (by decide : (0x24 : UInt8) ≠ 0x0D)
      · exact nmea_inner plain cksum (by omega) before
  have body : window (fun k => (sentence text 0x2A high low 0x0A).getD k 0) 1 text.length = text := by
    rw [window_getD _ _ (by rw [sentence_length]; omega)]
    exact List.take_left' rfl
  have whole : window (fun k => (sentence text 0x2A high low 0x0A).getD k 0) 0 (text.length + 4 + 2) =
      sentence text 0x2A high low 0x0A := by
    rw [window_getD _ _ (by rw [sentence_length]; omega), List.drop_zero]
    exact List.take_of_length_le (by rw [sentence_length])
  have digits : strtol16 [(sentence text 0x2A high low 0x0A).getD (text.length + 4 - 2) 0,
      (sentence text 0x2A high low 0x0A).getD (text.length + 4 - 1) 0] = (byteXor text).toNat := by
    have same : [(sentence text 0x2A high low 0x0A).getD (text.length + 2) 0,
        (sentence text 0x2A high low 0x0A).getD (text.length + 3) 0] = [high, low] := by
      simp [sentence, List.getD_eq_getElem?_getD]
    exact (congrArg strtol16 same).trans (nmeaCksum_iff.mp cksum).1
  have accepted := nmeaVerdict_some ends (by omega)
  rw [if_neg (by omega), Nat.add_sub_cancel, body, if_pos digits, whole] at accepted
  have length : (sentence text 0x2A high low 0x0A).length = text.length + 4 + 2 := sentence_length
  refine ⟨by omega, ?_⟩
  unfold nmeaReport wholeView
  simp only [length]
  exact accepted

/-- In every run NMEA is treated by the grammar in each pass if and only if nothing slips through
in any pass. A sentence that comes to an idle parser is always reported once, at its last byte. -/
theorem nmea_grammar_iff (mem : Nat → UInt8) (bufferSize : Nat) (enabledMask : UInt32) :
    (∀ operations : List Operation,
      Along Instance.operate (Instance.Passes Instance.TreatsNmea)
          (started mem bufferSize enabledMask) operations ↔
        Along Instance.operate
          (Instance.Passes fun c => c.processPkt = some .nmea → ¬SlipsThrough c.frame)
          (started mem bufferSize enabledMask) operations) ∧
    (enabledMask &&& Processor.nmea.enableBit ≠ 0 → ∀ c, Idle bufferSize enabledMask c →
      ∀ frame, IsNmea frame → frame.length ≤ bufferSize - bufferSize / 3 →
        (run Instance.parseByte c frame).2 =
          List.replicate (frame.length - 1) [] ++ [[nmeaReport frame]]) := by
  constructor
  · intro operations
    exact Instance.Reached.along_iff (fun _ reached => reached.treatsNmea_iff)
      (Instance.started_reached mem bufferSize enabledMask) operations
  · intro enabled c idle frame right fits
    obtain ⟨positive, accepted⟩ := right.accepted
    have long := right.long
    exact (idle.run_frame (by omega) (by decide) enabled right.start rfl accepted fits).1

/-- `$AB*03` with both end bytes. -/
def plainSentence : List UInt8 := sentence [0x41, 0x42] 0x2A 0x30 0x33 0x0A

theorem nmea_grammar_iff_plain :
    (run Instance.parseByte (started (fun _ => 0) 64 0x0F) plainSentence).2 =
      List.replicate 7 [] ++ [[nmeaReport plainSentence]] :=
  (nmea_grammar_iff (fun _ => 0) 64 0x0F).2 (by decide) _
    ⟨rfl, rfl, rfl, Nat.le_refl _, rfl, Nat.zero_le _⟩ plainSentence
    ⟨[0x41, 0x42], 0x30, 0x33, rfl, by decide, ⟨0, 3, by decide, by decide, by decide⟩, by decide,
      by decide⟩ (by decide)

/-- The same with a letter in place of the star, and another in place of the line feed. -/
def brokenSentence : List UInt8 := sentence [0x41, 0x42] 0x58 0x30 0x33 0x59

/-- It is reported. -/
theorem nmea_broken_reported :
    ¬∀ operations : List Operation,
      Along Instance.operate (Instance.Passes Instance.TreatsNmea) (started (fun _ => 0) 64 0x0F)
        operations := by
  intro treated
  have ends (c : Instance) (treats : c.TreatsNmea) :
      c.turn.2 = .nmea → c.frame.getLast? = some 0x0A := by
    intro found
    obtain ⟨text, high, low, shape, -⟩ := (treats.accepts.mp found).2
    have split : sentence text 0x2A high low 0x0A =
        (0x24 :: text ++ [0x2A, high, low, 0x0D]) ++ [0x0A] := by simp [sentence]
    rw [shape, split, List.getLast?_concat]
  have along := (treated [.write brokenSentence, .parse 0]).mono
    fun _ _ passes => Instance.Passes.mono ends passes
  exact absurd along (by decide +kernel)

end InertialSense.Comm
