import InertialSense.Nmea.GsvCounts
import InertialSense.Nmea.GsvLists

/-! What `nmea_parse_gsv` reads of a sentence that `nmea_gsv_group` has printed. -/

namespace InertialSense.Nmea

open Foundation

/-! ### The text of a sentence -/

/-- What is printed of a number behind its comma: nothing for zero. -/
def numberText (precision : Nat) (value : UInt32) : List Char :=
  if value ≠ 0 then padded precision 10 value.toNat else []

theorem numberPiece_shown (precision : Nat) (value : UInt32) :
    (numberPiece precision value).shown = ',' :: numberText precision value := by
  unfold numberPiece numberText
  split <;> rfl

theorem plain_numberText (precision : Nat) (value : UInt32) : PlainText (numberText precision value) := by
  unfold numberText
  split
  · exact plain_padded _ _
  · exact fun c none => absurd none List.not_mem_nil

theorem atoi_numberText (precision : Nat) {value : UInt32} (small : value.toNat < 2 ^ 31) :
    atoi (textBytes (numberText precision value)) = value.toNat := by
  unfold numberText
  split
  · exact atoi_padded precision small
  case isFalse zero =>
    rw [not_not.mp zero]
    decide

/-- The fields before those of the satellites. -/
def GsvMessage.header (message : GsvMessage) : List (List Char) :=
  [decimal message.numMsgs, decimal message.msgNum, padded 2 10 message.numSigs]

section Group

variable {settings : GsvSettings} {gsat : Sats} {gsig : Sigs} {gnssId sigId : UInt8} {message : GsvMessage}

variable (gsat gsig) in
/-- The fields of a satellite. -/
def gsvFields (entry : Nat × Nat) : List (List Char) :=
  [padded 2 10 (prnToSvId (gsig.sig entry.1).gnssId (gsig.sig entry.1).svId).toNat,
    numberText 2 (UInt32.ofInt (gsat.sat entry.2).elev.toInt),
    numberText 3 (UInt32.ofInt (gsat.sat entry.2).azim.toInt), numberText 2 (gsig.sig entry.1).cno.toUInt32]

variable (gsat gsig) in
/-- What is read of these fields. -/
def gsvSatOf (entry : Nat × Nat) : GsvSat where
  svId := prnToSvId (gsig.sig entry.1).gnssId (gsig.sig entry.1).svId
  elev := UInt8.ofInt (atoi (textBytes (numberText 2 (UInt32.ofInt (gsat.sat entry.2).elev.toInt))))
  azim := UInt16.ofInt (atoi (textBytes (numberText 3 (UInt32.ofInt (gsat.sat entry.2).azim.toInt))))
  cno := (gsig.sig entry.1).cno

theorem header_plain : ∀ field ∈ message.header, PlainText field := by
  unfold GsvMessage.header
  refine List.forall_mem_cons.mpr ⟨plain_decimal _, ?_⟩
  refine List.forall_mem_cons.mpr ⟨plain_decimal _, ?_⟩
  exact List.forall_mem_singleton.mpr (plain_padded _ _)

theorem gsvFields_plain (entry : Nat × Nat) : ∀ field ∈ gsvFields gsat gsig entry, PlainText field := by
  unfold gsvFields
  refine List.forall_mem_cons.mpr ⟨plain_padded _ _, ?_⟩
  refine List.forall_mem_cons.mpr ⟨plain_numberText _ _, ?_⟩
  refine List.forall_mem_cons.mpr ⟨plain_numberText _ _, ?_⟩
  exact List.forall_mem_singleton.mpr (plain_numberText _ _)

/-- A sentence is its name, its fields with a comma before each, and the letter of its signal. -/
theorem draft_shown (protocol : settings.protocolVersion ≥ nmeaProtocol4p10) :
    (message.draft settings gsat gsig gnssId sigId).shown =
      ['$', 'G', gnssIdToTalkerId gnssId, 'G', 'S', 'V'] ++
        (message.header ++ message.entries.flatMap (gsvFields gsat gsig)).flatMap (',' :: ·) ++
          [',', Char.ofUInt8 (sigIdToNmea4p11SignalId gnssId sigId)] := by
  have entries : (message.entries.flatMap (gsvEntryPieces settings gsat gsig gnssId)).flatMap Piece.shown =
      (message.entries.flatMap (gsvFields gsat gsig)).flatMap (',' :: ·) := by
    rw [List.flatMap_assoc, List.flatMap_assoc]
    refine List.flatMap_congr fun entry _ => ?_
    unfold gsvEntryPieces gsvFields
    dsimp only
    rw [if_neg (by omega)]
    simp only [List.flatMap_cons, List.flatMap_nil, numberPiece_shown, List.append_nil]
    rfl
  unfold Draft.shown GsvMessage.draft GsvMessage.header
  dsimp only
  rw [if_pos protocol, List.flatMap_append, List.flatMap_cons, entries, List.flatMap_append]
  simp [Head.shown, Piece.shown]

/-! ### What is read of it -/

variable {s : Sentence} {ptr : Nat} {rest : List Char}

theorem readGsvSats_shows {entries : List (Nat × Nat)}
    (shown : s.Shows ptr ((entries.flatMap (gsvFields gsat gsig)).flatMap (· ++ [',']) ++ rest)) :
    s.readGsvSats entries.length ptr = some (entries.map (gsvSatOf gsat gsig),
      ptr + ((entries.flatMap (gsvFields gsat gsig)).flatMap (· ++ [','])).length) := by
  induction entries generalizing ptr with
  | nil => rfl
  | cons entry entries ih =>
    rw [List.flatMap_cons, List.flatMap_append] at shown ⊢
    rw [List.append_assoc] at shown
    have read := readFields_shows (gsvFields_plain entry) shown
    have later := ih (shows_drop shown)
    have svId : atoi (textBytes (padded 2 10 (prnToSvId (gsig.sig entry.1).gnssId (gsig.sig entry.1).svId).toNat)) =
        (prnToSvId (gsig.sig entry.1).gnssId (gsig.sig entry.1).svId).toNat :=
      atoi_padded 2 ((UInt16.toNat_lt _).trans (by decide))
    have cno : atoi (textBytes (numberText 2 (gsig.sig entry.1).cno.toUInt32)) = (gsig.sig entry.1).cno.toNat :=
      atoi_numberText 2 ((UInt8.toNat_lt (gsig.sig entry.1).cno).trans (by decide))
    rw [List.length_append, ← Nat.add_assoc]
    generalize ptr + ((gsvFields gsat gsig entry).flatMap (· ++ [','])).length = next at read later ⊢
    unfold gsvFields at read
    simp only [List.map_cons, List.map_nil, List.length_cons, List.length_nil, Nat.zero_add] at read
    rw [List.length_cons, Sentence.readGsvSats, read]
    dsimp only
    rw [later, svId, cno, uint16_ofInt, uint8_ofInt]
    rfl

private theorem signalId_plain (gnssId sigId : UInt8) :
    endsField (sigIdToNmea4p11SignalId gnssId sigId) = false := by
  unfold sigIdToNmea4p11SignalId
  repeat' split
  all_goals decide

private theorem ofUInt8_toUInt8 (byte : UInt8) : (Char.ofUInt8 byte).toUInt8 = byte :=
  UInt8.toUInt8_toUInt32 byte

theorem readGsv_shows (protocol : settings.protocolVersion ≥ nmeaProtocol4p10)
    (msgNum : message.msgNum < 2 ^ 31) (numSigs : message.numSigs < 2 ^ 31)
    (count : satCnt message.msgNum message.numSigs = message.entries.length)
    (shown : s.Shows ptr ((message.draft settings gsat gsig gnssId sigId).sentence ++ rest)) :
    s.readGsv settings ptr = some
      { talker := (gnssIdToTalkerId gnssId).toUInt8
        sats := message.entries.map (gsvSatOf gsat gsig)
        signal := some (sigIdToNmea4p11SignalId gnssId sigId)
        next := ptr + (message.draft settings gsat gsig gnssId sigId).sentence.length } := by
  unfold Draft.sentence at shown ⊢
  have five := Printer.footerText_length
    (Comm.byteXor (textBytes ((message.draft settings gsat gsig gnssId sigId).shown.drop 1)))
  obtain ⟨tail, footer⟩ : ∃ tail, Printer.footerText (Comm.byteXor (textBytes
      ((message.draft settings gsat gsig gnssId sigId).shown.drop 1))) = '*' :: tail := ⟨_, rfl⟩
  rw [footer] at shown five ⊢
  rw [draft_shown protocol] at shown ⊢
  have talker := (@shows_drop _ _ ['$', 'G'] _ shown).2.1
  rw [List.append_assoc _ ('*' :: tail)] at shown
  have body := shows_fields shown
  rw [List.flatMap_append, List.append_assoc] at body
  have header := readFields_shows header_plain body
  have entries := shows_drop body
  have sats := readGsvSats_shows entries
  have letter := shows_drop entries
  have signal := @findNextField_shows s _ [Char.ofUInt8 (sigIdToNmea4p11SignalId gnssId sigId)] _ '*'
    (List.forall_mem_singleton.mpr (by rw [ofUInt8_toUInt8]; exact signalId_plain gnssId sigId)) (.inr rfl) letter
  have here := letter.2.1
  have commas := congrArg List.length (commas_behind
    (message.header ++ message.entries.flatMap (gsvFields gsat gsig)) [])
  rw [List.flatMap_append (f := (· ++ [',']))] at commas
  simp only [List.length_append, List.length_cons, List.length_nil] at commas five here header sats signal ⊢
  rw [Nat.add_assoc ptr] at header sats here signal
  generalize first : ptr + (0 + 1 + 1 + 1 + 1 + 1 + 1 + 1) + (message.header.flatMap (· ++ [','])).length =
    next at header sats here signal
  generalize second : next + ((message.entries.flatMap (gsvFields gsat gsig)).flatMap (· ++ [','])).length =
    last at sats here signal
  have fields : s.readFields 3 (ptr + 7) = some ([(textBytes (decimal message.numMsgs),
      (decimal message.numMsgs).length + 1), (textBytes (decimal message.msgNum), (decimal message.msgNum).length + 1),
      (textBytes (padded 2 10 message.numSigs), (padded 2 10 message.numSigs).length + 1)], next) := header
  have after : nextField '*' (last + (0 + 1)) + 5 = ptr + (0 + 1 + 1 + 1 + 1 + 1 + 1 +
      ((message.header ++ message.entries.flatMap (gsvFields gsat gsig)).flatMap (',' :: ·)).length + (0 + 1 + 1) +
        (tail.length + 1)) := by
    have star : nextField '*' (last + (0 + 1)) = last + 1 := rfl
    omega
  unfold Sentence.readGsv
  rw [fields]
  dsimp only
  rw [atoi_decimal_int (by omega) (by omega), atoi_padded 2 numSigs, count, sats]
  dsimp only
  rw [if_pos protocol, signal, here, ofUInt8_toUInt8, ← after, ← talker]
  rfl

end Group

/-! ### What is put into the lists -/

/-- The signals of the list. -/
def Sigs.listed (gsig : Sigs) : List SigSv := (List.range gsig.numSigs).map gsig.sig

@[simp] theorem listed_length (gsig : Sigs) : gsig.listed.length = gsig.numSigs := by
  unfold Sigs.listed
  rw [List.length_map, List.length_range]

/-- The signal that is added for a satellite. -/
def gsvSignal (settings : GsvSettings) (talker : UInt8) (sat : GsvSat) : SigSv :=
  let (gnssId, svId, sigId) := talkerIdToGnssId settings talker sat.svId
  ⟨gnssId, svId.toUInt8, sigId, sat.cno, 7, 0x0005⟩

section Lists

variable {settings : GsvSettings} {talker : UInt8}

private theorem listed_add (gsig : Sigs) (new : SigSv) :
    (⟨gsig.numSigs + 1, Function.update gsig.sig gsig.numSigs new⟩ : Sigs).listed = gsig.listed ++ [new] := by
  unfold Sigs.listed
  dsimp only
  rw [List.range_succ, List.map_append, List.map_singleton, Function.update_self]
  refine congrArg (· ++ [new]) (List.map_congr_left fun i member => ?_)
  exact Function.update_of_ne (Nat.ne_of_lt (List.mem_range.mp member)) _ _

private theorem satSteps_listed (sats : List GsvSat) (pass : GsvPass)
    (room : pass.lists.sigs.numSigs + sats.length ≤ maxNumSatSignals) :
    let after := sats.foldl (gsvSatStep settings talker) pass
    after.lists.sigs.listed = pass.lists.sigs.listed ++ sats.map (gsvSignal settings talker) ∧
      after.places = pass.places ++ List.range' pass.lists.sigs.numSigs sats.length := by
  induction sats generalizing pass with
  | nil => exact ⟨by simp, by simp⟩
  | cons sat rest ih =>
    rw [List.length_cons] at room
    have free : pass.lists.sigs.numSigs < maxNumSatSignals := by omega
    have sigs : (gsvSatStep settings talker pass sat).lists.sigs = ⟨pass.lists.sigs.numSigs + 1,
        Function.update pass.lists.sigs.sig pass.lists.sigs.numSigs (gsvSignal settings talker sat)⟩ := if_pos free
    have places : (gsvSatStep settings talker pass sat).places = pass.places ++ [pass.lists.sigs.numSigs] :=
      if_pos free
    have numSigs : (gsvSatStep settings talker pass sat).lists.sigs.numSigs = pass.lists.sigs.numSigs + 1 := by
      rw [sigs]
    obtain ⟨listed, placed⟩ := ih (gsvSatStep settings talker pass sat) (by omega)
    refine ⟨?_, ?_⟩
    · rw [List.foldl_cons, listed, sigs, listed_add, List.append_assoc]
      rfl
    · rw [List.foldl_cons, placed, places, numSigs, List.append_assoc]
      rfl

private theorem satSteps_gnssId {sats : List GsvSat} (some : sats ≠ []) (pass : GsvPass) : ∃ sat ∈ sats,
    (sats.foldl (gsvSatStep settings talker) pass).gnssId = (gsvSignal settings talker sat).gnssId := by
  induction sats generalizing pass with
  | nil => exact absurd rfl some
  | cons sat rest ih =>
    cases rest with
    | nil => exact ⟨sat, .head _, rfl⟩
    | cons next others =>
      obtain ⟨last, member, same⟩ := ih (List.cons_ne_nil _ _) (gsvSatStep settings talker pass sat)
      exact ⟨last, .tail _ member, same⟩

/-- The last signals of the list get a signal. -/
private theorem listed_setSigIds {gsig : Sigs} {first new : List SigSv} (listed : gsig.listed = first ++ new)
    (sigId : UInt8) : (gsig.setSigIds (List.range' first.length new.length) sigId).listed =
      first ++ new.map fun sig => { sig with sigId } := by
  have total : gsig.numSigs = first.length + new.length := by
    rw [← listed_length, listed, List.length_append]
  have parts : List.range gsig.numSigs =
      List.range' 0 first.length ++ List.range' first.length new.length := by
    rw [total, List.range_eq_range', ← List.range'_append_1, Nat.zero_add]
  unfold Sigs.listed at listed
  rw [parts, List.map_append] at listed
  obtain ⟨before, after⟩ := List.append_inj listed (by simp)
  unfold Sigs.listed Sigs.setSigIds
  dsimp only
  rw [parts, List.map_append]
  have last : (new.map fun sig => { sig with sigId }) =
      (List.range' first.length new.length).map fun i => { gsig.sig i with sigId } := by
    conv_lhs => rw [← after]
    exact List.map_map
  rw [last]
  refine congrArg₂ _ ((List.map_congr_left fun i member => ?_).trans before)
    (List.map_congr_left fun i member => if_pos member)
  refine if_neg fun later => ?_
  have low := (List.mem_range'_1.mp member).2
  have high := (List.mem_range'_1.mp later).1
  omega

end Lists

/-! ### A sentence is read back -/

/-- The constellation, the satellite, the frequency and the strength of a signal. -/
def SigSv.key (sig : SigSv) : UInt8 × UInt8 × UInt8 × UInt8 := (sig.gnssId, sig.svId, sig.sigId, sig.cno)

def Sigs.keys (gsig : Sigs) : List (UInt8 × UInt8 × UInt8 × UInt8) := gsig.listed.map SigSv.key

/-- A signal of a group that the talker and the letter of the group give back. -/
structure GivenBack (settings : GsvSettings) (gnssId sigId : UInt8) (sig : SigSv) : Prop where
  frequency : sig.sigId = sigId
  constellation : (talkerIdToGnssId settings (gnssIdToTalkerId gnssId).toUInt8
    (prnToSvId sig.gnssId sig.svId)).1 = sig.gnssId
  satellite : (talkerIdToGnssId settings (gnssIdToTalkerId gnssId).toUInt8
    (prnToSvId sig.gnssId sig.svId)).2.1.toUInt8 = sig.svId
  letter : nmea4p11SignalIdToSigId sig.gnssId (sigIdToNmea4p11SignalId gnssId sigId) = sigId

section Back

variable {settings : GsvSettings} {gsat : Sats} {gsig : Sigs} {gnssId sigId : UInt8} {message : GsvMessage}
  {s : Sentence} {ptr : Nat} {rest : List Char} {lists : GsvLists}

/-- The signals of a sentence are put behind those of the list. -/
theorem nmeaParseGsv_keys (protocol : settings.protocolVersion ≥ nmeaProtocol4p10)
    (msgNum : message.msgNum < 2 ^ 31) (numSigs : message.numSigs < 2 ^ 31)
    (count : satCnt message.msgNum message.numSigs = message.entries.length)
    (some : message.entries ≠ [])
    (back : ∀ entry ∈ message.entries, GivenBack settings gnssId sigId (gsig.sig entry.1))
    (room : lists.sigs.numSigs + message.entries.length ≤ maxNumSatSignals)
    (shown : s.Shows ptr ((message.draft settings gsat gsig gnssId sigId).sentence ++ rest)) : ∃ after,
      nmeaParseGsv settings s ptr lists =
          .some (after, ptr + (message.draft settings gsat gsig gnssId sigId).sentence.length) ∧
        after.sigs.keys = lists.sigs.keys ++ message.entries.map fun entry => (gsig.sig entry.1).key := by
  have read := readGsv_shows protocol msgNum numSigs count shown
  let talker := (gnssIdToTalkerId gnssId).toUInt8
  let sats := message.entries.map (gsvSatOf gsat gsig)
  let start : GsvPass := ⟨lists, satSvGnssIdUnknown, []⟩
  obtain ⟨listed, places⟩ := @satSteps_listed settings talker sats start (by rw [List.length_map]; exact room)
  obtain ⟨sat, member, last⟩ := @satSteps_gnssId settings talker sats (by simpa [sats] using some) start
  obtain ⟨entry, inside, rfl⟩ := List.mem_map.mp member
  have letter : nmea4p11SignalIdToSigId (sats.foldl (gsvSatStep settings talker) start).gnssId
      (sigIdToNmea4p11SignalId gnssId sigId) = sigId := by
    have same : (gsvSignal settings talker (gsvSatOf gsat gsig entry)).gnssId = (gsig.sig entry.1).gnssId :=
      (back entry inside).constellation
    rw [last, same]
    exact (back entry inside).letter
  have placed : (sats.foldl (gsvSatStep settings talker) start).places =
      List.range' lists.sigs.listed.length (sats.map (gsvSignal settings talker)).length := by
    have length : (sats.map (gsvSignal settings talker)).length = sats.length := List.length_map _
    rw [places, listed_length, length]
    rfl
  have set := listed_setSigIds listed sigId
  unfold nmeaParseGsv
  rw [read]
  refine ⟨_, rfl, ?_⟩
  change (Sigs.setSigIds _ (sats.foldl (gsvSatStep settings talker) start).places
    (nmea4p11SignalIdToSigId (sats.foldl (gsvSatStep settings talker) start).gnssId
      (sigIdToNmea4p11SignalId gnssId sigId))).listed.map SigSv.key = _
  rw [letter, placed, set, List.map_append, List.map_map, List.map_map, List.map_map]
  refine congrArg (_ ++ ·) (List.map_congr_left fun entry inside => ?_)
  exact Prod.ext (back entry inside).constellation (Prod.ext (back entry inside).satellite
    (Prod.ext (back entry inside).frequency.symm rfl))

end Back

end InertialSense.Nmea
