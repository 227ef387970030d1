import InertialSense.Nmea.Printing

/-! `nmea_gsv` prints the signals of satellites, one group of sentences for each constellation and
frequency. -/

namespace InertialSense.Nmea

open Foundation

/-! ### Satellites and signals -/

@[match_pattern] abbrev satSvGnssIdUnknown : UInt8 := 0
@[match_pattern] abbrev satSvGnssIdGps : UInt8 := 1
@[match_pattern] abbrev satSvGnssIdSbs : UInt8 := 2
@[match_pattern] abbrev satSvGnssIdGal : UInt8 := 3
@[match_pattern] abbrev satSvGnssIdBei : UInt8 := 4
@[match_pattern] abbrev satSvGnssIdQzs : UInt8 := 5
@[match_pattern] abbrev satSvGnssIdGlo : UInt8 := 6
@[match_pattern] abbrev satSvGnssIdIrn : UInt8 := 7
@[match_pattern] abbrev satSvGnssIdIme : UInt8 := 8

@[match_pattern] abbrev satSvSigIdGpsL1ca : UInt8 := 0
@[match_pattern] abbrev satSvSigIdGpsL2cl : UInt8 := 3
@[match_pattern] abbrev satSvSigIdGpsL2cm : UInt8 := 4
@[match_pattern] abbrev satSvSigIdGpsL5i : UInt8 := 6
@[match_pattern] abbrev satSvSigIdGpsL5q : UInt8 := 7

@[match_pattern] abbrev satSvSigIdSbasL1ca : UInt8 := 0
@[match_pattern] abbrev satSvSigIdSbasL2 : UInt8 := 1
@[match_pattern] abbrev satSvSigIdSbasL5 : UInt8 := 2

@[match_pattern] abbrev satSvSigIdGalileoE1c2 : UInt8 := 0
@[match_pattern] abbrev satSvSigIdGalileoE1b2 : UInt8 := 1
@[match_pattern] abbrev satSvSigIdGalileoE5aI : UInt8 := 3
@[match_pattern] abbrev satSvSigIdGalileoE5aQ : UInt8 := 4
@[match_pattern] abbrev satSvSigIdGalileoE5bI : UInt8 := 5
@[match_pattern] abbrev satSvSigIdGalileoE5bQ : UInt8 := 6

@[match_pattern] abbrev satSvSigIdBeiDouB1d1 : UInt8 := 0
@[match_pattern] abbrev satSvSigIdBeiDouB1d2 : UInt8 := 1
@[match_pattern] abbrev satSvSigIdBeiDouB2d1 : UInt8 := 2
@[match_pattern] abbrev satSvSigIdBeiDouB2d2 : UInt8 := 3
@[match_pattern] abbrev satSvSigIdBeiDouB1c : UInt8 := 5
@[match_pattern] abbrev satSvSigIdBeiDouB2a : UInt8 := 7

@[match_pattern] abbrev satSvSigIdQzssL1ca : UInt8 := 0
@[match_pattern] abbrev satSvSigIdQzssL1s : UInt8 := 1
@[match_pattern] abbrev satSvSigIdQzssL2cm : UInt8 := 4
@[match_pattern] abbrev satSvSigIdQzssL2cl : UInt8 := 5
@[match_pattern] abbrev satSvSigIdQzssL5i : UInt8 := 8
@[match_pattern] abbrev satSvSigIdQzssL5q : UInt8 := 9

@[match_pattern] abbrev satSvSigIdGlonassL1of : UInt8 := 0
@[match_pattern] abbrev satSvSigIdGlonassL2of : UInt8 := 2

@[match_pattern] abbrev satSvSigIdNavicL5a : UInt8 := 0

def maxNumSatellites : Nat := 50

def maxNumSatSignals : Nat := 100

/-- `gps_sat_sv_t`. -/
structure SatSv where
  gnssId : UInt8
  svId : UInt8
  elev : Int8
  azim : Int16
  cno : UInt8
  status : UInt16
deriving DecidableEq

/-- `gps_sig_sv_t`. -/
structure SigSv where
  gnssId : UInt8
  svId : UInt8
  sigId : UInt8
  cno : UInt8
  quality : UInt8
  status : UInt16
deriving DecidableEq

/-- `gps_sat_t`: behind the array is the memory that follows it. -/
structure Sats where
  numSats : Nat
  sat : Nat → SatSv

/-- `gps_sig_t`: behind the array is the memory that follows it. -/
structure Sigs where
  numSigs : Nat
  sig : Nat → SigSv

def nmeaProtocol4p10 : Int := 410

/-- What is set for all sentences: `s_protocol_version` and `s_gsvMask`. -/
structure GsvSettings where
  protocolVersion : Int
  constMask : UInt8 → UInt8

/-! ### Which signals are printed -/

/-- The bits of a mask: `NMEA_GNGSV_FREQ_BAND1_BIT`, `NMEA_GNGSV_FREQ_BAND2_BIT` and
`NMEA_GNGSV_FREQ_5_BIT`. -/
def freqBand1Bit : UInt8 := 1
def freqBand2Bit : UInt8 := 2
def freq5Bit : UInt8 := 8

/-- The bit of the mask that enables a signal. -/
def freqBit (gnssId sigId : UInt8) : Option UInt8 :=
  match gnssId with
  | satSvGnssIdGps =>
    match sigId with
    | satSvSigIdGpsL1ca => some freqBand1Bit
    | satSvSigIdGpsL2cl | satSvSigIdGpsL2cm => some freqBand2Bit
    | satSvSigIdGpsL5i | satSvSigIdGpsL5q => some freq5Bit
    | _ => none
  | satSvGnssIdSbs =>
    match sigId with
    | satSvSigIdSbasL1ca => some freqBand1Bit
    | satSvSigIdSbasL2 => some freqBand2Bit
    | satSvSigIdSbasL5 => some freq5Bit
    | _ => none
  | satSvGnssIdGal =>
    match sigId with
    | satSvSigIdGalileoE1c2 | satSvSigIdGalileoE1b2 => some freqBand1Bit
    | satSvSigIdGalileoE5aI | satSvSigIdGalileoE5aQ | satSvSigIdGalileoE5bI | satSvSigIdGalileoE5bQ =>
      some freq5Bit
    | _ => none
  | satSvGnssIdBei =>
    match sigId with
    | satSvSigIdBeiDouB1d1 | satSvSigIdBeiDouB1d2 | satSvSigIdBeiDouB1c => some freqBand1Bit
    | satSvSigIdBeiDouB2d1 | satSvSigIdBeiDouB2d2 | satSvSigIdBeiDouB2a => some freqBand2Bit
    | _ => none
  | satSvGnssIdQzs =>
    match sigId with
    | satSvSigIdQzssL1ca | satSvSigIdQzssL1s => some freqBand1Bit
    | satSvSigIdQzssL2cm | satSvSigIdQzssL2cl => some freqBand2Bit
    | satSvSigIdQzssL5i | satSvSigIdQzssL5q => some freq5Bit
    | _ => none
  | satSvGnssIdGlo =>
    match sigId with
    | satSvSigIdGlonassL1of => some freqBand1Bit
    | satSvSigIdGlonassL2of => some freqBand2Bit
    | _ => none
  | _ => none

def gsvFreqEna (settings : GsvSettings) (sig : SigSv) : Bool :=
  match freqBit sig.gnssId sig.sigId with
  | some bit => settings.constMask sig.gnssId &&& bit ≠ 0
  | none => false

def gsvSigMatch (gnssId sigId : UInt8) (s : SigSv) (noCno : Bool) : Bool :=
  if (s.cno == 0) ≠ noCno then false
  else
    (match gnssId with
      | satSvGnssIdGps => s.gnssId == gnssId || s.gnssId == satSvGnssIdSbs
      | satSvGnssIdSbs => false
      | _ => s.gnssId == gnssId) && (sigId == 0xFF || s.sigId == sigId)

def nmeaGsvNumSatSigs (settings : GsvSettings) (gnssId sigId : UInt8) (gsig : Sigs) (noCno : Bool) : Nat :=
  (List.range gsig.numSigs).countP fun i =>
    gsvFreqEna settings (gsig.sig i) && gsvSigMatch gnssId sigId (gsig.sig i) noCno

/-! ### How they are printed -/

/-- `prnToSvId`, in a `uint16_t`. -/
def prnToSvId (gnssId prn : UInt8) : UInt16 :=
  match gnssId with
  | satSvGnssIdSbs => prn.toUInt16 - 87
  | _ => prn.toUInt16

def sigIdToNmea2p3SvId (gnssId sigId : UInt8) (svId : UInt16) : UInt16 :=
  match gnssId with
  | satSvGnssIdGps =>
    match sigId with
    | satSvSigIdGpsL1ca => svId
    | satSvSigIdGpsL2cl | satSvSigIdGpsL2cm => svId + 256
    | satSvSigIdGpsL5i | satSvSigIdGpsL5q => svId + 512
    | _ => 0
  | satSvGnssIdSbs => 1
  | satSvGnssIdGal =>
    match sigId with
    | satSvSigIdGalileoE1c2 | satSvSigIdGalileoE1b2 => svId
    | satSvSigIdGalileoE5aI | satSvSigIdGalileoE5aQ => svId + 256
    | satSvSigIdGalileoE5bI | satSvSigIdGalileoE5bQ => svId + 512
    | _ => 0
  | satSvGnssIdBei =>
    match sigId with
    | satSvSigIdBeiDouB1d1 | satSvSigIdBeiDouB1d2 => svId
    | satSvSigIdBeiDouB2d1 | satSvSigIdBeiDouB2d2 => svId + 256
    | satSvSigIdBeiDouB1c => svId
    | satSvSigIdBeiDouB2a => svId + 512
    | _ => 0
  | satSvGnssIdQzs =>
    match sigId with
    | satSvSigIdQzssL1ca | satSvSigIdQzssL1s => svId
    | satSvSigIdQzssL2cm | satSvSigIdQzssL2cl => svId + 256
    | satSvSigIdQzssL5i | satSvSigIdQzssL5q => svId + 512
    | _ => 0
  | satSvGnssIdGlo =>
    match sigId with
    | satSvSigIdGlonassL1of => svId
    | satSvSigIdGlonassL2of => svId + 256
    | _ => 0
  | satSvGnssIdIrn =>
    match sigId with
    | satSvSigIdNavicL5a => svId + 512
    | _ => 0
  | _ => 0

def sigIdToNmea4p11SignalId (gnssId sigId : UInt8) : UInt8 :=
  match gnssId with
  | satSvGnssIdGps =>
    match sigId with
    | satSvSigIdGpsL1ca => 0x31
    | satSvSigIdGpsL2cl => 0x36
    | satSvSigIdGpsL2cm => 0x35
    | satSvSigIdGpsL5i => 0x37
    | satSvSigIdGpsL5q => 0x38
    | _ => 0x30
  -- the number, not the digit
  | satSvGnssIdSbs => 1
  | satSvGnssIdGal =>
    match sigId with
    | satSvSigIdGalileoE1c2 | satSvSigIdGalileoE1b2 => 0x37
    | satSvSigIdGalileoE5aI | satSvSigIdGalileoE5aQ => 0x31
    | satSvSigIdGalileoE5bI | satSvSigIdGalileoE5bQ => 0x32
    | _ => 0x30
  | satSvGnssIdBei =>
    match sigId with
    | satSvSigIdBeiDouB1d1 | satSvSigIdBeiDouB1d2 => 0x31
    | satSvSigIdBeiDouB2d1 | satSvSigIdBeiDouB2d2 => 0x42
    | satSvSigIdBeiDouB1c => 0x33
    | satSvSigIdBeiDouB2a => 0x35
    | _ => 0x30
  | satSvGnssIdQzs =>
    match sigId with
    | satSvSigIdQzssL1ca => 0x31
    | satSvSigIdQzssL1s => 0x34
    | satSvSigIdQzssL2cm => 0x35
    | satSvSigIdQzssL2cl => 0x36
    | satSvSigIdQzssL5i => 0x37
    | satSvSigIdQzssL5q => 0x38
    | _ => 0x30
  | satSvGnssIdGlo =>
    match sigId with
    | satSvSigIdGlonassL1of => 0x31
    | satSvSigIdGlonassL2of => 0x33
    | _ => 0x30
  | satSvGnssIdIrn =>
    match sigId with
    | satSvSigIdNavicL5a => 0x37
    | _ => 0x30
  | _ => 0x30

/-- The last letter of `gnssId_to_talkerId`. -/
def gnssIdToTalkerId (gnssId : UInt8) : Char :=
  match gnssId with
  | satSvGnssIdGps | satSvGnssIdSbs => 'P'
  | satSvGnssIdGal => 'A'
  | satSvGnssIdBei => 'B'
  | satSvGnssIdQzs | satSvGnssIdIme => 'Q'
  | satSvGnssIdGlo => 'L'
  | satSvGnssIdIrn => 'I'
  | _ => 'N'

/-- `nmea_print_u32`, and `nmea_print_i32`, whose number is made a `uint32_t` too. -/
def numberPiece (precision : Nat) (value : UInt32) : Piece :=
  if value ≠ 0 then .text (',' :: padded precision 10 value.toNat) else .comma

/-! ### A group of sentences -/

/-- A sentence of a group: its header, and the places of the signals and of their satellites. -/
structure GsvMessage where
  numMsgs : Nat
  msgNum : Nat
  numSigs : Nat
  entries : List (Nat × Nat)

section Group

variable (settings : GsvSettings) (gsat : Sats) (gsig : Sigs) (gnssId sigId : UInt8) (noCno : Bool)

/-- The satellite of a signal is looked for up to the entry behind the list. -/
def satelliteOf (sig : SigSv) : Option Nat :=
  (List.range (gsat.numSats + 1)).find? fun j =>
    (gsat.sat j).gnssId == sig.gnssId && (gsat.sat j).svId == sig.svId

/-- What is printed for a signal of the list: the places of the signal and of its satellite. -/
def gsvEntry (i : Nat) : Option (Nat × Nat) :=
  if gsvFreqEna settings (gsig.sig i) && gsvSigMatch gnssId sigId (gsig.sig i) noCno then
    (satelliteOf gsat (gsig.sig i)).map fun j => (i, j)
  else none

/-- The payload of a sentence, and where the next one goes on; there are so many signals left. -/
def gsvPayload : Nat → Nat → Nat → List (Nat × Nat) × Nat
  | 0, i, _ => ([], i)
  | left + 1, i, cnt =>
    if 4 ≤ cnt then ([], i)
    else
      match gsvEntry settings gsat gsig gnssId sigId noCno i with
      | some entry =>
        let (entries, i) := gsvPayload left (i + 1) (cnt + 1)
        (entry :: entries, i)
      | none => gsvPayload left (i + 1) cnt

/-- The sentences from a signal on, of which there are no more than the first number; the entry
behind the list is one of the signals. -/
def gsvMessages (numSigs : Nat) : Nat → Nat → Nat → List GsvMessage
  | 0, _, _ => []
  | left + 1, sigNum, i =>
    if sigNum < numSigs then
      let (entries, i) := gsvPayload settings gsat gsig gnssId sigId noCno (gsig.numSigs + 1 - i) i 0
      ⟨(numSigs + 3) / 4, sigNum / 4 + 1, numSigs, entries⟩ :: gsvMessages numSigs left (sigNum + 4) i
    else []

/-- The sentences of `nmea_gsv_group`. -/
def gsvGroup : List GsvMessage :=
  let numSigs := nmeaGsvNumSatSigs settings gnssId sigId gsig false
  gsvMessages settings gsat gsig gnssId sigId noCno numSigs numSigs 0 0

/-- What is printed of a signal and its satellite. -/
def gsvEntryPieces (entry : Nat × Nat) : List Piece :=
  let sig := gsig.sig entry.1
  let sat := gsat.sat entry.2
  let svId := prnToSvId sig.gnssId sig.svId
  let svId := if settings.protocolVersion < nmeaProtocol4p10 then sigIdToNmea2p3SvId gnssId sig.sigId svId
    else svId
  [.text (',' :: padded 2 10 svId.toNat), numberPiece 2 (UInt32.ofInt sat.elev.toInt),
    numberPiece 3 (UInt32.ofInt sat.azim.toInt), numberPiece 2 sig.cno.toUInt32]

/-- A sentence of a group before its footer. -/
def GsvMessage.draft (message : GsvMessage) : Draft where
  head := .talker (gnssIdToTalkerId gnssId) 'G' 'S' 'V'
  pieces := .text (',' :: decimal message.numMsgs ++ ',' :: decimal message.msgNum ++
      ',' :: padded 2 10 message.numSigs) ::
    message.entries.flatMap (gsvEntryPieces settings gsat gsig gnssId) ++
    if settings.protocolVersion ≥ nmeaProtocol4p10 then
      [.text [',', Char.ofUInt8 (sigIdToNmea4p11SignalId gnssId sigId)]]
    else []

/-- `nmea_gsv_group`, which prints behind what is there. -/
def nmeaGsvGroup (aSize : Nat) (p : Printer) : Printer :=
  (gsvGroup settings gsat gsig gnssId sigId noCno).foldl
    (fun p message => p.draft aSize (message.draft settings gsat gsig gnssId sigId)) p

end Group

/-! ### All groups -/

section All

variable (settings : GsvSettings) (gsat : Sats) (gsig : Sigs)

/-- The signals of a constellation, in the order of `nmea_gsv_gnss`. -/
def gsvSigIds (gnssId : UInt8) : List UInt8 :=
  match gnssId with
  | satSvGnssIdGps =>
    [satSvSigIdGpsL1ca, satSvSigIdGpsL2cl, satSvSigIdGpsL2cm, satSvSigIdGpsL5i, satSvSigIdGpsL5q]
  | satSvGnssIdGal =>
    [satSvSigIdGalileoE1c2, satSvSigIdGalileoE1b2, satSvSigIdGalileoE5aI, satSvSigIdGalileoE5aQ,
      satSvSigIdGalileoE5bI, satSvSigIdGalileoE5bQ]
  | satSvGnssIdBei =>
    [satSvSigIdBeiDouB1d1, satSvSigIdBeiDouB1d2, satSvSigIdBeiDouB2d1, satSvSigIdBeiDouB2d2,
      satSvSigIdBeiDouB1c, satSvSigIdBeiDouB2a]
  | satSvGnssIdQzs =>
    [satSvSigIdQzssL1ca, satSvSigIdQzssL1s, satSvSigIdQzssL2cm, satSvSigIdQzssL2cl, satSvSigIdQzssL5i,
      satSvSigIdQzssL5q]
  | satSvGnssIdGlo => [satSvSigIdGlonassL1of, satSvSigIdGlonassL2of]
  | satSvGnssIdIrn => [satSvSigIdNavicL5a]
  | _ => []

def nmeaGsvGnss (aSize : Nat) (gnssId : UInt8) (p : Printer) : Printer :=
  if settings.protocolVersion < nmeaProtocol4p10 then
    nmeaGsvGroup settings gsat gsig gnssId 0xFF false aSize p
  else
    (gsvSigIds gnssId).foldl (fun p sigId => nmeaGsvGroup settings gsat gsig gnssId sigId false aSize p) p

/-- The constellations of `nmea_gsv`, without SBAS. -/
def gsvGnssIds : List UInt8 :=
  [satSvGnssIdGps, satSvGnssIdGal, satSvGnssIdBei, satSvGnssIdQzs, satSvGnssIdGlo, satSvGnssIdIrn]

/-- The constellations that are left, until the buffer is full. -/
def nmeaGsvRest (aSize : Nat) : List UInt8 → Printer → Printer
  | [], p => p
  | gnssId :: rest, p =>
    if settings.constMask gnssId ≠ 0 then
      if p.n < aSize then nmeaGsvRest aSize rest (nmeaGsvGnss settings gsat gsig aSize gnssId p)
      else p
    else nmeaGsvRest aSize rest p

def nmeaGsv (aSize : Nat) (a : Nat → UInt8) : Printer :=
  nmeaGsvRest settings gsat gsig aSize gsvGnssIds ⟨a, 0, 0, []⟩

/-- The groups that are printed: a constellation, and a signal or all of them. -/
def gsvGroups : List (UInt8 × UInt8) :=
  (gsvGnssIds.filter fun gnssId => settings.constMask gnssId ≠ 0).flatMap fun gnssId =>
    (if settings.protocolVersion < nmeaProtocol4p10 then [0xFF] else gsvSigIds gnssId).map fun sigId =>
      (gnssId, sigId)

/-- The sentences of a group. -/
def gsvGroupDrafts (group : UInt8 × UInt8) : List Draft :=
  (gsvGroup settings gsat gsig group.1 group.2 false).map
    (GsvMessage.draft settings gsat gsig group.1 group.2)

/-- All sentences of `nmea_gsv`. -/
def gsvDrafts : List Draft := (gsvGroups settings).flatMap (gsvGroupDrafts settings gsat gsig)

end All

/-! ### The sentences that are printed -/

section Printed

variable (settings : GsvSettings) (gsat : Sats) (gsig : Sigs)

theorem nmeaGsvGroup_eq (aSize : Nat) (gnssId sigId : UInt8) (p : Printer) :
    nmeaGsvGroup settings gsat gsig gnssId sigId false aSize p =
      (gsvGroupDrafts settings gsat gsig (gnssId, sigId)).foldl (Printer.draft aSize) p := by
  unfold gsvGroupDrafts
  rw [List.foldl_map]
  rfl

private theorem nmeaGsvGnss_eq (aSize : Nat) (gnssId : UInt8) (p : Printer) :
    nmeaGsvGnss settings gsat gsig aSize gnssId p =
      (((if settings.protocolVersion < nmeaProtocol4p10 then [0xFF] else gsvSigIds gnssId).map fun sigId =>
        (gnssId, sigId)).flatMap (gsvGroupDrafts settings gsat gsig)).foldl (Printer.draft aSize) p := by
  unfold nmeaGsvGnss
  simp only [nmeaGsvGroup_eq]
  split
  · simp
  · rw [List.flatMap_map, List.foldl_flatMap]

/-- `nmea_gsv` prints all sentences, as far as there is room. -/
theorem nmeaGsv_eq (aSize : Nat) (a : Nat → UInt8) :
    nmeaGsv settings gsat gsig aSize a = printDrafts aSize a (gsvDrafts settings gsat gsig) := by
  have rest (gnssIds : List UInt8) {p : Printer} (first : p.start = p.n) :
      nmeaGsvRest settings gsat gsig aSize gnssIds p =
        (((gnssIds.filter fun gnssId => settings.constMask gnssId ≠ 0).flatMap fun gnssId =>
          (if settings.protocolVersion < nmeaProtocol4p10 then [0xFF] else gsvSigIds gnssId).map fun sigId =>
            (gnssId, sigId)).flatMap (gsvGroupDrafts settings gsat gsig)).foldl (Printer.draft aSize) p := by
    induction gnssIds generalizing p with
    | nil => rfl
    | cons gnssId gnssIds ih =>
      unfold nmeaGsvRest
      by_cases masked : settings.constMask gnssId ≠ 0
      · rw [if_pos masked, List.filter_cons_of_pos (by simpa using masked), List.flatMap_cons,
          List.flatMap_append, List.foldl_append]
        by_cases room : p.n < aSize
        · rw [if_pos room, nmeaGsvGnss_eq]
          exact ih (Printer.drafts_start first _)
        · rw [if_neg room, Printer.drafts_full first (by omega), Printer.drafts_full first (by omega)]
      · rw [if_neg masked, List.filter_cons_of_neg (by simpa using masked)]
        exact ih first
  exact rest gsvGnssIds rfl

end Printed

end InertialSense.Nmea
