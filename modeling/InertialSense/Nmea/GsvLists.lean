import InertialSense.Foundation.Run
import InertialSense.Nmea.Fields
import InertialSense.Nmea.Gsv

/-! `nmea_parse_gsv` reads satellites and their signals into two lists that hold so many of them. -/

namespace InertialSense.Nmea

open Foundation

/-! ### What a sentence says -/

def nmea2p3SvidToSigId (gnssId : UInt8) (svId : UInt16) : UInt8 :=
  if svId < 256 then 0
  else if svId ≥ 512 then
    match gnssId with
    | satSvGnssIdGps => satSvSigIdGpsL5q
    | satSvGnssIdSbs => 0
    | satSvGnssIdGal => satSvSigIdGalileoE5bQ
    | satSvGnssIdBei => satSvSigIdBeiDouB2a
    | satSvGnssIdQzs => satSvSigIdQzssL5q
    | satSvGnssIdGlo => satSvSigIdGlonassL2of
    | satSvGnssIdIrn => satSvSigIdNavicL5a
    | _ => 0
  else
    match gnssId with
    | satSvGnssIdGps => satSvSigIdGpsL2cl
    | satSvGnssIdSbs => 0
    | satSvGnssIdGal => satSvSigIdGalileoE5aQ
    | satSvGnssIdBei => satSvSigIdBeiDouB2d1
    | satSvGnssIdQzs => satSvSigIdQzssL2cl
    | satSvGnssIdGlo => satSvSigIdGlonassL2of
    | satSvGnssIdIrn => satSvSigIdNavicL5a
    | _ => 0

def nmea4p11SignalIdToSigId (gnssId nmeaSignalId : UInt8) : UInt8 :=
  match gnssId with
  | satSvGnssIdGps =>
    match nmeaSignalId with
    | 0x31 => satSvSigIdGpsL1ca
    | 0x36 => satSvSigIdGpsL2cl
    | 0x35 => satSvSigIdGpsL2cm
    | 0x37 => satSvSigIdGpsL5i
    | 0x38 => satSvSigIdGpsL5q
    | _ => 0x30
  | satSvGnssIdSbs => 0
  | satSvGnssIdGal =>
    match nmeaSignalId with
    | 0x37 => satSvSigIdGalileoE1c2
    | 0x31 => satSvSigIdGalileoE5aI
    | 0x32 => satSvSigIdGalileoE5bQ
    | _ => 0x30
  | satSvGnssIdBei =>
    match nmeaSignalId with
    | 0x31 => satSvSigIdBeiDouB1d1
    | 0x42 => satSvSigIdBeiDouB2d1
    | 0x33 => satSvSigIdBeiDouB1c
    | 0x35 => satSvSigIdBeiDouB2a
    | _ => 0x30
  | satSvGnssIdQzs =>
    match nmeaSignalId with
    | 0x31 => satSvSigIdQzssL1ca
    | 0x34 => satSvSigIdQzssL1s
    | 0x35 => satSvSigIdQzssL2cm
    | 0x36 => satSvSigIdQzssL2cl
    | 0x37 => satSvSigIdQzssL5i
    | 0x38 => satSvSigIdQzssL5q
    | _ => 0x30
  | satSvGnssIdGlo =>
    match nmeaSignalId with
    | 0x31 => satSvSigIdGlonassL1of
    | 0x33 => satSvSigIdGlonassL2of
    | _ => 0x30
  | satSvGnssIdIrn =>
    match nmeaSignalId with
    | 0x37 => satSvSigIdNavicL5a
    | _ => 0x30
  -- the digit, not the number
  | _ => 0x30

/-- The constellation, the satellite and the signal of `talkerId_to_gnssId`. -/
def talkerIdToGnssId (settings : GsvSettings) (talker : UInt8) (svIdLast : UInt16) : UInt8 × UInt16 × UInt8 :=
  let svId :=
    if settings.protocolVersion < nmeaProtocol4p10 then
      if svIdLast ≥ 512 then svIdLast - 512 else if svIdLast ≥ 256 then svIdLast - 256 else svIdLast
    else svIdLast
  let (gnssId, svId) :=
    match talker with
    | 0x50 =>
      if svId ≥ 193 then (satSvGnssIdQzs, svId - 192)
      else if svId > 32 then (satSvGnssIdSbs, if svId ≤ 64 then svId + 87 else svId)
      else (satSvGnssIdGps, svId)
    | 0x41 => (satSvGnssIdGal, svId)
    | 0x42 => (satSvGnssIdBei, svId)
    | 0x4C => (satSvGnssIdGlo, svId)
    | 0x49 => (satSvGnssIdIrn, svId)
    | 0x51 => (satSvGnssIdQzs, svId)
    | _ => (satSvGnssIdUnknown, svId)
  (gnssId, svId, nmea2p3SvidToSigId gnssId svIdLast)

/-- The fields of a satellite. -/
structure GsvSat where
  svId : UInt16
  elev : UInt8
  azim : UInt16
  cno : UInt8
deriving DecidableEq

/-- What is read of a sentence: the letter of its talker, its satellites, the letter of its signal,
and where the next sentence is. -/
structure GsvSentence where
  talker : UInt8
  sats : List GsvSat
  signal : Option UInt8
  next : Nat

/-- The fields of so many satellites. -/
def Sentence.readGsvSats (s : Sentence) : Nat → Nat → Option (List GsvSat × Nat)
  | 0, ptr => some ([], ptr)
  | count + 1, ptr =>
    match s.readFields 4 ptr with
    | some ([(svId, _), (elev, _), (azim, _), (cno, _)], next) =>
      (s.readGsvSats count next).map fun (sats, last) =>
        (⟨UInt16.ofInt (atoi svId), UInt8.ofInt (atoi elev), UInt16.ofInt (atoi azim),
          UInt8.ofInt (atoi cno)⟩ :: sats, last)
    | _ => none

/-- How many satellites `nmea_parse_gsv` reads. -/
def satCnt (msgNum numSigs : Int) : Nat := (min (Int.bmod (numSigs - (msgNum - 1) * 4) (2 ^ 32)) 4).toNat

/-- What `nmea_parse_gsv` reads of the sentence from a place on, or nothing if it reads behind the
memory. -/
def Sentence.readGsv (settings : GsvSettings) (s : Sentence) (start : Nat) : Option GsvSentence :=
  match s.readFields 3 (start + 7) with
  | some ([_, (msgNum, _), (numSigs, _)], ptr) =>
    match s.readGsvSats (satCnt (atoi msgNum) (atoi numSigs)) ptr with
    | some (sats, ptr) =>
      if settings.protocolVersion ≥ nmeaProtocol4p10 then
        -- the letter of the signal is where its field is
        (s.findNextField ptr).map fun (_, next) => ⟨s.a (start + 2), sats, some (s.a ptr), next + 5⟩
      else some ⟨s.a (start + 2), sats, none, ptr + 5⟩
    | none => none
  | _ => none

/-! ### The lists -/

/-- What `nmea_parse_gsv` fills. -/
structure GsvLists where
  sats : Sats
  sigs : Sigs
  cnoSum : UInt32
  cnoCount : UInt32

def GsvLists.empty : GsvLists := ⟨⟨0, fun _ => ⟨0, 0, 0, 0, 0, 0⟩⟩, ⟨0, fun _ => ⟨0, 0, 0, 0, 0, 0⟩⟩, 0, 0⟩

/-- A satellite is one of the list. -/
def Sats.lists (gsat : Sats) (gnssId : UInt8) (svId : UInt16) : Bool :=
  (List.range gsat.numSats).any fun j => gnssId == (gsat.sat j).gnssId && svId == (gsat.sat j).svId.toUInt16

/-- The satellite is added where the list has room. -/
def Sats.add (gsat : Sats) (gnssId : UInt8) (svId : UInt16) (sat : GsvSat) : Sats :=
  if gsat.lists gnssId svId then gsat
  else if gsat.numSats < maxNumSatellites then
    { numSats := gsat.numSats + 1
      sat := Function.update gsat.sat gsat.numSats
        ⟨gnssId, svId.toUInt8, sat.elev.toInt8, sat.azim.toInt16, sat.cno, 0x001F⟩ }
  else gsat

/-- What a sentence has done so far, with the constellation of its last satellite and the places of
the signals it has added. -/
structure GsvPass where
  lists : GsvLists
  gnssId : UInt8
  places : List Nat

/-- A satellite of a sentence, and its signal. -/
def gsvSatStep (settings : GsvSettings) (talker : UInt8) (pass : GsvPass) (sat : GsvSat) : GsvPass :=
  let (gnssId, svId, sigId) := talkerIdToGnssId settings talker sat.svId
  let sigs := pass.lists.sigs
  let room := sigs.numSigs < maxNumSatSignals
  { lists :=
      { sats := pass.lists.sats.add gnssId svId sat
        sigs :=
          if room then
            { numSigs := sigs.numSigs + 1
              sig := Function.update sigs.sig sigs.numSigs ⟨gnssId, svId.toUInt8, sigId, sat.cno, 7, 0x0005⟩ }
          else sigs
        cnoSum := if sat.cno ≠ 0 then pass.lists.cnoSum + sat.cno.toUInt32 else pass.lists.cnoSum
        cnoCount := if sat.cno ≠ 0 then pass.lists.cnoCount + 1 else pass.lists.cnoCount }
    gnssId
    places := if room then pass.places ++ [sigs.numSigs] else pass.places }

/-- The signals that a sentence has added get the signal that comes last. -/
def Sigs.setSigIds (gsig : Sigs) (places : List Nat) (sigId : UInt8) : Sigs :=
  { gsig with sig := fun i => if i ∈ places then { gsig.sig i with sigId } else gsig.sig i }

def GsvSentence.apply (settings : GsvSettings) (read : GsvSentence) (lists : GsvLists) : GsvLists :=
  let pass := read.sats.foldl (gsvSatStep settings read.talker) ⟨lists, satSvGnssIdUnknown, []⟩
  match read.signal with
  | some signal =>
    { pass.lists with
      sigs := pass.lists.sigs.setSigIds pass.places (nmea4p11SignalIdToSigId pass.gnssId signal) }
  | none => pass.lists

/-- `nmea_parse_gsv`: the lists, and where the next sentence is. -/
def nmeaParseGsv (settings : GsvSettings) (s : Sentence) (start : Nat) (lists : GsvLists) :
    Option (GsvLists × Nat) :=
  (s.readGsv settings start).map fun read => (read.apply settings lists, read.next)

end InertialSense.Nmea
