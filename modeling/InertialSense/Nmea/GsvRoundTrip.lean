import InertialSense.Nmea.GsvReading

/-! What is parsed of all sentences of `nmea_gsv`, one after another, is the signals that were printed. -/

namespace InertialSense.Nmea

open Foundation

/-! ### All sentences of a buffer -/

/-- Sentences are parsed one after another up to the end of what was printed, no more than so many. -/
def parseGsvBuffer (settings : GsvSettings) (s : Sentence) (stop : Nat) : Nat → Nat → GsvLists → Option GsvLists
  | 0, ptr, lists => if ptr < stop then none else some lists
  | fuel + 1, ptr, lists =>
    if ptr < stop then
      match nmeaParseGsv settings s ptr lists with
      | some (next, ptr) => parseGsvBuffer settings s stop fuel ptr next
      | none => none
    else some lists

/-- What `nmea_gsv` leaves in a buffer. -/
def gsvBuilt (settings : GsvSettings) (gsat : Sats) (gsig : Sigs) (aSize : Nat) (a : Nat → UInt8) : Sentence where
  a := (nmeaGsv settings gsat gsig aSize a).a
  aSize := (nmeaGsv settings gsat gsig aSize a).n
  size := aSize

section Buffer

variable {settings : GsvSettings} {gsat : Sats} {gsig : Sigs}

/-- A sentence of a group with the signals that it gives back. -/
structure Returned (settings : GsvSettings) (gsig : Sigs) (item : (UInt8 × UInt8) × GsvMessage) : Prop where
  msgNum : item.2.msgNum < 2 ^ 31
  numSigs : item.2.numSigs < 2 ^ 31
  count : satCnt item.2.msgNum item.2.numSigs = item.2.entries.length
  some : item.2.entries ≠ []
  back : ∀ entry ∈ item.2.entries, GivenBack settings item.1.1 item.1.2 (gsig.sig entry.1)

variable (settings gsat gsig) in
def itemText (item : (UInt8 × UInt8) × GsvMessage) : List Char :=
  (item.2.draft settings gsat gsig item.1.1 item.1.2).sentence

private theorem itemText_pos (item : (UInt8 × UInt8) × GsvMessage) :
    0 < (itemText settings gsat gsig item).length := by
  unfold itemText Draft.sentence
  rw [List.length_append, Printer.footerText_length]
  omega

private theorem items_length (items : List ((UInt8 × UInt8) × GsvMessage)) :
    items.length ≤ (items.flatMap (itemText settings gsat gsig)).length := by
  induction items with
  | nil => exact Nat.le_refl _
  | cons item rest ih =>
    have positive := @itemText_pos settings gsat gsig item
    rw [List.flatMap_cons, List.length_append, List.length_cons]
    omega

theorem parseGsvBuffer_keys (protocol : settings.protocolVersion ≥ nmeaProtocol4p10)
    {items : List ((UInt8 × UInt8) × GsvMessage)} (returned : ∀ item ∈ items, Returned settings gsig item)
    {s : Sentence} {stop fuel ptr : Nat} {lists : GsvLists} (enough : items.length ≤ fuel)
    (ends : ptr + (items.flatMap (itemText settings gsat gsig)).length = stop)
    (room : lists.sigs.numSigs + (items.flatMap fun item => item.2.entries).length ≤ maxNumSatSignals)
    (shown : s.Shows ptr (items.flatMap (itemText settings gsat gsig))) : ∃ after,
      parseGsvBuffer settings s stop fuel ptr lists = some after ∧
        after.sigs.keys = lists.sigs.keys ++
          (items.flatMap fun item => item.2.entries).map fun entry => (gsig.sig entry.1).key := by
  induction items generalizing ptr fuel lists with
  | nil =>
    have done : ¬ptr < stop := by
      rw [← ends, List.flatMap_nil, List.length_nil]
      omega
    refine ⟨lists, ?_, by simp⟩
    cases fuel with
    | zero => exact if_neg done
    | succ fuel => exact if_neg done
  | cons item rest ih =>
    obtain ⟨fuel, rfl⟩ : ∃ more, fuel = more + 1 := ⟨fuel - 1, by rw [List.length_cons] at enough; omega⟩
    rw [List.length_cons] at enough
    rw [List.flatMap_cons] at shown ends room ⊢
    rw [List.length_append] at ends room
    have positive := @itemText_pos settings gsat gsig item
    have first := returned item (.head _)
    obtain ⟨next, parsed, keys⟩ := nmeaParseGsv_keys protocol first.msgNum first.numSigs first.count first.some
      first.back (show lists.sigs.numSigs + _ ≤ _ by omega) shown
    have numSigs : next.sigs.numSigs = lists.sigs.numSigs + item.2.entries.length := by
      have lengths := congrArg List.length keys
      unfold Sigs.keys at lengths
      simpa using lengths
    obtain ⟨after, others, more⟩ := ih (fun other member => returned other (.tail _ member))
      (show rest.length ≤ fuel by omega) (show ptr + (itemText settings gsat gsig item).length + _ = stop by omega)
      (show next.sigs.numSigs + _ ≤ _ by omega) (shows_drop shown)
    refine ⟨after, ?_, ?_⟩
    · unfold parseGsvBuffer
      rw [if_pos (by omega), parsed]
      exact others
    · rw [more, keys, List.map_append, List.append_assoc]

end Buffer

/-! ### Signals that are given back -/

/-- All constellations and frequencies are enabled, and the signals have letters. -/
structure GsvSettings.AllSet (settings : GsvSettings) : Prop where
  protocol : settings.protocolVersion ≥ nmeaProtocol4p10
  masks : ∀ gnssId < 9, settings.constMask gnssId &&& 0x0F = 0x0F

/-- A signal of a constellation, with an id that the constellation has. -/
inductive SigSv.Known (sig : SigSv) : Prop where
  | gps (gnssId : sig.gnssId = satSvGnssIdGps) (low : 1 ≤ sig.svId) (high : sig.svId ≤ 32)
  | sbas (gnssId : sig.gnssId = satSvGnssIdSbs) (low : 120 ≤ sig.svId) (high : sig.svId ≤ 151)
    (sigId : sig.sigId = satSvSigIdSbasL1ca)
  | galileo (gnssId : sig.gnssId = satSvGnssIdGal)
  | beiDou (gnssId : sig.gnssId = satSvGnssIdBei)
  | qzss (gnssId : sig.gnssId = satSvGnssIdQzs)
  | glonass (gnssId : sig.gnssId = satSvGnssIdGlo)

/-- The letter of a signal stands for the signal. -/
def SigSv.Kept (sig : SigSv) : Prop :=
  nmea4p11SignalIdToSigId sig.gnssId (sigIdToNmea4p11SignalId sig.gnssId sig.sigId) = sig.sigId

/-- The groups of `nmea_gsv` where all is enabled. -/
def gsvAllGroups : List (UInt8 × UInt8) :=
  gsvGnssIds.flatMap fun gnssId => (gsvSigIds gnssId).map fun sigId => (gnssId, sigId)

/-- The frequencies with a letter that stands for no other one. -/
def gsvFrequencies : List (UInt8 × UInt8) :=
  [(1, 0), (1, 3), (1, 4), (1, 6), (1, 7), (2, 0), (3, 0), (3, 3), (3, 6), (4, 0), (4, 2), (4, 5), (4, 7),
    (5, 0), (5, 1), (5, 4), (5, 5), (5, 8), (5, 9), (6, 0), (6, 2)]

section Signals

variable {settings : GsvSettings} {sig : SigSv}

theorem gsvGroups_eq (set : settings.AllSet) : gsvGroups settings = gsvAllGroups := by
  have enabled : gsvGnssIds.filter (fun gnssId => settings.constMask gnssId ≠ 0) = gsvGnssIds := by
    refine List.filter_eq_self.mpr fun gnssId member => decide_eq_true fun zero => ?_
    have small : gsvGnssIds.all (· < 9) = true := by decide
    have mask := set.masks gnssId (of_decide_eq_true (List.all_eq_true.mp small gnssId member))
    rw [zero] at mask
    exact absurd mask (by decide)
  unfold gsvGroups gsvAllGroups
  rw [enabled]
  simp only [if_neg (Int.not_lt.mpr set.protocol)]

/-- What its letter stands for is a frequency of the constellation, or the digit zero. -/
private def keeps (gnssId sigId : UInt8) : Bool :=
  nmea4p11SignalIdToSigId gnssId (sigIdToNmea4p11SignalId gnssId sigId) ≠ sigId ∨ sigId = 0x30 ∨
    (gnssId, sigId) ∈ gsvFrequencies

private theorem known_frequency (known : sig.Known) (kept : sig.Kept) (real : sig.sigId ≠ 0x30) :
    (sig.gnssId, sig.sigId) ∈ gsvFrequencies := by
  have all : [satSvGnssIdGps, satSvGnssIdGal, satSvGnssIdBei, satSvGnssIdQzs, satSvGnssIdGlo].all fun gnssId =>
      (List.range 256).all fun value => keeps gnssId (UInt8.ofNat value) := by decide +kernel
  have each (gnssId : UInt8)
      (member : gnssId ∈ [satSvGnssIdGps, satSvGnssIdGal, satSvGnssIdBei, satSvGnssIdQzs, satSvGnssIdGlo])
      (same : sig.gnssId = gnssId) : (sig.gnssId, sig.sigId) ∈ gsvFrequencies := by
    have here := List.all_eq_true.mp (List.all_eq_true.mp all gnssId member) sig.sigId.toNat
      (List.mem_range.mpr (UInt8.toNat_lt _))
    rw [UInt8.ofNat_toNat] at here
    unfold SigSv.Kept at kept
    rw [same] at kept ⊢
    exact ((of_decide_eq_true here).resolve_left (not_not.mpr kept)).resolve_left real
  cases known with
  | gps gnssId low high => exact each _ (by decide) gnssId
  | sbas gnssId low high sigId =>
    rw [gnssId, sigId]
    decide
  | galileo gnssId => exact each _ (by decide) gnssId
  | beiDou gnssId => exact each _ (by decide) gnssId
  | qzss gnssId => exact each _ (by decide) gnssId
  | glonass gnssId => exact each _ (by decide) gnssId

private theorem gsvSigMatch_eq (cno : sig.cno ≠ 0) (gnssId sigId : UInt8) :
    gsvSigMatch gnssId sigId sig false = gsvSigMatch gnssId sigId ⟨sig.gnssId, 0, sig.sigId, 1, 0, 0⟩ false := by
  have some : ¬((sig.cno == 0) ≠ false) := by simpa using cno
  unfold gsvSigMatch
  rw [if_neg some]
  rfl

private def inGroups (frequency group : UInt8 × UInt8) : Bool :=
  !gsvSigMatch group.1 group.2 ⟨frequency.1, 0, frequency.2, 1, 0, 0⟩ false ||
    decide (frequency.2 = group.2 ∧
      (frequency.1 = group.1 ∨ frequency.1 = satSvGnssIdSbs ∧ group.1 = satSvGnssIdGps) ∧
      nmea4p11SignalIdToSigId frequency.1 (sigIdToNmea4p11SignalId group.1 group.2) = group.2)

private theorem frequency_groups {frequency : UInt8 × UInt8} (member : frequency ∈ gsvFrequencies) :
    (gsvAllGroups.countP fun group =>
        gsvSigMatch group.1 group.2 ⟨frequency.1, 0, frequency.2, 1, 0, 0⟩ false) = 1 ∧
      ∀ group ∈ gsvAllGroups, inGroups frequency group = true := by
  have all : gsvFrequencies.all fun frequency => ((gsvAllGroups.countP fun group =>
      gsvSigMatch group.1 group.2 ⟨frequency.1, 0, frequency.2, 1, 0, 0⟩ false) == 1) &&
        gsvAllGroups.all (inGroups frequency) := by decide +kernel
  obtain ⟨once, groups⟩ := (Bool.and_eq_true _ _).mp (List.all_eq_true.mp all frequency member)
  exact ⟨beq_iff_eq.mp once, List.all_eq_true.mp groups⟩

private theorem frequency_enabled (set : settings.AllSet) (member : (sig.gnssId, sig.sigId) ∈ gsvFrequencies) :
    gsvFreqEna settings sig = true := by
  have all : gsvFrequencies.all fun frequency => decide (frequency.1 < 9) &&
      (freqBit frequency.1 frequency.2).any fun bit => decide (bit &&& 0x0F = bit ∧ bit ≠ 0) := by decide +kernel
  obtain ⟨small, enabled⟩ := (Bool.and_eq_true _ _).mp (List.all_eq_true.mp all _ member)
  obtain ⟨bit, found, masked⟩ := (Option.any_eq_true _ _).mp enabled
  obtain ⟨low, some⟩ := of_decide_eq_true masked
  unfold gsvFreqEna
  dsimp only at found small
  rw [found]
  refine decide_eq_true fun none => some ?_
  have mask := set.masks sig.gnssId (of_decide_eq_true small)
  calc bit = 0x0F &&& bit := by rw [UInt8.and_comm, low]
    _ = settings.constMask sig.gnssId &&& 0x0F &&& bit := by rw [mask]
    _ = settings.constMask sig.gnssId &&& bit &&& 0x0F := by
      rw [UInt8.and_assoc, UInt8.and_comm 0x0F, ← UInt8.and_assoc]
    _ = 0 := by rw [none, UInt8.zero_and]

private theorem talker_letters (protocol : settings.protocolVersion ≥ nmeaProtocol4p10) (talker : UInt8)
    (svId : UInt16) : talkerIdToGnssId settings talker svId =
      talkerIdToGnssId ⟨nmeaProtocol4p10, settings.constMask⟩ talker svId := by
  unfold talkerIdToGnssId
  dsimp only
  rw [if_neg (Int.not_lt.mpr protocol), if_neg (Int.lt_irrefl _)]

/-- A satellite is given back by the talker of a constellation. -/
private def located (gnssId group svId : UInt8) : Bool :=
  let (gnss, sv, _) := talkerIdToGnssId ⟨nmeaProtocol4p10, fun _ => 0⟩ (gnssIdToTalkerId group).toUInt8
    (prnToSvId gnssId svId)
  gnss = gnssId ∧ sv.toUInt8 = svId

private theorem located_byte {gnssId group : UInt8} {low high : Nat}
    (all : ∀ value < 256, low ≤ value → value ≤ high → located gnssId group (UInt8.ofNat value) = true)
    {svId : UInt8} (above : low ≤ svId.toNat) (below : svId.toNat ≤ high) : located gnssId group svId = true := by
  have here := all svId.toNat (UInt8.toNat_lt _) above below
  rwa [UInt8.ofNat_toNat] at here

private theorem known_located (known : sig.Known) {group : UInt8}
    (member : sig.gnssId = group ∨ sig.gnssId = satSvGnssIdSbs ∧ group = satSvGnssIdGps) :
    located sig.gnssId group sig.svId = true := by
  have whole : [satSvGnssIdGal, satSvGnssIdBei, satSvGnssIdQzs, satSvGnssIdGlo].all fun gnssId =>
      gnssId != satSvGnssIdSbs && (List.range 256).all fun value => located gnssId gnssId (UInt8.ofNat value) := by
    decide +kernel
  have each (gnssId : UInt8) (one : gnssId ∈ [satSvGnssIdGal, satSvGnssIdBei, satSvGnssIdQzs, satSvGnssIdGlo])
      (same : sig.gnssId = gnssId) : located sig.gnssId group sig.svId = true := by
    obtain ⟨other, all⟩ := (Bool.and_eq_true _ _).mp (List.all_eq_true.mp whole gnssId one)
    rw [same] at member ⊢
    obtain rfl | ⟨sbas, -⟩ := member
    · exact located_byte (fun value small _ _ => List.all_eq_true.mp all value (List.mem_range.mpr small))
        (Nat.zero_le _) (Nat.le_refl _)
    · exact absurd sbas (bne_iff_ne.mp other)
  cases known with
  | gps gnssId low high =>
    rw [gnssId] at member ⊢
    obtain rfl | ⟨other, -⟩ := member
    · exact @located_byte _ _ 1 32 (by decide +kernel) _ low high
    · exact absurd other (by decide)
  | sbas gnssId low high sigId =>
    rw [gnssId] at member ⊢
    obtain rfl | ⟨-, rfl⟩ := member
    · exact @located_byte _ _ 120 151 (by decide +kernel) _ low high
    · exact @located_byte _ _ 120 151 (by decide +kernel) _ low high
  | galileo gnssId => exact each _ (by decide) gnssId
  | beiDou gnssId => exact each _ (by decide) gnssId
  | qzss gnssId => exact each _ (by decide) gnssId
  | glonass gnssId => exact each _ (by decide) gnssId

private theorem known_givenBack (protocol : settings.protocolVersion ≥ nmeaProtocol4p10) (known : sig.Known)
    (kept : sig.Kept) (real : sig.sigId ≠ 0x30) (cno : sig.cno ≠ 0) {group : UInt8 × UInt8}
    (groups : group ∈ gsvAllGroups) (inside : gsvSigMatch group.1 group.2 sig false = true) :
    GivenBack settings group.1 group.2 sig := by
  rw [gsvSigMatch_eq cno] at inside
  have stands := (frequency_groups (known_frequency known kept real)).2 group groups
  unfold inGroups at stands
  rw [inside, Bool.not_true, Bool.false_or] at stands
  obtain ⟨sigId, gnssId, letter⟩ := of_decide_eq_true stands
  obtain ⟨constellation, satellite⟩ := of_decide_eq_true (known_located known gnssId)
  have moved := talker_letters protocol (gnssIdToTalkerId group.1).toUInt8 (prnToSvId sig.gnssId sig.svId)
  refine ⟨sigId, ?_, ?_, letter⟩
  · rw [moved]
    exact constellation
  · rw [moved]
    exact satellite

end Signals

/-! ### The round trip -/

/-- Lists whose unused entries are zero, with different satellites above the horizon, and with signals
that are received from one of them. -/
structure GsvProper (gsat : Sats) (gsig : Sigs) : Prop where
  numSats : gsat.numSats ≤ maxNumSatellites
  numSigs : gsig.numSigs ≤ maxNumSatSignals
  unusedSats : ∀ j, gsat.numSats ≤ j → j < maxNumSatellites → gsat.sat j = ⟨0, 0, 0, 0, 0, 0⟩
  unusedSigs : ∀ i, gsig.numSigs ≤ i → i < maxNumSatSignals → gsig.sig i = ⟨0, 0, 0, 0, 0, 0⟩
  distinct : ∀ j < gsat.numSats, ∀ i < j,
    ¬((gsat.sat i).gnssId = (gsat.sat j).gnssId ∧ (gsat.sat i).svId = (gsat.sat j).svId)
  elev : ∀ j < gsat.numSats, 0 ≤ (gsat.sat j).elev
  cno : ∀ i < gsig.numSigs, (gsig.sig i).cno ≠ 0
  satellite : ∀ i < gsig.numSigs, gsat.Has gsat.numSats (gsig.sig i)
  known : ∀ i < gsig.numSigs, (gsig.sig i).Known
  kept : ∀ i < gsig.numSigs, (gsig.sig i).Kept

section RoundTrip

variable {settings : GsvSettings} {gsat : Sats} {gsig : Sigs}

private theorem behind_none (proper : GsvProper gsat gsig) {group : UInt8 × UInt8}
    (room : gsig.numSigs < maxNumSatSignals ∨ 4 ∣ nmeaGsvNumSatSigs settings group.1 group.2 gsig false) :
    4 ∣ nmeaGsvNumSatSigs settings group.1 group.2 gsig false ∨
      gsvEntry settings gsat gsig group.1 group.2 false gsig.numSigs = none := by
  obtain inside | divided := room
  · refine .inr (gsvEntry_none.mpr ?_)
    rintro ⟨⟨enabled, -⟩, -⟩
    rw [proper.unusedSigs _ (Nat.le_refl _) inside] at enabled
    exact absurd enabled Bool.false_ne_true
  · exact .inl divided

private theorem entries_whole (proper : GsvProper gsat gsig) (group : UInt8 × UInt8) :
    (gsvEntries settings gsat gsig group.1 group.2 false 0 gsig.numSigs).length =
      nmeaGsvNumSatSigs settings group.1 group.2 gsig false :=
  (gsvEntries_length_iff settings gsat gsig group.1 group.2).2.mpr fun i before _ =>
    (proper.satellite i before).imp fun _ ⟨inside, same⟩ => ⟨by omega, same⟩

variable (settings gsat gsig) in
/-- The sentences that are printed, each with its group. -/
def gsvItems : List ((UInt8 × UInt8) × GsvMessage) :=
  (gsvGroups settings).flatMap fun group =>
    (gsvGroup settings gsat gsig group.1 group.2 false).map fun message => (group, message)

private theorem items_text : (gsvDrafts settings gsat gsig).flatMap Draft.sentence =
    (gsvItems settings gsat gsig).flatMap (itemText settings gsat gsig) := by
  unfold gsvDrafts gsvItems gsvGroupDrafts
  rw [List.flatMap_assoc, List.flatMap_assoc]
  simp only [List.flatMap_map]
  rfl

/-- Each sentence gives its signals back. -/
private theorem items_returned (set : settings.AllSet) (proper : GsvProper gsat gsig)
    (real : ∀ i < gsig.numSigs, (gsig.sig i).sigId ≠ 0x30)
    (room : gsig.numSigs < maxNumSatSignals ∨
      ∀ group ∈ gsvGroups settings, 4 ∣ nmeaGsvNumSatSigs settings group.1 group.2 gsig false) :
    ∀ item ∈ gsvItems settings gsat gsig, Returned settings gsig item := by
  intro item member
  obtain ⟨group, groups, inside⟩ := List.mem_flatMap.mp member
  obtain ⟨message, messages, rfl⟩ := List.mem_map.mp inside
  have whole := @entries_whole settings gsat gsig proper group
  have few : nmeaGsvNumSatSigs settings group.1 group.2 gsig false ≤ gsig.numSigs := by
    have counted := @List.countP_le_length _ (fun i => gsvFreqEna settings (gsig.sig i) &&
      gsvSigMatch group.1 group.2 (gsig.sig i) false) (List.range gsig.numSigs)
    rwa [List.length_range] at counted
  have hundred : gsig.numSigs ≤ 100 := proper.numSigs
  rw [gsvGroup_parts whole (behind_none proper (room.imp_right fun all => all group groups))] at messages
  obtain ⟨k, before, rfl⟩ := List.mem_map.mp messages
  have before := List.mem_range.mp before
  have length : (((gsvEntries settings gsat gsig group.1 group.2 false 0 gsig.numSigs).drop (4 * k)).take 4).length =
      min 4 (nmeaGsvNumSatSigs settings group.1 group.2 gsig false - 4 * k) := by
    rw [List.length_take, List.length_drop, whole]
  generalize nmeaGsvNumSatSigs settings group.1 group.2 gsig false = numSigs at *
  refine ⟨show k + 1 < 2 ^ 31 by omega, show numSigs < 2 ^ 31 by omega, ?_, ?_, fun entry sent => ?_⟩
  · dsimp only
    rw [length]
    unfold satCnt
    rw [Int.bmod_def]
    split <;> omega
  · refine List.ne_nil_of_length_pos ?_
    dsimp only
    rw [length]
    omega
  · obtain ⟨first, ⟨-, matched⟩, -⟩ := gsvEntries_mem (List.mem_of_mem_drop (List.mem_of_mem_take sent))
    rw [Nat.zero_add] at first
    exact known_givenBack set.protocol (proper.known _ first) (proper.kept _ first) (real _ first)
      (proper.cno _ first) (gsvGroups_eq set ▸ groups) matched

private theorem entries_fst (proper : GsvProper gsat gsig) (group : UInt8 × UInt8) :
    (gsvEntries settings gsat gsig group.1 group.2 false 0 gsig.numSigs).map Prod.fst =
      (List.range gsig.numSigs).filter fun i =>
        gsvFreqEna settings (gsig.sig i) && gsvSigMatch group.1 group.2 (gsig.sig i) false := by
  rw [gsvEntries_eq, List.map_filterMap]
  refine (List.filterMap_congr fun i member => ?_).trans List.filterMap_some
  have before := List.mem_range.mp (List.mem_filter.mp member).1
  obtain ⟨j, found⟩ := Option.isSome_iff_exists.mp (satelliteOf_isSome_iff.mpr
    ((proper.satellite i before).imp fun _ ⟨inside, same⟩ => ⟨Nat.lt_succ_of_lt inside, same⟩))
  rw [found]
  rfl

private theorem groups_perm (set : settings.AllSet) (proper : GsvProper gsat gsig)
    (real : ∀ i < gsig.numSigs, (gsig.sig i).sigId ≠ 0x30) :
    ((gsvGroups settings).flatMap fun group => (List.range gsig.numSigs).filter fun i =>
      gsvFreqEna settings (gsig.sig i) && gsvSigMatch group.1 group.2 (gsig.sig i) false).Perm
        (List.range gsig.numSigs) := by
  refine flatMap_filter_perm fun i member => ?_
  have before := List.mem_range.mp member
  have frequency := known_frequency (proper.known i before) (proper.kept i before) (real i before)
  rw [gsvGroups_eq set]
  simp only [frequency_enabled set frequency, Bool.true_and, gsvSigMatch_eq (proper.cno i before)]
  exact (frequency_groups frequency).1

private theorem items_perm (set : settings.AllSet) (proper : GsvProper gsat gsig)
    (real : ∀ i < gsig.numSigs, (gsig.sig i).sigId ≠ 0x30)
    (room : gsig.numSigs < maxNumSatSignals ∨
      ∀ group ∈ gsvGroups settings, 4 ∣ nmeaGsvNumSatSigs settings group.1 group.2 gsig false) :
    (((gsvItems settings gsat gsig).flatMap fun item => item.2.entries).map Prod.fst).Perm
      (List.range gsig.numSigs) := by
  have sent : ((gsvItems settings gsat gsig).flatMap fun item => item.2.entries).map Prod.fst =
      (gsvGroups settings).flatMap fun group => (List.range gsig.numSigs).filter fun i =>
        gsvFreqEna settings (gsig.sig i) && gsvSigMatch group.1 group.2 (gsig.sig i) false := by
    unfold gsvItems
    rw [List.flatMap_assoc, List.map_flatMap]
    refine List.flatMap_congr fun group member => ?_
    rw [List.flatMap_map, ← entries_fst proper, ← gsvGroup_all (entries_whole proper group)
      (behind_none proper (room.imp_right fun all => all group member))]
  rw [sent]
  exact groups_perm set proper real

/-- The signals are read back, apart from the digit that no frequency has, and from what is read
behind a full list. -/
theorem gsv_restored (set : settings.AllSet) (proper : GsvProper gsat gsig)
    (real : ∀ i < gsig.numSigs, (gsig.sig i).sigId ≠ 0x30)
    (room : gsig.numSigs < maxNumSatSignals ∨
      ∀ group ∈ gsvGroups settings, 4 ∣ nmeaGsvNumSatSigs settings group.1 group.2 gsig false)
    (a : Nat → UInt8) {aSize : Nat}
    (large : ((gsvDrafts settings gsat gsig).flatMap Draft.sentence).length < aSize)
    {lists : GsvLists} (noSigs : lists.sigs.numSigs = 0) :
    let built := gsvBuilt settings gsat gsig aSize a
    ∃ after, parseGsvBuffer settings built built.aSize built.aSize 0 lists = some after ∧
      after.sigs.keys.Perm gsig.keys := by
  obtain ⟨length, shown⟩ := printDrafts_printed a large
  rw [← nmeaGsv_eq] at length shown
  dsimp only at length shown
  have perm := items_perm set proper real room
  have total : ((gsvItems settings gsat gsig).flatMap fun item => item.2.entries).length = gsig.numSigs := by
    have lengths := perm.length_eq
    rwa [List.length_map, List.length_range] at lengths
  have all : (gsvBuilt settings gsat gsig aSize a).Shows 0 ((gsvDrafts settings gsat gsig).flatMap Draft.sentence) := by
    refine shows_of_window ?_ ?_
    · rw [← length]
      exact shown
    · rw [Nat.zero_add]
      exact Nat.le_of_lt large
  rw [items_text] at all length
  have inside := proper.numSigs
  have enough : (gsvItems settings gsat gsig).length ≤ (nmeaGsv settings gsat gsig aSize a).n :=
    length ▸ items_length _
  obtain ⟨after, parsed, keys⟩ := @parseGsvBuffer_keys settings gsat gsig set.protocol _
    (items_returned set proper real room) _ (nmeaGsv settings gsat gsig aSize a).n _ _ lists enough
    (by rw [Nat.zero_add, length]) (by rw [noSigs, total, Nat.zero_add]; exact inside) all
  refine ⟨after, parsed, ?_⟩
  have empty : lists.sigs.keys = [] := by
    unfold Sigs.keys Sigs.listed
    rw [noSigs]
    rfl
  rw [keys, empty, List.nil_append]
  have mapped := perm.map fun i => (gsig.sig i).key
  rw [List.map_map] at mapped
  unfold Sigs.keys Sigs.listed
  rw [List.map_map]
  exact mapped

/-- So many satellites of the constellation GPS, each with a signal. -/
private def gpsSats (count : Nat) : Sats where
  numSats := count
  sat j := if j < count then ⟨satSvGnssIdGps, UInt8.ofNat (j + 1), 45, 180, 40, 0⟩ else ⟨0, 0, 0, 0, 0, 0⟩

private def gpsSigs (count : Nat) (sigId : UInt8) : Sigs where
  numSigs := count
  sig i := if i < count then ⟨satSvGnssIdGps, UInt8.ofNat (i + 1), sigId, 40, 0, 0⟩ else ⟨0, 0, 0, 0, 0, 0⟩

private theorem gpsLists_proper {count : Nat} (few : count ≤ 32) {sigId : UInt8}
    (kept : nmea4p11SignalIdToSigId satSvGnssIdGps (sigIdToNmea4p11SignalId satSvGnssIdGps sigId) = sigId) :
    GsvProper (gpsSats count) (gpsSigs count sigId) := by
  have sat {j : Nat} (before : j < count) :
      (gpsSats count).sat j = ⟨satSvGnssIdGps, UInt8.ofNat (j + 1), 45, 180, 40, 0⟩ := if_pos before
  have sig {i : Nat} (before : i < count) :
      (gpsSigs count sigId).sig i = ⟨satSvGnssIdGps, UInt8.ofNat (i + 1), sigId, 40, 0, 0⟩ := if_pos before
  have byte {k : Nat} (before : k < count) : (UInt8.ofNat (k + 1)).toNat = k + 1 := by
    rw [UInt8.toNat_ofNat']
    omega
  refine ⟨show count ≤ 50 by omega, show count ≤ 100 by omega, fun j behind _ => ?_, fun i behind _ => ?_,
    fun j before i first same => ?_, fun j before => ?_, fun i before => ?_, fun i before => ?_,
    fun i before => ?_, fun i before => ?_⟩
  · exact if_neg (Nat.not_lt.mpr behind)
  · exact if_neg (Nat.not_lt.mpr behind)
  · rw [sat before, sat (first.trans before)] at same
    have ids := congrArg UInt8.toNat same.2
    dsimp only at ids
    rw [byte before, byte (first.trans before)] at ids
    omega
  · rw [sat before]
    exact show (0 : Int8) ≤ 45 by decide
  · rw [sig before]
    exact show (40 : UInt8) ≠ 0 by decide
  · refine ⟨i, before, ?_⟩
    rw [sig before, sat before]
    exact ⟨rfl, rfl⟩
  · rw [sig before]
    refine .gps rfl ?_ ?_
    · change 1 ≤ (UInt8.ofNat (i + 1)).toNat
      rw [byte before]
      omega
    · change (UInt8.ofNat (i + 1)).toNat ≤ 32
      rw [byte before]
      have inside : i < count := before
      omega
  · rw [sig before]
    exact kept

private theorem allSet : (⟨nmeaProtocol4p10, fun _ => 0xFF⟩ : GsvSettings).AllSet :=
  ⟨Int.le_refl _, fun _ _ => show (0xFF : UInt8) &&& 0x0F = 0x0F by decide⟩

/-- Five signals are read back from a group of two sentences. -/
theorem gsv_restored_five :
    let built := gsvBuilt ⟨nmeaProtocol4p10, fun _ => 0xFF⟩ (gpsSats 5) (gpsSigs 5 satSvSigIdGpsL5q) 1024 fun _ => 0
    ∃ after, parseGsvBuffer ⟨nmeaProtocol4p10, fun _ => 0xFF⟩ built built.aSize built.aSize 0 .empty =
        some after ∧
      after.sigs.keys.Perm (gpsSigs 5 satSvSigIdGpsL5q).keys :=
  gsv_restored allSet (gpsLists_proper (by decide) (by decide))
    (by decide +kernel) (.inl (by decide)) _ (by decide +kernel) rfl

/-- The signal 48 is the digit zero, which stands for itself; it is not enabled, and is not printed. -/
theorem gsv_digit_lost : ¬ ∀ (settings : GsvSettings) (gsat : Sats) (gsig : Sigs) (a : Nat → UInt8) (aSize : Nat)
    (lists : GsvLists), settings.AllSet → GsvProper gsat gsig →
      ((gsvDrafts settings gsat gsig).flatMap Draft.sentence).length < aSize →
      lists.sats.numSats = 0 → lists.sigs.numSigs = 0 →
        let built := gsvBuilt settings gsat gsig aSize a
        ∃ after, parseGsvBuffer settings built built.aSize built.aSize 0 lists = some after ∧
          after.sigs.keys.Perm gsig.keys := by
  intro restored
  let settings : GsvSettings := ⟨nmeaProtocol4p10, fun _ => 0xFF⟩
  have nothing : (gsvDrafts settings (gpsSats 1) (gpsSigs 1 0x30)).length = 0 := by decide +kernel
  have none := List.length_eq_zero_iff.mp nothing
  obtain ⟨after, parsed, perm⟩ := restored settings (gpsSats 1) (gpsSigs 1 0x30) (fun _ => 0) 1 .empty
    allSet (gpsLists_proper (by decide) (by decide))
    (by rw [none]; decide) rfl rfl
  have stop : (gsvBuilt settings (gpsSats 1) (gpsSigs 1 0x30) 1 fun _ => 0).aSize = 0 := by
    unfold gsvBuilt
    rw [nmeaGsv_eq, none]
    rfl
  rw [stop] at parsed
  obtain rfl := Option.some.inj parsed
  exact absurd perm.length_eq (by decide)

end RoundTrip

end InertialSense.Nmea
