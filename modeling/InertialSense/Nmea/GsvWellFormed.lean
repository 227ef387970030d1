import InertialSense.Nmea.GsvLists

/-! The lists of `nmea_parse_gsv` stay well formed as long as no satellite is added whose id is cut to
one that its constellation has already. -/

namespace InertialSense.Nmea

open Foundation

/-! ### The run -/

/-- The lists after each sentence, the first ones included. -/
def parseGsvs (settings : GsvSettings) : GsvLists → List (Sentence × Nat) → Option (List GsvLists)
  | lists, [] => some [lists]
  | lists, (s, start) :: rest =>
    match nmeaParseGsv settings s start lists with
    | some (next, _) => (parseGsvs settings next rest).map (lists :: ·)
    | none => none

/-- No two satellites of the list have the same constellation and id. -/
def Sats.Distinct (gsat : Sats) : Prop :=
  ∀ j < gsat.numSats, ∀ i < j,
    ¬((gsat.sat i).gnssId = (gsat.sat j).gnssId ∧ (gsat.sat i).svId = (gsat.sat j).svId)

/-- The lists are well formed. -/
structure GsvLists.WellFormed (lists : GsvLists) : Prop where
  numSats : lists.sats.numSats ≤ maxNumSatellites
  numSigs : lists.sigs.numSigs ≤ maxNumSatSignals
  distinct : lists.sats.Distinct

/-- A satellite as it is looked for in the list. -/
structure GsvNamed where
  gnssId : UInt8
  svId : UInt16
  sat : GsvSat
deriving DecidableEq

/-- A satellite is put into the list. -/
def Sats.put (gsat : Sats) (named : GsvNamed) : Sats × Unit := (gsat.add named.gnssId named.svId named.sat, ())

def gsvNamed (settings : GsvSettings) (sentence : Sentence × Nat) : List GsvNamed :=
  match sentence.1.readGsv settings sentence.2 with
  | some read => read.sats.map fun sat =>
    let (gnssId, svId, _) := talkerIdToGnssId settings read.talker sat.svId
    ⟨gnssId, svId, sat⟩
  | none => []

/-- The id of a satellite fits a byte, or the list is full, or no entry of it has the constellation
and the low byte of the id. -/
def Sats.Told (gsat : Sats) (named : GsvNamed) : Prop :=
  named.svId < 256 ∨ maxNumSatellites ≤ gsat.numSats ∨
    ¬∃ j < gsat.numSats, (gsat.sat j).gnssId = named.gnssId ∧ (gsat.sat j).svId = named.svId.toUInt8

/-- A sentence ends in its memory, at a star or a null character behind its name. -/
def Ends (sentence : Sentence × Nat) : Prop :=
  ∃ place, sentence.2 + 7 ≤ place ∧ place < sentence.1.size ∧
    (sentence.1.a place = 0 ∨ sentence.1.a place = 0x2A)

/-! ### A satellite is added -/

section Add

variable {gsat : Sats} {named : GsvNamed}

theorem lists_iff {gnssId : UInt8} {svId : UInt16} : gsat.lists gnssId svId = true ↔
    ∃ j < gsat.numSats, (gsat.sat j).gnssId = gnssId ∧ (gsat.sat j).svId.toUInt16 = svId := by
  unfold Sats.lists
  simp only [List.any_eq_true, List.mem_range, Bool.and_eq_true, beq_iff_eq]
  exact exists_congr fun j => and_congr_right fun _ => and_congr eq_comm eq_comm

private theorem toUInt16_eq {svId : UInt16} (small : svId < 256) (byte : UInt8) :
    byte.toUInt16 = svId ↔ byte = svId.toUInt8 := by
  have bound : svId.toNat < 256 := small
  have narrow : byte.toNat < 256 := UInt8.toNat_lt byte
  rw [← UInt16.toNat_inj, ← UInt8.toNat_inj, UInt8.toNat_toUInt16, UInt16.toNat_toUInt8]
  omega

private theorem lists_large {gnssId : UInt8} {svId : UInt16} (large : ¬svId < 256) :
    gsat.lists gnssId svId = false := by
  have bound : ¬svId.toNat < 256 := large
  rw [Bool.eq_false_iff]
  intro listed
  obtain ⟨j, -, -, rfl⟩ := lists_iff.mp listed
  exact bound (UInt8.toNat_lt _)

theorem put_le (inside : gsat.numSats ≤ maxNumSatellites) :
    (gsat.put named).1.numSats ≤ maxNumSatellites := by
  unfold Sats.put Sats.add
  split
  · exact inside
  · split
    case isTrue room => exact room
    case isFalse => exact inside

/-- One more entry is told from all others if and only if none of these is the same. -/
private theorem distinct_succ {numSats : Nat} {sat : Nat → SatSv} {new : SatSv} :
    (⟨numSats + 1, Function.update sat numSats new⟩ : Sats).Distinct ↔
      (⟨numSats, sat⟩ : Sats).Distinct ∧
        ¬∃ j < numSats, (sat j).gnssId = new.gnssId ∧ (sat j).svId = new.svId := by
  have old {j : Nat} (before : j < numSats) : Function.update sat numSats new j = sat j :=
    Function.update_of_ne (Nat.ne_of_lt before) _ _
  have last : Function.update sat numSats new numSats = new := Function.update_self _ _ _
  unfold Sats.Distinct
  dsimp only
  constructor
  · intro distinct
    refine ⟨fun j before i first => ?_, ?_⟩
    · have other := distinct j (by omega) i first
      rwa [old before, old (first.trans before)] at other
    · rintro ⟨j, before, same⟩
      have other := distinct numSats (Nat.lt_succ_self _) j before
      rw [old before, last] at other
      exact other same
  · rintro ⟨distinct, fresh⟩ j before i first
    obtain earlier | rfl := Nat.lt_succ_iff_lt_or_eq.mp before
    · rw [old earlier, old (first.trans earlier)]
      exact distinct j earlier i first
    · rw [last, old first]
      exact fun same => fresh ⟨i, first, same⟩

/-- The list has no entry twice after a step if and only if it had none before, and the satellite is
told from its entries. -/
theorem put_distinct_iff (gsat : Sats) (named : GsvNamed) :
    (gsat.put named).1.Distinct ↔ gsat.Distinct ∧ gsat.Told named := by
  unfold Sats.put Sats.add Sats.Told
  by_cases small : named.svId < 256
  · rw [and_iff_left (.inl small)]
    split
    · exact Iff.rfl
    case isFalse absent =>
      split
      · rw [distinct_succ]
        refine and_iff_left ?_
        rintro ⟨j, before, gnss, sv⟩
        exact absent (lists_iff.mpr ⟨j, before, gnss, (toUInt16_eq small _).mpr sv⟩)
      · exact Iff.rfl
  · rw [lists_large small, if_neg Bool.false_ne_true]
    split
    case isTrue room =>
      rw [distinct_succ]
      refine and_congr_right fun _ => ⟨fun fresh => .inr (.inr fresh), fun told => ?_⟩
      exact (told.resolve_left small).resolve_left (by omega)
    case isFalse full => exact (and_iff_left (.inr (.inl (by omega)))).symm

end Add

/-! ### A sentence is read -/

section Read

variable {s : Sentence} {place ptr : Nat}

private theorem scanField_ends (ends : s.a place = 0 ∨ s.a place = 0x2A) {count : Nat} (before : ptr ≤ place)
    (inside : place < ptr + count) : ∃ field next, scanField s.a count ptr = some (field, next) ∧ next ≤ place := by
  induction count generalizing ptr with
  | zero => exact absurd before (by omega)
  | succ count ih =>
    unfold scanField
    by_cases ended : endsField (s.a ptr) = true
    · rw [if_pos ended]
      refine ⟨_, _, rfl, ?_⟩
      split
      case isTrue comma =>
        have other : ptr ≠ place := by
          rintro rfl
          rw [comma] at ends
          exact absurd ends (by decide)
        omega
      case isFalse => exact before
    · rw [if_neg ended]
      have other : ptr ≠ place := by
        rintro rfl
        unfold endsField at ended
        exact ended (by rcases ends with null | star <;> simp [*])
      obtain ⟨field, next, found, low⟩ := @ih (ptr + 1) (by omega) (by omega)
      rw [found]
      exact ⟨_, _, rfl, low⟩

private theorem findNextField_ends (ends : s.a place = 0 ∨ s.a place = 0x2A) (inside : place < s.size)
    (before : ptr ≤ place) : ∃ field next, s.findNextField ptr = some (field, next) ∧ next ≤ place :=
  scanField_ends ends before (by omega)

private theorem readFields_ends (ends : s.a place = 0 ∨ s.a place = 0x2A) (inside : place < s.size)
    (before : ptr ≤ place) (count : Nat) : ∃ fields last,
      s.readFields count ptr = some (fields, last) ∧ fields.length = count ∧ last ≤ place := by
  induction count generalizing ptr with
  | zero => exact ⟨[], ptr, rfl, rfl, before⟩
  | succ count ih =>
    obtain ⟨field, next, found, low⟩ := findNextField_ends ends inside before
    obtain ⟨fields, last, read, length, high⟩ := ih low
    unfold Sentence.readFields
    rw [found]
    dsimp only
    rw [read]
    exact ⟨_, _, rfl, congrArg (· + 1) length, high⟩

private theorem readGsvSats_ends (ends : s.a place = 0 ∨ s.a place = 0x2A) (inside : place < s.size)
    (before : ptr ≤ place) (count : Nat) : ∃ sats last,
      s.readGsvSats count ptr = some (sats, last) ∧ sats.length = count ∧ last ≤ place := by
  induction count generalizing ptr with
  | zero => exact ⟨[], ptr, rfl, rfl, before⟩
  | succ count ih =>
    obtain ⟨fields, next, found, length, low⟩ := readFields_ends ends inside before 4
    obtain ⟨sats, last, read, counted, high⟩ := ih low
    obtain ⟨svId, elev, azim, cno, rfl⟩ := List.length_eq_four.mp length
    unfold Sentence.readGsvSats
    rw [found]
    dsimp only
    rw [read]
    exact ⟨_, _, rfl, congrArg (· + 1) counted, high⟩

/-- A sentence that ends in its memory is read, and has no more than four satellites. -/
theorem readGsv_ends (settings : GsvSettings) {sentence : Sentence × Nat} (ends : Ends sentence) :
    ∃ read, sentence.1.readGsv settings sentence.2 = some read ∧ read.sats.length ≤ 4 := by
  obtain ⟨place, before, inside, ends⟩ := ends
  obtain ⟨fields, ptr, found, length, low⟩ := readFields_ends ends inside before 3
  obtain ⟨⟨numMsgs, _⟩, ⟨msgNum, _⟩, ⟨numSigs, _⟩, rfl⟩ := List.length_eq_three.mp length
  obtain ⟨sats, last, read, counted, high⟩ :=
    readGsvSats_ends ends inside low (satCnt (atoi msgNum) (atoi numSigs))
  obtain ⟨field, next, signal, -⟩ := findNextField_ends ends inside high
  have few : sats.length ≤ 4 := by
    rw [counted]
    unfold satCnt
    omega
  unfold Sentence.readGsv
  rw [found]
  dsimp only
  rw [read]
  dsimp only
  rw [signal]
  split
  · exact ⟨_, rfl, few⟩
  · exact ⟨_, rfl, few⟩

end Read

/-! ### A sentence is put into the lists -/

section Apply

variable {settings : GsvSettings}

private theorem satSteps_sigs (talker : UInt8) (sats : List GsvSat) (pass : GsvPass) :
    let after := (sats.foldl (gsvSatStep settings talker) pass).lists.sigs.numSigs
    after ≤ pass.lists.sigs.numSigs + sats.length ∧
      (pass.lists.sigs.numSigs ≤ maxNumSatSignals → after ≤ maxNumSatSignals) := by
  induction sats generalizing pass with
  | nil => exact ⟨Nat.le_refl _, id⟩
  | cons sat rest ih =>
    obtain ⟨more, kept⟩ := ih (gsvSatStep settings talker pass sat)
    have one : (gsvSatStep settings talker pass sat).lists.sigs.numSigs =
        if pass.lists.sigs.numSigs < maxNumSatSignals then pass.lists.sigs.numSigs + 1
        else pass.lists.sigs.numSigs := by
      unfold gsvSatStep
      dsimp only
      split <;> rfl
    rw [one] at more kept
    rw [List.length_cons, List.foldl_cons]
    dsimp only
    split at more <;> rename_i room
    · exact ⟨by omega, fun _ => kept (by rw [if_pos room]; exact room)⟩
    · exact ⟨by omega, fun inside => kept (by rw [if_neg room]; exact inside)⟩

private theorem satSteps_sats (talker : UInt8) (sats : List GsvSat) (pass : GsvPass) :
    (sats.foldl (gsvSatStep settings talker) pass).lists.sats =
      (run Sats.put pass.lists.sats (sats.map fun sat =>
        ⟨(talkerIdToGnssId settings talker sat.svId).1, (talkerIdToGnssId settings talker sat.svId).2.1, sat⟩)).1 := by
  induction sats generalizing pass with
  | nil => rfl
  | cons sat rest ih => exact ih _

theorem nmeaParseGsv_ends {sentence : Sentence × Nat} (ends : Ends sentence) (lists : GsvLists) : ∃ after next,
    nmeaParseGsv settings sentence.1 sentence.2 lists = some (after, next) ∧
      after.sigs.numSigs ≤ lists.sigs.numSigs + 4 ∧
      (lists.sigs.numSigs ≤ maxNumSatSignals → after.sigs.numSigs ≤ maxNumSatSignals) ∧
      after.sats = (run Sats.put lists.sats (gsvNamed settings sentence)).1 := by
  obtain ⟨read, found, few⟩ := readGsv_ends settings ends
  obtain ⟨more, kept⟩ := @satSteps_sigs settings read.talker read.sats ⟨lists, satSvGnssIdUnknown, []⟩
  have sats := @satSteps_sats settings read.talker read.sats ⟨lists, satSvGnssIdUnknown, []⟩
  have named : gsvNamed settings sentence = read.sats.map fun sat =>
      ⟨(talkerIdToGnssId settings read.talker sat.svId).1,
        (talkerIdToGnssId settings read.talker sat.svId).2.1, sat⟩ := by
    unfold gsvNamed
    rw [found]
  unfold nmeaParseGsv
  rw [found, named]
  refine ⟨_, _, rfl, ?_⟩
  unfold GsvSentence.apply
  cases read.signal with
  | none => exact ⟨more.trans (Nat.add_le_add_left few _), kept, sats⟩
  | some signal => exact ⟨more.trans (Nat.add_le_add_left few _), kept, sats⟩

end Apply

/-! ### Sentences are read one after another -/

private theorem parseGsvs_ends (settings : GsvSettings) {lists : GsvLists}
    (numSats : lists.sats.numSats ≤ maxNumSatellites) (numSigs : lists.sigs.numSigs ≤ maxNumSatSignals)
    {sentences : List (Sentence × Nat)} (ends : ∀ sentence ∈ sentences, Ends sentence) : ∃ later,
      parseGsvs settings lists sentences = some (lists :: later) ∧
        (lists :: later).IsChain (fun before after => after.sigs.numSigs ≤ before.sigs.numSigs + 4) ∧
        ((∀ state ∈ lists :: later, state.WellFormed) ↔
          lists.sats.Distinct ∧ Along Sats.put Sats.Told lists.sats (sentences.flatMap (gsvNamed settings))) := by
  induction sentences generalizing lists with
  | nil =>
    refine ⟨[], rfl, .singleton _, ?_⟩
    rw [List.forall_mem_singleton]
    exact ⟨fun wellFormed => ⟨wellFormed.distinct, trivial⟩, fun ⟨distinct, _⟩ => ⟨numSats, numSigs, distinct⟩⟩
  | cons sentence rest ih =>
    obtain ⟨after, next, parsed, few, inside, sats⟩ :=
      @nmeaParseGsv_ends settings sentence (ends sentence (.head _)) lists
    have kept : after.sats.numSats ≤ maxNumSatellites := by
      rw [sats]
      exact @run_invariant _ _ _ Sats.put (fun _ _ => True) (fun gsat => gsat.numSats ≤ maxNumSatellites)
        (fun gsat named inside _ => put_le inside) _ _ numSats (Along.of_forall (fun _ _ => trivial))
    have each := @run_iff_along _ _ _ Sats.put Sats.Told Sats.Distinct put_distinct_iff lists.sats
      (gsvNamed settings sentence)
    obtain ⟨later, rest, chain, wellFormed⟩ := ih kept (inside numSigs) fun other member => ends other (.tail _ member)
    refine ⟨after :: later, ?_, .cons_cons few chain, ?_⟩
    · unfold parseGsvs
      rw [parsed]
      dsimp only
      rw [rest]
      rfl
    · rw [List.forall_mem_cons, wellFormed, List.flatMap_cons, Along.append, sats, each]
      constructor
      · rintro ⟨-, ⟨distinct, told⟩, more⟩
        exact ⟨distinct, told, more⟩
      · rintro ⟨distinct, told, more⟩
        exact ⟨⟨numSats, numSigs, distinct⟩, ⟨distinct, told⟩, more⟩

/-- The lists stay well formed if and only if each satellite is told from those of the list when it
is put there. -/
theorem gsvLists_wellFormed_iff (settings : GsvSettings) {lists : GsvLists}
    (noSats : lists.sats.numSats = 0) (noSigs : lists.sigs.numSigs = 0)
    {sentences : List (Sentence × Nat)} (ends : ∀ sentence ∈ sentences, Ends sentence) : ∃ states,
      parseGsvs settings lists sentences = some states ∧
        ((∀ state ∈ states, state.WellFormed) ∧
            states.IsChain (fun before after => after.sigs.numSigs ≤ before.sigs.numSigs + 4) ↔
          Along Sats.put Sats.Told lists.sats (sentences.flatMap (gsvNamed settings))) := by
  obtain ⟨later, parsed, chain, wellFormed⟩ := parseGsvs_ends settings
    (show lists.sats.numSats ≤ maxNumSatellites by omega) (show lists.sigs.numSigs ≤ maxNumSatSignals by omega) ends
  have distinct : lists.sats.Distinct := fun j before => absurd before (by omega)
  rw [and_iff_right distinct] at wellFormed
  exact ⟨_, parsed, (and_iff_left chain).trans wellFormed⟩

/-- Satellites of Galileo with the same id, below 256 or not. -/
private def galileo (svId : List Char) : Sentence :=
  .ofText ("$GAGSV,1,1,02,".toList ++ svId ++ ",,,40,".toList ++ svId ++ ",,,41,7*00\r\n".toList)

theorem gsvLists_wellFormed_one : ∃ states,
    parseGsvs ⟨nmeaProtocol4p10, fun _ => 0xFF⟩ .empty [(galileo ['2'], 0)] = some states ∧
      ∀ state ∈ states, state.WellFormed := by
  obtain ⟨states, parsed, wellFormed⟩ := @gsvLists_wellFormed_iff ⟨nmeaProtocol4p10, fun _ => 0xFF⟩ .empty
    rfl rfl [(galileo ['2'], 0)] (by
      rw [List.forall_mem_singleton]
      exact ⟨29, by decide +kernel⟩)
  have named : gsvNamed ⟨nmeaProtocol4p10, fun _ => 0xFF⟩ (galileo ['2'], 0) =
      [⟨satSvGnssIdGal, 2, ⟨2, 0, 0, 40⟩⟩, ⟨satSvGnssIdGal, 2, ⟨2, 0, 0, 41⟩⟩] := by decide +kernel
  refine ⟨states, parsed, (wellFormed.mpr ?_).1⟩
  rw [List.flatMap_singleton, named]
  exact ⟨.inl (by decide), .inl (by decide), trivial⟩

/-- The id 257 is stored as 1 and looked for as 257. -/
theorem gsvLists_twice : ¬ ∀ (settings : GsvSettings) (lists : GsvLists) (sentences : List (Sentence × Nat)),
    lists.sats.numSats = 0 → lists.sigs.numSigs = 0 → (∀ sentence ∈ sentences, Ends sentence) → ∃ states,
      parseGsvs settings lists sentences = some states ∧ (∀ state ∈ states, state.WellFormed) ∧
        states.IsChain (fun before after => after.sigs.numSigs ≤ before.sigs.numSigs + 4) := by
  intro always
  have ends : ∀ sentence ∈ [(galileo ['2', '5', '7'], 0)], Ends sentence := by
    rw [List.forall_mem_singleton]
    exact ⟨33, by decide +kernel⟩
  obtain ⟨states, parsed, wellFormed, -⟩ := always ⟨nmeaProtocol4p10, fun _ => 0xFF⟩ .empty _ rfl rfl ends
  obtain ⟨later, same, -, told⟩ := @parseGsvs_ends ⟨nmeaProtocol4p10, fun _ => 0xFF⟩ .empty
    (by decide) (by decide) _ ends
  obtain rfl := Option.some.inj (parsed.symm.trans same)
  have named : gsvNamed ⟨nmeaProtocol4p10, fun _ => 0xFF⟩ (galileo ['2', '5', '7'], 0) =
      [⟨satSvGnssIdGal, 257, ⟨257, 0, 0, 40⟩⟩, ⟨satSvGnssIdGal, 257, ⟨257, 0, 0, 41⟩⟩] := by decide +kernel
  have along := (told.mp wellFormed).2
  rw [List.flatMap_singleton, named] at along
  obtain large | full | fresh := along.2.1
  · exact absurd large (by decide)
  · exact absurd full (by decide +kernel)
  · exact fresh ⟨0, by decide +kernel⟩

end InertialSense.Nmea
