import InertialSense.Foundation.Parts
import InertialSense.Nmea.Gsv

/-! The signals that a group announces are counted in one pass, and found again in another one that
walks over all sentences of the group. -/

namespace InertialSense.Nmea

open Foundation

section Group

variable {settings : GsvSettings} {gsat : Sats} {gsig : Sigs} {gnssId sigId : UInt8} {noCno : Bool}

/-! ### The walk -/

variable (settings gsat gsig gnssId sigId noCno) in
/-- What can be printed for so many signals, from one on. -/
def gsvEntries (i count : Nat) : List (Nat × Nat) :=
  (List.range' i count).filterMap (gsvEntry settings gsat gsig gnssId sigId noCno)

theorem gsvPayload_entries (left i : Nat) {cnt : Nat} (few : cnt ≤ 4) : ∃ next,
    i ≤ next ∧ next ≤ i + left ∧
      gsvPayload settings gsat gsig gnssId sigId noCno left i cnt =
        ((gsvEntries settings gsat gsig gnssId sigId noCno i left).take (4 - cnt), next) ∧
      gsvEntries settings gsat gsig gnssId sigId noCno next (i + left - next) =
        (gsvEntries settings gsat gsig gnssId sigId noCno i left).drop (4 - cnt) := by
  induction left generalizing i cnt with
  | zero => exact ⟨i, by omega, by omega, by simp [gsvPayload, gsvEntries], by simp [gsvEntries]⟩
  | succ left ih =>
    have step : gsvEntries settings gsat gsig gnssId sigId noCno i (left + 1) =
        (gsvEntry settings gsat gsig gnssId sigId noCno i).toList ++
          gsvEntries settings gsat gsig gnssId sigId noCno (i + 1) left := by
      unfold gsvEntries
      rw [List.range'_succ, List.filterMap_cons]
      cases gsvEntry settings gsat gsig gnssId sigId noCno i <;> rfl
    unfold gsvPayload
    by_cases full : 4 ≤ cnt
    · have same : cnt = 4 := by omega
      refine ⟨i, by omega, by omega, by rw [if_pos full, same]; rfl, ?_⟩
      rw [same, Nat.sub_self, List.drop_zero, Nat.add_sub_cancel_left]
    · rw [if_neg full, step]
      cases gsvEntry settings gsat gsig gnssId sigId noCno i with
      | none =>
        obtain ⟨next, low, high, taken, rest⟩ := ih (i + 1) few
        refine ⟨next, by omega, by omega, taken, ?_⟩
        rw [show i + (left + 1) - next = i + 1 + left - next by omega]
        exact rest
      | some entry =>
        obtain ⟨next, low, high, taken, rest⟩ := ih (i + 1) (show cnt + 1 ≤ 4 by omega)
        have more : 4 - cnt = 4 - (cnt + 1) + 1 := by omega
        refine ⟨next, by omega, by omega, ?_, ?_⟩
        · dsimp only
          rw [taken, more]
          rfl
        · rw [show i + (left + 1) - next = i + 1 + left - next by omega, rest, more]
          rfl

/-- Four entries go into each sentence, in their order. -/
private theorem gsvMessages_eq {numSigs left sigNum i : Nat} (enough : numSigs ≤ sigNum + left)
    (inside : i ≤ gsig.numSigs + 1) :
    gsvMessages settings gsat gsig gnssId sigId noCno numSigs left sigNum i =
      (List.range ((numSigs - sigNum + 3) / 4)).map fun k =>
        ⟨(numSigs + 3) / 4, sigNum / 4 + k + 1, numSigs,
          ((gsvEntries settings gsat gsig gnssId sigId noCno i (gsig.numSigs + 1 - i)).drop (4 * k)).take 4⟩ := by
  induction left generalizing sigNum i with
  | zero =>
    rw [show (numSigs - sigNum + 3) / 4 = 0 by omega]
    rfl
  | succ left ih =>
    unfold gsvMessages
    by_cases more : sigNum < numSigs
    · obtain ⟨next, low, high, taken, rest⟩ := @gsvPayload_entries settings gsat gsig gnssId sigId noCno
        (gsig.numSigs + 1 - i) i 0 (by omega)
      rw [Nat.add_sub_cancel' inside] at high rest
      rw [if_pos more, taken, show (numSigs - sigNum + 3) / 4 = (numSigs - (sigNum + 4) + 3) / 4 + 1 by omega,
        List.range_succ_eq_map, List.map_cons, List.map_map]
      dsimp only
      rw [ih (by omega) high, rest]
      refine congrArg₂ _ rfl (List.map_congr_left fun k _ => ?_)
      dsimp only [Function.comp_apply]
      rw [List.drop_drop, show (sigNum + 4) / 4 + k + 1 = sigNum / 4 + (k + 1) + 1 by omega,
        show 4 - 0 + 4 * k = 4 * (k + 1) by omega]
    · rw [if_neg more, show (numSigs - sigNum + 3) / 4 = 0 by omega]
      rfl

variable (settings gsat gsig gnssId sigId noCno) in
/-- The entries of a group, four by four. -/
theorem gsvGroup_eq : gsvGroup settings gsat gsig gnssId sigId noCno =
    (List.range ((nmeaGsvNumSatSigs settings gnssId sigId gsig false + 3) / 4)).map fun k =>
      ⟨(nmeaGsvNumSatSigs settings gnssId sigId gsig false + 3) / 4, k + 1,
        nmeaGsvNumSatSigs settings gnssId sigId gsig false,
        ((gsvEntries settings gsat gsig gnssId sigId noCno 0 (gsig.numSigs + 1)).drop (4 * k)).take 4⟩ := by
  unfold gsvGroup
  dsimp only
  rw [gsvMessages_eq (by omega) (by omega), Nat.sub_zero]
  simp only [Nat.zero_div, Nat.zero_add, Nat.sub_zero]

variable (settings gsat gsig gnssId sigId noCno) in
theorem gsvGroup_entries : (gsvGroup settings gsat gsig gnssId sigId noCno).flatMap GsvMessage.entries =
    (gsvEntries settings gsat gsig gnssId sigId noCno 0 (gsig.numSigs + 1)).take
      (4 * ((nmeaGsvNumSatSigs settings gnssId sigId gsig false + 3) / 4)) := by
  rw [gsvGroup_eq, List.flatMap_map, flatMap_parts]

end Group

/-! ### What is announced -/

/-- One of the first satellites is the one of a signal. -/
def Sats.Has (gsat : Sats) (count : Nat) (sig : SigSv) : Prop :=
  ∃ j < count, (gsat.sat j).gnssId = sig.gnssId ∧ (gsat.sat j).svId = sig.svId

/-- A signal is one of a group. -/
def InGroup (settings : GsvSettings) (gnssId sigId : UInt8) (sig : SigSv) : Prop :=
  gsvFreqEna settings sig = true ∧ gsvSigMatch gnssId sigId sig false = true

/-- A group is the sentences of four entries that its number of signals makes, and has as many
entries, of which each is a signal of the list with its satellite. -/
structure GsvAnnounced (settings : GsvSettings) (gsat : Sats) (gsig : Sigs) (gnssId sigId : UInt8) : Prop where
  printed : ∀ (a : Nat → UInt8) (aSize : Nat),
    ((gsvGroupDrafts settings gsat gsig (gnssId, sigId)).flatMap Draft.sentence).length < aSize →
      let p := nmeaGsvGroup settings gsat gsig gnssId sigId false aSize ⟨a, 0, 0, []⟩
      Printed (p.a, p.n) ((gsvGroupDrafts settings gsat gsig (gnssId, sigId)).flatMap Draft.sentence)
  sentences : (gsvGroup settings gsat gsig gnssId sigId false).length =
    (nmeaGsvNumSatSigs settings gnssId sigId gsig false + 3) / 4
  announced : ∀ message ∈ gsvGroup settings gsat gsig gnssId sigId false,
    message.numSigs = nmeaGsvNumSatSigs settings gnssId sigId gsig false
  entries : ((gsvGroup settings gsat gsig gnssId sigId false).flatMap GsvMessage.entries).length =
    nmeaGsvNumSatSigs settings gnssId sigId gsig false
  inside : ∀ entry ∈ (gsvGroup settings gsat gsig gnssId sigId false).flatMap GsvMessage.entries,
    entry.1 < gsig.numSigs ∧ entry.2 < gsat.numSats
  matched : ∀ entry ∈ (gsvGroup settings gsat gsig gnssId sigId false).flatMap GsvMessage.entries,
    (gsat.sat entry.2).gnssId = (gsig.sig entry.1).gnssId ∧
      (gsat.sat entry.2).svId = (gsig.sig entry.1).svId

section Announced

variable {settings : GsvSettings} {gsat : Sats} {gsig : Sigs} {gnssId sigId : UInt8}

theorem satelliteOf_isSome_iff {sig : SigSv} :
    (satelliteOf gsat sig).isSome ↔ gsat.Has (gsat.numSats + 1) sig := by
  unfold satelliteOf Sats.Has
  simp [List.find?_isSome]

theorem satelliteOf_some {sig : SigSv} {j : Nat} (found : satelliteOf gsat sig = some j) :
    (gsat.sat j).gnssId = sig.gnssId ∧ (gsat.sat j).svId = sig.svId := by
  have same := List.find?_some found
  simpa using same

theorem satelliteOf_lt {sig : SigSv} {j count : Nat} (found : satelliteOf gsat sig = some j)
    (has : gsat.Has count sig) : j < count := by
  obtain ⟨k, before, gnss, sv⟩ := has
  obtain ⟨-, place, length, rfl, none⟩ := List.find?_eq_some_iff_getElem.mp found
  by_contra late
  rw [List.getElem_range] at late
  have other := none k (by omega)
  rw [List.getElem_range, gnss, sv] at other
  simp at other

theorem gsvEntry_some {i : Nat} {entry : Nat × Nat}
    (found : gsvEntry settings gsat gsig gnssId sigId false i = some entry) :
    entry.1 = i ∧ InGroup settings gnssId sigId (gsig.sig i) ∧
      satelliteOf gsat (gsig.sig i) = some entry.2 := by
  unfold gsvEntry at found
  split at found
  case isTrue member =>
    obtain ⟨j, satellite, rfl⟩ := Option.map_eq_some_iff.mp found
    exact ⟨rfl, (Bool.and_eq_true _ _).mp member, satellite⟩
  case isFalse => cases found

theorem gsvEntry_none {i : Nat} : gsvEntry settings gsat gsig gnssId sigId false i = none ↔
    ¬ (InGroup settings gnssId sigId (gsig.sig i) ∧ gsat.Has (gsat.numSats + 1) (gsig.sig i)) := by
  unfold gsvEntry InGroup
  rw [← satelliteOf_isSome_iff, ← Bool.and_eq_true]
  split
  case isTrue member =>
    cases satelliteOf gsat (gsig.sig i) <;> simp [member]
  case isFalse other => simp [other]

theorem gsvEntries_eq : gsvEntries settings gsat gsig gnssId sigId false 0 gsig.numSigs =
    ((List.range gsig.numSigs).filter fun i =>
      gsvFreqEna settings (gsig.sig i) && gsvSigMatch gnssId sigId (gsig.sig i) false).filterMap fun i =>
        (satelliteOf gsat (gsig.sig i)).map fun j => (i, j) := by
  unfold gsvEntries
  rw [← List.range_eq_range', List.filterMap_filter]
  rfl

variable (settings gsat gsig gnssId sigId) in
/-- Among the signals of the list, there are as many entries as signals that are counted if and only
if each of these has a satellite. -/
theorem gsvEntries_length_iff :
    (gsvEntries settings gsat gsig gnssId sigId false 0 gsig.numSigs).length ≤
        nmeaGsvNumSatSigs settings gnssId sigId gsig false ∧
      ((gsvEntries settings gsat gsig gnssId sigId false 0 gsig.numSigs).length =
          nmeaGsvNumSatSigs settings gnssId sigId gsig false ↔
        ∀ i < gsig.numSigs, InGroup settings gnssId sigId (gsig.sig i) →
          gsat.Has (gsat.numSats + 1) (gsig.sig i)) := by
  unfold nmeaGsvNumSatSigs
  rw [gsvEntries_eq, List.countP_eq_length_filter]
  refine ⟨List.length_filterMap_le _ _, List.filterMap_length_eq_length.trans ?_⟩
  simp only [List.mem_filter, List.mem_range, Bool.and_eq_true, Option.isSome_map, InGroup, and_imp,
    satelliteOf_isSome_iff]

theorem gsvEntries_succ : gsvEntries settings gsat gsig gnssId sigId false 0 (gsig.numSigs + 1) =
    gsvEntries settings gsat gsig gnssId sigId false 0 gsig.numSigs ++
      (gsvEntry settings gsat gsig gnssId sigId false gsig.numSigs).toList := by
  unfold gsvEntries
  rw [List.range'_1_concat, List.filterMap_append, Nat.zero_add, List.filterMap_cons]
  cases gsvEntry settings gsat gsig gnssId sigId false gsig.numSigs <;> rfl

theorem gsvEntries_mem {i count : Nat} {entry : Nat × Nat}
    (member : entry ∈ gsvEntries settings gsat gsig gnssId sigId false i count) :
    entry.1 < i + count ∧ InGroup settings gnssId sigId (gsig.sig entry.1) ∧
      satelliteOf gsat (gsig.sig entry.1) = some entry.2 := by
  obtain ⟨k, inside, found⟩ := List.mem_filterMap.mp member
  obtain ⟨rfl, both⟩ := gsvEntry_some found
  exact ⟨(List.mem_range'_1.mp inside).2, both⟩

/-- If each signal that is counted has a satellite and the entry behind the list is not sent, the
sentences are the parts of the entries of the list. -/
theorem gsvGroup_parts (whole : (gsvEntries settings gsat gsig gnssId sigId false 0 gsig.numSigs).length =
      nmeaGsvNumSatSigs settings gnssId sigId gsig false)
    (full : 4 ∣ nmeaGsvNumSatSigs settings gnssId sigId gsig false ∨
      gsvEntry settings gsat gsig gnssId sigId false gsig.numSigs = none) :
    gsvGroup settings gsat gsig gnssId sigId false =
      (List.range ((nmeaGsvNumSatSigs settings gnssId sigId gsig false + 3) / 4)).map fun k =>
        ⟨(nmeaGsvNumSatSigs settings gnssId sigId gsig false + 3) / 4, k + 1,
          nmeaGsvNumSatSigs settings gnssId sigId gsig false,
          ((gsvEntries settings gsat gsig gnssId sigId false 0 gsig.numSigs).drop (4 * k)).take 4⟩ := by
  rw [gsvGroup_eq, gsvEntries_succ]
  refine List.map_congr_left fun k inside => ?_
  have before := List.mem_range.mp inside
  obtain ⟨count, same⟩ | none := full
  · rw [part_append (by omega)]
  · rw [none, Option.toList_none, List.append_nil]

private theorem take_sentences {α : Type _} {first : List α} {last : Option α} {numSigs : Nat}
    (whole : first.length = numSigs) (full : 4 ∣ numSigs ∨ last = none) :
    (first ++ last.toList).take (4 * ((numSigs + 3) / 4)) = first := by
  obtain ⟨count, rfl⟩ | rfl := full
  · rw [show 4 * ((4 * count + 3) / 4) = first.length by omega, List.take_left]
  · rw [Option.toList_none, List.append_nil, List.take_of_length_le (by omega)]

/-- All entries of the list are sent, and no other. -/
theorem gsvGroup_all (whole : (gsvEntries settings gsat gsig gnssId sigId false 0 gsig.numSigs).length =
      nmeaGsvNumSatSigs settings gnssId sigId gsig false)
    (full : 4 ∣ nmeaGsvNumSatSigs settings gnssId sigId gsig false ∨
      gsvEntry settings gsat gsig gnssId sigId false gsig.numSigs = none) :
    (gsvGroup settings gsat gsig gnssId sigId false).flatMap GsvMessage.entries =
      gsvEntries settings gsat gsig gnssId sigId false 0 gsig.numSigs := by
  rw [gsvGroup_entries, gsvEntries_succ]
  exact take_sentences whole full

/-- A group that announces what it sends has an entry for each signal that is counted, and has not
sent the entry behind the list. -/
theorem GsvAnnounced.whole (announced : GsvAnnounced settings gsat gsig gnssId sigId) :
    (gsvEntries settings gsat gsig gnssId sigId false 0 gsig.numSigs).length =
        nmeaGsvNumSatSigs settings gnssId sigId gsig false ∧
      (4 ∣ nmeaGsvNumSatSigs settings gnssId sigId gsig false ∨
        gsvEntry settings gsat gsig gnssId sigId false gsig.numSigs = none) := by
  have few := (gsvEntries_length_iff settings gsat gsig gnssId sigId).1
  have inside := announced.inside
  have length := announced.entries
  rw [gsvGroup_entries, gsvEntries_succ] at inside length
  generalize nmeaGsvNumSatSigs settings gnssId sigId gsig false = numSigs at inside length few ⊢
  by_cases short : 4 * ((numSigs + 3) / 4) ≤
      (gsvEntries settings gsat gsig gnssId sigId false 0 gsig.numSigs).length
  · rw [List.take_append_of_le_length short, List.length_take_of_le short] at length
    exact ⟨by omega, .inl ⟨_, length.symm⟩⟩
  · cases last : gsvEntry settings gsat gsig gnssId sigId false gsig.numSigs with
    | none =>
      rw [last, Option.toList_none, List.append_nil, List.take_of_length_le (by omega)] at length
      exact ⟨length, .inr rfl⟩
    | some entry =>
      rw [last, Option.toList_some, List.take_of_length_le (by simp; omega)] at inside
      have before := (inside entry (by simp)).1
      rw [(gsvEntry_some last).1] at before
      exact absurd before (Nat.lt_irrefl _)

/-- The satellite of each signal that is counted is one of the list. -/
theorem GsvAnnounced.satellites (announced : GsvAnnounced settings gsat gsig gnssId sigId) {i : Nat}
    (before : i < gsig.numSigs) (member : InGroup settings gnssId sigId (gsig.sig i)) :
    gsat.Has gsat.numSats (gsig.sig i) := by
  obtain ⟨whole, full⟩ := announced.whole
  have inside := announced.inside
  rw [gsvGroup_all whole full] at inside
  have has := (gsvEntries_length_iff settings gsat gsig gnssId sigId).2.mp whole i before member
  obtain ⟨j, satellite⟩ := Option.isSome_iff_exists.mp (satelliteOf_isSome_iff.mpr has)
  have found : gsvEntry settings gsat gsig gnssId sigId false i = some (i, j) := by
    unfold gsvEntry
    rw [if_pos ((Bool.and_eq_true _ _).mpr member), satellite]
    rfl
  have here := inside (i, j) (List.mem_filterMap.mpr ⟨i, List.mem_range'_1.mpr (by omega), found⟩)
  exact ⟨j, here.2, satelliteOf_some satellite⟩

/-- A group announces what it sends if its entries are as many, each of a signal and its satellite in
the lists. -/
theorem gsvAnnounced_of_entries
    (count : ((gsvGroup settings gsat gsig gnssId sigId false).flatMap GsvMessage.entries).length =
      nmeaGsvNumSatSigs settings gnssId sigId gsig false)
    (listed : ∀ entry ∈ (gsvGroup settings gsat gsig gnssId sigId false).flatMap GsvMessage.entries,
      entry.1 < gsig.numSigs ∧ satelliteOf gsat (gsig.sig entry.1) = some entry.2 ∧
        gsat.Has gsat.numSats (gsig.sig entry.1)) :
    GsvAnnounced settings gsat gsig gnssId sigId where
  printed a aSize room := by
    have printed := printDrafts_printed a room
    unfold printDrafts at printed
    rw [← nmeaGsvGroup_eq] at printed
    exact printed
  sentences := by rw [gsvGroup_eq, List.length_map, List.length_range]
  announced message member := by
    rw [gsvGroup_eq] at member
    obtain ⟨k, -, rfl⟩ := List.mem_map.mp member
    rfl
  entries := count
  inside entry sent := by
    obtain ⟨before, satellite, has⟩ := listed entry sent
    exact ⟨before, satelliteOf_lt satellite has⟩
  matched entry sent := satelliteOf_some (listed entry sent).2.1

/-- A group announces what it sends if and only if it is empty, or each signal that is counted has a
satellite and the entry behind the list of signals finds no room, or is not one of the group. -/
theorem gsvGroup_announced_iff (settings : GsvSettings) (gsat : Sats) (gsig : Sigs) (gnssId sigId : UInt8) :
    GsvAnnounced settings gsat gsig gnssId sigId ↔
      nmeaGsvNumSatSigs settings gnssId sigId gsig false = 0 ∨
        (∀ i < gsig.numSigs, InGroup settings gnssId sigId (gsig.sig i) →
            gsat.Has gsat.numSats (gsig.sig i)) ∧
          (4 ∣ nmeaGsvNumSatSigs settings gnssId sigId gsig false ∨
            ¬ (InGroup settings gnssId sigId (gsig.sig gsig.numSigs) ∧
              gsat.Has (gsat.numSats + 1) (gsig.sig gsig.numSigs))) := by
  rw [← gsvEntry_none]
  constructor
  · intro announced
    exact .inr ⟨fun i before member => announced.satellites before member, announced.whole.2⟩
  · rintro (none | ⟨satellites, full⟩)
    · have empty : (gsvGroup settings gsat gsig gnssId sigId false).flatMap GsvMessage.entries = [] := by
        rw [gsvGroup_entries, none]
        rfl
      refine gsvAnnounced_of_entries (by rw [empty, none]; rfl) fun entry sent => ?_
      rw [empty] at sent
      cases sent
    · have whole := (gsvEntries_length_iff settings gsat gsig gnssId sigId).2.mpr fun i before member =>
        (satellites i before member).imp fun j ⟨inside, same⟩ => ⟨by omega, same⟩
      refine gsvAnnounced_of_entries (by rw [gsvGroup_all whole full, whole]) fun entry sent => ?_
      rw [gsvGroup_all whole full] at sent
      obtain ⟨before, group, satellite⟩ := gsvEntries_mem sent
      rw [Nat.zero_add] at before
      exact ⟨before, satellite, satellites entry.1 before group⟩

/-- A signal without a satellite is announced, and its sentence is empty. -/
theorem gsvGroup_signal_alone : ¬ ∀ (settings : GsvSettings) (gsat : Sats) (gsig : Sigs) (gnssId sigId : UInt8),
    gsat.numSats ≤ maxNumSatellites → gsig.numSigs ≤ maxNumSatSignals →
      GsvAnnounced settings gsat gsig gnssId sigId := by
  intro announced
  have empty := (announced ⟨nmeaProtocol4p10, fun _ => 0xFF⟩ ⟨0, fun _ => ⟨0, 0, 0, 0, 0, 0⟩⟩
    ⟨1, fun i => if i = 0 then ⟨satSvGnssIdGps, 5, satSvSigIdGpsL1ca, 30, 0, 0⟩ else ⟨0, 0, 0, 0, 0, 0⟩⟩
    satSvGnssIdGps satSvSigIdGpsL1ca (by decide) (by decide)).entries
  exact absurd empty (by decide)

end Announced

end InertialSense.Nmea
