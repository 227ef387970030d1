import InertialSense.Foundation.LastWrite
import InertialSense.Nmea.Asce

/-! The two copies of the parser of `$ASCE` side by side. They read the same pairs and differ in the
ids that the cases of GSV give. -/

namespace InertialSense.Nmea

open Foundation

/-- The ids and periods that a sentence has from a place on, in at most so many passes: nothing if
the memory ends before. -/
def Sentence.pairs (s : Sentence) : Nat → Nat → Option (List (UInt32 × UInt8))
  | 0, _ => some []
  | count + 1, ptr =>
    match s.readPair ptr with
    | .fault => none
    | .ended => some []
    | .pair id period next => (s.pairs count next).map ((id, period) :: ·)

/-- The pairs do not depend on what they do. -/
theorem loop_eq_pairs (s : Sentence) (pair : Streams → UInt32 → UInt8 → Streams)
    (count ptr : Nat) (streams : Streams) :
    s.loop pair count ptr streams =
      (s.pairs count ptr).map fun pairs =>
        pairs.foldl (fun streams read => pair streams read.1 read.2) streams := by
  induction count generalizing ptr streams with
  | zero => rfl
  | succ count ih =>
    unfold Sentence.loop Sentence.pairs
    cases s.readPair ptr with
    | fault => rfl
    | ended => rfl
    | pair id period next =>
      dsimp only
      rw [ih, Option.map_map]
      rfl

/-- What both copies set: the bits, the periods and the masks. -/
def Streams.shown (streams : Streams) : (Int → RmcNmea) × (Nat → UInt8) :=
  (fun port => (streams.rmci port).rmcNmea, streams.constMask)

/-- The ids of GSV with a constellation and its frequencies. -/
def OfGsv (id : UInt32) : Prop := 3840 ≤ id ∧ id ≤ 3951

instance (id : UInt32) : Decidable (OfGsv id) := inferInstanceAs (Decidable (_ ∧ _))

/-- An id that stays in one copy, and is 0 in the other. -/
def Foreign (id : UInt32) : Prop := 256 ≤ id ∧ ¬OfGsv id

/-- The plain id of GSV with a period: it sets the masks of all constellations in one copy only. -/
def Plain (pair : UInt32 × UInt8) : Prop := pair.1 = 15 ∧ pair.2 ≠ 0

instance (pair : UInt32 × UInt8) : Decidable (Plain pair) := inferInstanceAs (Decidable (_ ∧ _))

def maskOf (options : UInt32) (k : Nat) (pair : UInt32 × UInt8) : Option UInt8 :=
  let constTarget := ((pair.1 &&& 0xF0) >>> 4).toNat
  if pair.2 = 0 then
    if options &&& 0xFF = 0xFF ∧ (pair.1 = 15 ∨ OfGsv pair.1) ∧ k < 9 then some 0 else none
  else if OfGsv pair.1 ∧
      (constTarget = 0 ∧ k ≤ 6 ∨ constTarget ∈ [1, 3, 4, 5, 6] ∧ k = constTarget) then
    some (pair.1 &&& 0x0F).toUInt8
  else none

/-- No foreign id is set on a port, and for each constellation a plain pair is behind the mask `0x0F`
or before another mask. -/
structure Agreeing (pHandle : Int) (options : UInt32) (pairs : List (UInt32 × UInt8)) : Prop where
  known : ∀ pair ∈ pairs, Foreign pair.1 → ∀ port, selects pHandle options port = false
  masks : ∀ k ≤ 6, ∀ before pair after, pairs = before ++ pair :: after → Plain pair →
    (lastOf (maskOf options k) after).isSome ∨ lastOf (maskOf options k) before = some 0x0F

section Pair

variable {wide : UInt32 → UInt32} {pHandle : Int} {options id : UInt32} {period : UInt8}

private theorem shown_eq_iff {first second : Streams} : first.shown = second.shown ↔
    (∀ port, (first.rmci port).rmcNmea = (second.rmci port).rmcNmea) ∧
      first.constMask = second.constMask := by
  unfold Streams.shown
  rw [Prod.mk.injEq, funext_iff]

theorem ascePair_rmci (streams : Streams) (port : Int) :
    ((ascePair wide pHandle options streams id period).rmci port).rmcNmea =
      if selects pHandle options port then
        (streams.rmci port).rmcNmea.enableStream wide (asceId streams.constMask id period).2 period
      else (streams.rmci port).rmcNmea := by
  unfold ascePair Streams.assign
  dsimp only
  split <;> rfl

private theorem grmciPair_rmci (streams : Streams) (port : Int) :
    ((grmciPair wide pHandle options streams id period).rmci port).rmcNmea =
      if selects pHandle options port then
        (streams.rmci port).rmcNmea.enableStream wide (grmciId streams.constMask id period).2 period
      else (streams.rmci port).rmcNmea := by
  unfold grmciPair Streams.assign
  dsimp only
  split <;> rfl

private theorem parse_gsv (gsv : OfGsv id) (constMask : Nat → UInt8) :
    (∀ k, (parseAsceGsv constMask id period).1 k =
      if period ≠ 0 ∧ (((id &&& 0xF0) >>> 4).toNat = 0 ∧ k ≤ 6 ∨
        ((id &&& 0xF0) >>> 4).toNat ∈ [1, 3, 4, 5, 6] ∧ k = ((id &&& 0xF0) >>> 4).toNat) then
        (id &&& 0x0F).toUInt8 else constMask k) ∧
      ((parseAsceGsv constMask id period).2 = 15 ∨
        period ≠ 0 ∧ (parseAsceGsv constMask id period).2 = 0) := by
  have inside : ¬(id < 3840 ∨ 3951 < id) := by
    rw [not_or, UInt32.not_lt, UInt32.not_lt]
    exact gsv
  unfold parseAsceGsv
  dsimp only
  rw [if_neg inside]
  generalize ((id &&& 0xF0) >>> 4).toNat = constTarget
  by_cases off : period = 0
  · rw [if_pos off]
    exact ⟨fun k => (if_neg fun both => both.1 off).symm, .inl rfl⟩
  rw [if_neg off]
  by_cases all : constTarget = 0
  · subst all
    rw [if_pos rfl]
    refine ⟨fun k => ?_, .inl rfl⟩
    simp [off]
  rw [if_neg all]
  by_cases one : constTarget ∈ [1, 3, 4, 5, 6]
  · rw [if_pos one]
    refine ⟨fun k => ?_, .inl rfl⟩
    simp only [ne_eq, off, not_false_iff, all, one, true_and, false_and, false_or]
  · rw [if_neg one]
    refine ⟨fun k => (if_neg ?_).symm, .inr ⟨off, rfl⟩⟩
    rintro ⟨-, here | here⟩
    · exact all here.1
    · exact one here.1

private theorem parse_other (other : ¬OfGsv id) (constMask : Nat → UInt8) :
    parseAsceGsv constMask id period = (constMask, 0) := by
  have outside : id < 3840 ∨ 3951 < id := by
    by_contra inside
    rw [not_or, UInt32.not_lt, UInt32.not_lt] at inside
    exact other inside
  exact if_pos outside

private theorem assign_gsv (gsv : OfGsv id) (streams : Streams) (enable : Rmci → UInt32 → Rmci)
    (k : Nat) :
    (streams.assign pHandle options enable period
        (parseAsceGsv streams.constMask id period)).constMask k =
      (maskOf options k (id, period)).getD (streams.constMask k) := by
  obtain ⟨masks, found⟩ := @parse_gsv id period gsv streams.constMask
  unfold Streams.assign maskOf
  dsimp only
  rw [masks k]
  by_cases off : period = 0
  · have plain := found.resolve_right fun both => both.1 off
    subst off
    simp only [ne_eq, not_true, false_and, if_false, if_true, plain, gsv, or_true, true_and]
    split <;> rfl
  · simp only [off, ne_eq, not_false_iff, true_and, false_and, and_false, if_false, gsv]
    split <;> rfl

private theorem assign_plain (streams : Streams) (enable : Rmci → UInt32 → Rmci)
    {constMask : Nat → UInt8} {k : Nat} (same : constMask k = streams.constMask k) :
    (streams.assign pHandle options enable period (constMask, 15)).constMask k =
      (maskOf options k (15, period)).getD (streams.constMask k) := by
  have other : ¬OfGsv 15 := by decide
  unfold Streams.assign maskOf
  dsimp only
  rw [same]
  by_cases off : period = 0
  · simp only [off, if_true, true_or, true_and]
    split <;> rfl
  · simp only [off, other, false_and, and_false, if_false]
    rfl

private theorem assign_other (small : id ≠ 15) (other : ¬OfGsv id) {sent : UInt32} (apart : sent ≠ 15)
    (streams : Streams) (enable : Rmci → UInt32 → Rmci) (k : Nat) :
    (streams.assign pHandle options enable period (streams.constMask, sent)).constMask k =
      (maskOf options k (id, period)).getD (streams.constMask k) := by
  unfold Streams.assign maskOf
  simp only [apart, small, other, false_and, and_false, or_self, if_false, ite_self]
  rfl

private theorem grmciPair_constMask (k : Nat) (streams : Streams) (pair : UInt32 × UInt8) :
    (grmciPair wide pHandle options streams pair.1 pair.2).constMask k =
      (maskOf options k pair).getD (streams.constMask k) := by
  obtain ⟨id, period⟩ := pair
  unfold grmciPair grmciId
  dsimp only
  by_cases small : id = 15
  · subst small
    rw [if_pos rfl, parse_other (by decide)]
    exact assign_plain streams _ rfl
  rw [if_neg small]
  by_cases gsv : OfGsv id
  · rw [if_pos (UInt32.le_trans (by decide) gsv.1)]
    exact assign_gsv gsv streams _ k
  · by_cases large : 256 ≤ id
    · rw [if_pos large, parse_other gsv]
      exact assign_other small gsv (by decide) streams _ k
    · rw [if_neg large]
      exact assign_other small gsv small streams _ k

/-- The mask that a pair sets in `nmea_parse_asce`. -/
private theorem ascePair_constMask (k : Nat) (streams : Streams) (pair : UInt32 × UInt8) :
    (ascePair wide pHandle options streams pair.1 pair.2).constMask k =
      (if Plain pair ∧ k ≤ 6 then some 0x0F else maskOf options k pair).getD
        (streams.constMask k) := by
  obtain ⟨id, period⟩ := pair
  unfold ascePair asceId
  dsimp only
  by_cases small : id = 15
  · subst small
    obtain ⟨masks, -⟩ := @parse_gsv 3855 period (by decide) streams.constMask
    have all : ((3855 &&& 0xF0 : UInt32) >>> 4).toNat = 0 := by decide
    have here := masks k
    rw [all] at here
    rw [if_pos rfl]
    by_cases plain : Plain (15, period) ∧ k ≤ 6
    · rw [if_pos plain]
      rw [if_pos ⟨plain.1.2, .inl ⟨rfl, plain.2⟩⟩] at here
      unfold Streams.assign
      dsimp only
      rw [if_neg fun both => plain.1.2 both.2.2.1, here]
      rfl
    · rw [if_neg plain]
      refine assign_plain streams _ (here.trans (if_neg ?_))
      rintro ⟨on, ⟨-, few⟩ | ⟨none, -⟩⟩
      · exact plain ⟨⟨rfl, on⟩, few⟩
      · exact absurd none (by decide)
  have other : ¬(Plain (id, period) ∧ k ≤ 6) := fun both => small both.1.1
  rw [if_neg other, if_neg small]
  by_cases gsv : 3840 ≤ id ∧ id ≤ 3951
  · rw [if_pos gsv]
    exact assign_gsv gsv streams _ k
  · rw [if_neg gsv]
    exact assign_other small gsv small streams _ k

private theorem ids_same (known : ¬Foreign id) (first second : Nat → UInt8) :
    (asceId first id period).2 = (grmciId second id period).2 := by
  have same : (parseAsceGsv first id period).2 = (parseAsceGsv second id period).2 := by
    unfold parseAsceGsv
    dsimp only
    split_ifs <;> rfl
  unfold asceId grmciId
  by_cases small : id = 15
  · rw [if_pos small, if_pos small]
  rw [if_neg small, if_neg small]
  by_cases gsv : 3840 ≤ id ∧ id ≤ 3951
  · rw [if_pos gsv, if_pos (UInt32.le_trans (by decide) gsv.1), same]
  · have few : ¬256 ≤ id := fun large => known ⟨large, gsv⟩
    rw [if_neg gsv, if_neg few]

private theorem parse_id (constMask : Nat → UInt8) :
    (parseAsceGsv constMask id period).2 = 15 ∨ (parseAsceGsv constMask id period).2 = 0 := by
  unfold parseAsceGsv
  dsimp only
  split_ifs <;> simp

private theorem asceId_foreign {other : UInt32} (foreign : Foreign id) (constMask : Nat → UInt8) :
    (asceId constMask other period).2 = id ↔ other = id := by
  obtain ⟨large, outside⟩ := foreign
  have small : id ≠ 15 ∧ id ≠ 0 := by
    constructor <;> rintro rfl <;> exact absurd large (by decide)
  unfold asceId
  by_cases plain : other = 15
  · rw [if_pos plain]
  rw [if_neg plain]
  by_cases gsv : 3840 ≤ other ∧ other ≤ 3951
  · rw [if_pos gsv]
    refine iff_of_false (fun same => ?_) (fun same => outside (same ▸ gsv))
    obtain found | found := @parse_id other period constMask
    · exact small.1 (same.symm.trans found)
    · exact small.2 (same.symm.trans found)
  · rw [if_neg gsv]

private theorem grmciId_small (constMask : Nat → UInt8) : (grmciId constMask id period).2 < 256 := by
  unfold grmciId
  by_cases plain : id = 15
  · rw [if_pos plain, plain]
    exact (by decide : (15 : UInt32) < 256)
  rw [if_neg plain]
  by_cases large : 256 ≤ id
  · rw [if_pos large]
    obtain found | found := @parse_id id period constMask <;> rw [found] <;> decide
  · rw [if_neg large]
    exact UInt32.not_le.mp large

end Pair

section Pairs

variable (wide : UInt32 → UInt32) (pHandle : Int) (options : UInt32) (pairs : List (UInt32 × UInt8))

/-- The pairs one after the other in `nmea_parse_asce`. -/
def ascePairs (streams : Streams) : Streams :=
  pairs.foldl (fun streams read => ascePair wide pHandle options streams read.1 read.2) streams

/-- The pairs one after the other in `nmea_parse_asce_grmci`. -/
def grmciPairs (streams : Streams) : Streams :=
  pairs.foldl (fun streams read => grmciPair wide pHandle options streams read.1 read.2) streams

def Streams.even (period : UInt8) : Streams where
  rmci _ := { options := 0, rmcNmea := { nmeaBits := 0, nmeaPeriod := fun _ => period } }
  constMask _ := 0

variable {wide pHandle options pairs}

private theorem rmci_agree
    (known : ∀ pair ∈ pairs, Foreign pair.1 → ∀ port, selects pHandle options port = false)
    {first second : Streams} (same : ∀ port, (first.rmci port).rmcNmea = (second.rmci port).rmcNmea)
    (port : Int) :
    ((ascePairs wide pHandle options pairs first).rmci port).rmcNmea =
      ((grmciPairs wide pHandle options pairs second).rmci port).rmcNmea := by
  induction pairs generalizing first second with
  | nil => exact same port
  | cons pair pairs ih =>
    obtain ⟨here, later⟩ := List.forall_mem_cons.mp known
    refine @ih later (ascePair wide pHandle options first pair.1 pair.2)
      (grmciPair wide pHandle options second pair.1 pair.2) fun port => ?_
    rw [ascePair_rmci, grmciPair_rmci, same port]
    by_cases foreign : Foreign pair.1
    · rw [here foreign port, if_neg Bool.false_ne_true, if_neg Bool.false_ne_true]
    · rw [ids_same foreign first.constMask second.constMask]

/-- The period that stays for a foreign id is the last one in one copy, and the first in the other. -/
private theorem foreign_period {id : UInt32} (foreign : Foreign id) {port : Int}
    (selected : selects pHandle options port = true) (streams : Streams) :
    ((ascePairs wide pHandle options pairs streams).rmci port).rmcNmea.nmeaPeriod id.toNat =
        (lastOf (fun pair => if pair.1 = id then some pair.2 else none) pairs).getD
          ((streams.rmci port).rmcNmea.nmeaPeriod id.toNat) ∧
      ((grmciPairs wide pHandle options pairs streams).rmci port).rmcNmea.nmeaPeriod id.toNat =
        (streams.rmci port).rmcNmea.nmeaPeriod id.toNat := by
  constructor
  · refine @foldl_lastOf _ _ _ _ _
      (fun streams : Streams => (streams.rmci port).rmcNmea.nmeaPeriod id.toNat) (fun streams pair => ?_) _ _
    have place := @asceId_foreign id pair.2 pair.1 foreign streams.constMask
    rw [ascePair_rmci, if_pos selected]
    unfold RmcNmea.enableStream
    dsimp only
    by_cases same : pair.1 = id
    · rw [place.mpr same, if_pos rfl, if_pos same]
      rfl
    · rw [if_neg fun here => same (place.mp (UInt32.toNat_inj.mp here.symm)), if_neg same]
      rfl
  · have kept := @foldl_lastOf _ _ _ (fun _ => none)
      (fun streams pair => grmciPair wide pHandle options streams pair.1 pair.2)
      (fun streams : Streams => (streams.rmci port).rmcNmea.nmeaPeriod id.toNat)
      (fun streams (pair : UInt32 × UInt8) => ?_) pairs streams
    · rw [lastOf_eq_none_iff.mpr fun _ _ => rfl] at kept
      exact kept
    · have low := @grmciId_small pair.1 pair.2 streams.constMask
      rw [grmciPair_rmci, if_pos selected]
      unfold RmcNmea.enableStream
      refine if_neg fun here => ?_
      rw [← UInt32.toNat_inj.mp here] at low
      exact absurd low (UInt32.not_lt.mpr foreign.1)

private theorem masks_eq (k : Nat) (streams : Streams) :
    (ascePairs wide pHandle options pairs streams).constMask k =
        (lastOf (fun pair => if Plain pair ∧ k ≤ 6 then some 0x0F else maskOf options k pair)
          pairs).getD (streams.constMask k) ∧
      (grmciPairs wide pHandle options pairs streams).constMask k =
        (lastOf (maskOf options k) pairs).getD (streams.constMask k) :=
  ⟨@foldl_lastOf _ _ _ _ _ (fun streams : Streams => streams.constMask k) (ascePair_constMask k) _ _,
    @foldl_lastOf _ _ _ _ _ (fun streams : Streams => streams.constMask k) (grmciPair_constMask k) _ _⟩

private theorem last_masks_iff {k : Nat} (few : k ≤ 6) :
    lastOf (fun pair => if Plain pair ∧ k ≤ 6 then some 0x0F else maskOf options k pair) pairs =
        lastOf (maskOf options k) pairs ↔
      ∀ before pair after, pairs = before ++ pair :: after → Plain pair →
        (lastOf (maskOf options k) after).isSome ∨ lastOf (maskOf options k) before = some 0x0F := by
  refine lastOf_eq_iff (fun pair plain => ⟨if_pos ⟨plain, few⟩, ?_⟩)
    fun pair other => if_neg fun both => other both.1
  obtain ⟨gsv, on⟩ := plain
  unfold maskOf
  rw [if_neg on, gsv]
  exact if_neg fun both => absurd both.1 (by decide)

private theorem eq_of_getD {first second : Option UInt8}
    (same : ∀ value, first.getD value = second.getD value) : first = second := by
  cases first with
  | none =>
    cases second with
    | none => rfl
    | some mask => simpa using same (mask + 1)
  | some mask =>
    cases second with
    | none => simpa using same (mask + 1)
    | some other => exact congrArg some (same 0)

private theorem pairs_agree_iff :
    (∀ first second : Streams, first.shown = second.shown →
      (ascePairs wide pHandle options pairs first).shown =
        (grmciPairs wide pHandle options pairs second).shown) ↔
      Agreeing pHandle options pairs := by
  constructor
  · intro agree
    constructor
    · intro pair member foreign port
      by_contra some
      have selected := Bool.eq_true_of_not_eq_false some
      obtain ⟨last, set⟩ := Option.isSome_iff_exists.mp
        (lastOf_isSome_iff.mpr ⟨pair, member, by rw [if_pos rfl]; rfl⟩ :
          (lastOf (fun other => if other.1 = pair.1 then Option.some other.2 else none)
            pairs).isSome)
      obtain ⟨one, two⟩ := @foreign_period wide pHandle options pairs _ foreign _ selected
        (.even (last + 1))
      have ports := (shown_eq_iff.mp (agree (.even (last + 1)) (.even (last + 1)) rfl)).1 port
      rw [ports, two, set] at one
      have kept : last + 1 = last := one
      simp at kept
    · intro k few
      refine (last_masks_iff few).mp (eq_of_getD fun value => ?_)
      let start : Streams := { Streams.even 0 with constMask := fun _ => value }
      have masks := congrFun (shown_eq_iff.mp (agree start start rfl)).2 k
      rwa [(masks_eq k start).1, (masks_eq k start).2] at masks
  · rintro ⟨known, masks⟩ first second same
    obtain ⟨ports, start⟩ := shown_eq_iff.mp same
    refine shown_eq_iff.mpr ⟨rmci_agree known ports, funext fun k => ?_⟩
    rw [(masks_eq k first).1, (masks_eq k second).2, start]
    by_cases few : k ≤ 6
    · rw [(last_masks_iff few).mpr (masks k few)]
    · simp only [few, and_false, if_false]

end Pairs

/-- What a handler returns and sets. -/
def shownResult (result : Option (UInt32 × Streams)) :
    Option (UInt32 × (Int → RmcNmea) × (Nat → UInt8)) :=
  result.map fun result => (result.1, result.2.shown)

/-- The two copies return the same options for a sentence, and set the same. -/
def CopiesAgree (wide : UInt32 → UInt32) (pHandle : Int) (s : Sentence) : Prop :=
  ∀ first second : Streams, first.shown = second.shown →
    shownResult (nmeaParseAsce wide pHandle s first) =
      shownResult (nmeaParseAsceGrmci wide pHandle s second)

def Sentence.Reads (s : Sentence) (pHandle : Int) (options : UInt32)
    (pairs : List (UInt32 × UInt8)) : Prop :=
  pHandle < numComPorts ∧ ∃ field ptr, s.findNextField 6 = some (field, ptr) ∧
    options = UInt32.ofInt (atoi field) ∧ s.pairs 20 ptr = some pairs

/-- The copies agree on a sentence exactly when no pair has a foreign id for a port, and no plain id
is what sets the mask of a constellation last, unless to what it was. -/
theorem copiesAgree_iff (wide : UInt32 → UInt32) (pHandle : Int) (s : Sentence) :
    CopiesAgree wide pHandle s ↔
      ∀ options pairs, s.Reads pHandle options pairs → Agreeing pHandle options pairs := by
  unfold CopiesAgree nmeaParseAsce nmeaParseAsceGrmci Sentence.parse
  by_cases refused : numComPorts ≤ pHandle
  · simp only [if_pos refused]
    refine iff_of_true (fun first second same => ?_)
      fun _ _ reads => absurd reads.1 (Int.not_lt.mpr refused)
    unfold shownResult
    rw [Option.map_some, Option.map_some, same]
  simp only [if_neg refused]
  cases read : s.findNextField 6 with
  | none =>
    refine iff_of_true (fun _ _ _ => rfl) ?_
    rintro options pairs ⟨-, field, ptr, found, -⟩
    rw [read] at found
    cases found
  | some found =>
    obtain ⟨field, ptr⟩ := found
    simp only [Option.bind_eq_bind, Option.bind_some, loop_eq_pairs]
    cases taken : s.pairs 20 ptr with
    | none =>
      refine iff_of_true (fun _ _ _ => rfl) ?_
      rintro options pairs ⟨-, field', ptr', found, -, taken'⟩
      obtain ⟨rfl, rfl⟩ := Prod.mk.inj (Option.some.inj (read.symm.trans found))
      rw [taken] at taken'
      cases taken'
    | some pairs =>
      have own : s.Reads pHandle (UInt32.ofInt (atoi field)) pairs :=
        ⟨Int.not_le.mp refused, field, ptr, read, rfl, taken⟩
      have agree := @pairs_agree_iff wide pHandle (UInt32.ofInt (atoi field)) pairs
      constructor
      · rintro same options pairs' ⟨-, field', ptr', found, rfl, taken'⟩
        obtain ⟨rfl, rfl⟩ := Prod.mk.inj (Option.some.inj (read.symm.trans found))
        obtain rfl := Option.some.inj (taken.symm.trans taken')
        refine agree.mp fun first second start => ?_
        exact (Prod.mk.inj (Option.some.inj (same first second start))).2
      · intro settled first second start
        have final := agree.mpr (settled _ _ own) first second start
        exact congrArg (fun shown => some (UInt32.ofInt (atoi field), shown)) final

/-- A sentence in memory that ends with it. -/
def Sentence.ofText (text : List Char) : Sentence where
  a k := (text.getD k '\x00').toUInt8
  aSize := text.length
  size := text.length

/-- `$ASCE,0,15,1`: GSV by its plain id. -/
theorem plainGsv_differs : ¬CopiesAgree id 0 (.ofText
    ['$', 'A', 'S', 'C', 'E', ',', '0', ',', '1', '5', ',', '1', '*', '3', 'D', '\r', '\n']) := by
  intro agree
  have masks := congrArg (Option.map fun shown => shown.2.2 0) (agree (.even 0) (.even 0) rfl)
  revert masks
  decide +kernel

end InertialSense.Nmea
