import InertialSense.Comm.Verdict
import InertialSense.Foundation.Run
import InertialSense.Nmea.Reads

/-! What the parsers of `$ASCE` write: the ids of the pairs are not compared with the size of the
table. -/

namespace InertialSense.Nmea

open Foundation

/-! ### Bits and periods -/

/-- For each message the bit is set exactly when its period is not 0. -/
def RmcNmea.Related (rmc : RmcNmea) : Prop :=
  ∀ i < nmeaMsgIdCount, rmc.nmeaBits.toNat.testBit i = decide (rmc.nmeaPeriod i ≠ 0)

section Stream

variable {wide : UInt32 → UInt32} {rmc : RmcNmea} {nmeaId : UInt32}

private theorem nmeaBit_toNat (wide : UInt32 → UInt32) (small : nmeaId.toNat < nmeaMsgIdCount) :
    (nmeaBit wide nmeaId).toNat = 2 ^ nmeaId.toNat := by
  unfold nmeaMsgIdCount at small
  have near : nmeaId < 32 := UInt32.lt_iff_toNat_lt.mpr (by change nmeaId.toNat < 32; omega)
  have fits : 2 ^ nmeaId.toNat < 2 ^ 32 := Nat.pow_lt_pow_right (by decide) (by omega)
  unfold nmeaBit
  rw [if_pos near, UInt32.toNat_shiftLeft, Nat.mod_eq_of_lt (show nmeaId.toNat < 32 by omega),
    Nat.shiftLeft_eq]
  simpa using fits

/-- Only the bit of the message is set or cleared. -/
theorem enableStream_testBit (small : nmeaId.toNat < nmeaMsgIdCount) (period : UInt8)
    {i : Nat} (inside : i < 32) :
    (rmc.enableStream wide nmeaId period).nmeaBits.toNat.testBit i =
      if i = nmeaId.toNat then decide (period ≠ 0) else rmc.nmeaBits.toNat.testBit i := by
  have bit := nmeaBit_toNat wide small
  unfold RmcNmea.enableStream
  dsimp only
  split
  case isTrue on =>
    rw [UInt32.toNat_or, bit, Nat.testBit_or, Nat.testBit_two_pow]
    by_cases same : i = nmeaId.toNat
    · simp [same, on]
    · simp [same, Ne.symm same]
  case isFalse off =>
    unfold nmeaMsgIdCount at small
    have below : 2 ^ nmeaId.toNat < 2 ^ 32 := Nat.pow_lt_pow_right (by decide) (by omega)
    have rest : UInt32.size - 1 - 2 ^ nmeaId.toNat = 2 ^ 32 - (2 ^ nmeaId.toNat + 1) := by
      change 2 ^ 32 - 1 - _ = _
      omega
    rw [UInt32.toNat_and, UInt32.toNat_not, bit, Nat.testBit_and, rest,
      Nat.testBit_two_pow_sub_succ below, Nat.testBit_two_pow]
    by_cases same : i = nmeaId.toNat
    · simp [same, off]
    · simp [same, Ne.symm same, inside]

/-- Setting the period of a message keeps the relation. -/
theorem RmcNmea.Related.enableStream (related : rmc.Related)
    (small : nmeaId.toNat < nmeaMsgIdCount) (period : UInt8) :
    (rmc.enableStream wide nmeaId period).Related := by
  intro i inside
  have within : i < 32 := Nat.lt_trans inside (by decide)
  rw [enableStream_testBit small period within, related i inside]
  unfold RmcNmea.enableStream
  dsimp only
  split <;> rfl

/-- Setting the period that a message has changes nothing. -/
theorem RmcNmea.Related.enableStream_same (related : rmc.Related)
    (small : nmeaId.toNat < nmeaMsgIdCount) :
    rmc.enableStream wide nmeaId (rmc.nmeaPeriod nmeaId.toNat) = rmc := by
  ext place
  · refine Nat.eq_of_testBit_eq fun i => ?_
    by_cases inside : i < 32
    · rw [enableStream_testBit small _ inside]
      split
      case isTrue same => rw [same, related _ small]
      case isFalse other => rfl
    · have power : 2 ^ 32 ≤ 2 ^ i := Nat.pow_le_pow_right (by decide) (by omega)
      rw [Nat.testBit_lt_two_pow (Nat.lt_of_lt_of_le (UInt32.toNat_lt _) power),
        Nat.testBit_lt_two_pow (Nat.lt_of_lt_of_le (UInt32.toNat_lt _) power)]
  · unfold RmcNmea.enableStream
    dsimp only
    split
    case isTrue same => rw [same]
    case isFalse other => rfl

end Stream

/-! ### What a pair is to do -/

/-- An id of the table, or one of GSV whose constellation has a mask. -/
def KnownId (id : UInt32) : Prop :=
  id.toNat < nmeaMsgIdCount ∨
    3840 ≤ id ∧ id ≤ 3951 ∧ ((id &&& 0xF0) >>> 4).toNat ∈ [0, 1, 3, 4, 5, 6]

/-- The two copies of the parser. -/
inductive Copy where
  | asce
  | grmci

section Copies

variable (wide : UInt32 → UInt32) (pHandle : Int) (options : UInt32)

def Copy.pair : Copy → Streams → UInt32 → UInt8 → Streams
  | .asce => ascePair wide pHandle options
  | .grmci => grmciPair wide pHandle options

/-- The masks, and the id that a copy sets. -/
def Copy.ids : Copy → (Nat → UInt8) → UInt32 → UInt8 → (Nat → UInt8) × UInt32
  | .asce => asceId
  | .grmci => grmciId

/-- The options that a copy sets on the port. -/
def Copy.extra : Copy → UInt32
  | .asce => 0
  | .grmci => options &&& 0x200

/-- What a pair is to do, from the streams before and after it. -/
structure Keeps (copy : Copy) (before after : Streams) (id : UInt32) (period : UInt8) : Prop where
  written : ∀ port, selects pHandle options port = true → 0 ≤ port ∧ port < numComPorts ∧
    (copy.ids before.constMask id period).2.toNat < nmeaMsgIdCount
  others : ∀ port place, ¬(selects pHandle options port = true ∧
      place = (copy.ids before.constMask id period).2.toNat) →
    (after.rmci port).rmcNmea.nmeaPeriod place = (before.rmci port).rmcNmea.nmeaPeriod place
  unknown : ¬KnownId id → after = before
  related : (∀ port, (before.rmci port).rmcNmea.Related) → ∀ port, (after.rmci port).rmcNmea.Related

/-- The place that an unknown id is taken for: itself, the first one, or GSV to turn it off. -/
def Copy.stray (copy : Copy) (id : UInt32) (period : UInt8) : UInt32 :=
  if 3840 ≤ id ∧ id ≤ 3951 then if period = 0 then 15 else 0
  else match copy with
    | .asce => id
    | .grmci => if 256 ≤ id then 0 else id

/-- All that an unknown id would set is set already, and in the table. -/
structure Already (copy : Copy) (streams : Streams) (id : UInt32) (period : UInt8) : Prop where
  ports : ∀ port, selects pHandle options port = true →
    (copy.stray id period).toNat < nmeaMsgIdCount ∧
      (streams.rmci port).rmcNmea.nmeaPeriod (copy.stray id period).toNat = period ∧
      (streams.rmci port).options ||| copy.extra options = (streams.rmci port).options
  masks : options &&& 0xFF = 0xFF → copy.stray id period = 15 → period = 0 →
    ∀ k < 9, streams.constMask k = 0

end Copies

section Pair

variable {wide : UInt32 → UInt32} {pHandle : Int} {options id : UInt32} {period : UInt8}
  {copy : Copy} {streams : Streams}

private theorem pair_eq (copy : Copy) :
    copy.pair wide pHandle options streams id period =
      streams.assign pHandle options
        (fun rmci id =>
          { options := rmci.options ||| copy.extra options
            rmcNmea := rmci.rmcNmea.enableStream wide id period })
        period (copy.ids streams.constMask id period) := by
  cases copy with
  | asce =>
    unfold Copy.pair Copy.extra ascePair
    simp only [UInt32.or_zero]
    rfl
  | grmci => rfl

private theorem parseAsceGsv_known {constMask : Nat → UInt8} (low : 3840 ≤ id) (high : id ≤ 3951)
    (target : ((id &&& 0xF0) >>> 4).toNat ∈ [0, 1, 3, 4, 5, 6]) :
    (parseAsceGsv constMask id period).2 = 15 := by
  have inside : ¬(id < 3840 ∨ 3951 < id) := by
    rw [not_or, UInt32.not_lt, UInt32.not_lt]
    exact ⟨low, high⟩
  unfold parseAsceGsv
  dsimp only
  rw [if_neg inside]
  split
  · rfl
  split
  · rfl
  case isFalse other =>
    rw [List.mem_cons] at target
    rw [if_pos (target.resolve_left other)]

private theorem parseAsceGsv_unknown {constMask : Nat → UInt8}
    (unknown : 3840 ≤ id ∧ id ≤ 3951 → ((id &&& 0xF0) >>> 4).toNat ∉ [0, 1, 3, 4, 5, 6]) :
    parseAsceGsv constMask id period =
      (constMask, if 3840 ≤ id ∧ id ≤ 3951 then if period = 0 then 15 else 0 else 0) := by
  unfold parseAsceGsv
  dsimp only
  by_cases inside : 3840 ≤ id ∧ id ≤ 3951
  · have target := unknown inside
    rw [List.mem_cons, not_or] at target
    have within : ¬(id < 3840 ∨ 3951 < id) := by
      rw [not_or, UInt32.not_lt, UInt32.not_lt]
      exact inside
    rw [if_neg within, if_pos inside, if_neg target.1, if_neg target.2]
    split <;> rfl
  · have outside : id < 3840 ∨ 3951 < id := by
      rw [not_and_or, UInt32.not_le, UInt32.not_le] at inside
      exact inside
    rw [if_pos outside, if_neg inside]

private theorem range_small (inside : 3840 ≤ id) : ¬id.toNat < nmeaMsgIdCount := by
  have low : 3840 ≤ id.toNat := UInt32.le_iff_toNat_le.mp inside
  unfold nmeaMsgIdCount
  omega

/-- A known id stands for a place of the table. -/
private theorem ids_known (known : KnownId id) (constMask : Nat → UInt8) (copy : Copy) :
    (copy.ids constMask id period).2.toNat < nmeaMsgIdCount := by
  have gsv (low : 3840 ≤ id) (high : id ≤ 3951) :
      (parseAsceGsv constMask id period).2.toNat < nmeaMsgIdCount := by
    obtain small | ⟨-, -, target⟩ := known
    · exact absurd small (range_small low)
    · rw [parseAsceGsv_known low high target]
      decide
  cases copy with
  | asce =>
    unfold Copy.ids asceId
    dsimp only
    split
    case isTrue plain =>
      dsimp only
      rw [plain]
      decide
    split
    case isTrue inside => exact gsv inside.1 inside.2
    case isFalse outside =>
      obtain small | ⟨low, high, -⟩ := known
      · exact small
      · exact absurd ⟨low, high⟩ outside
  | grmci =>
    unfold Copy.ids grmciId
    dsimp only
    split
    case isTrue plain =>
      dsimp only
      rw [plain]
      decide
    split
    case isTrue large =>
      obtain small | ⟨low, high, -⟩ := known
      · have wide : 256 ≤ id.toNat := UInt32.le_iff_toNat_le.mp large
        unfold nmeaMsgIdCount at small
        omega
      · exact gsv low high
    case isFalse other =>
      obtain small | ⟨low, -⟩ := known
      · exact small
      · exact absurd (UInt32.le_trans (by decide) low) other

/-- An unknown id changes no mask by itself, and is taken for another one. -/
private theorem ids_unknown (unknown : ¬KnownId id) (constMask : Nat → UInt8) (copy : Copy) :
    copy.ids constMask id period = (constMask, copy.stray id period) := by
  have plain : id ≠ 15 := by
    rintro rfl
    exact unknown (.inl (by decide))
  have target : 3840 ≤ id ∧ id ≤ 3951 → ((id &&& 0xF0) >>> 4).toNat ∉ [0, 1, 3, 4, 5, 6] :=
    fun inside target => unknown (.inr ⟨inside.1, inside.2, target⟩)
  cases copy with
  | asce =>
    unfold Copy.ids asceId Copy.stray
    dsimp only
    rw [if_neg plain, parseAsceGsv_unknown target]
    split
    case isTrue inside => rfl
    case isFalse outside => rfl
  | grmci =>
    unfold Copy.ids grmciId Copy.stray
    dsimp only
    rw [if_neg plain, parseAsceGsv_unknown target]
    by_cases inside : 3840 ≤ id ∧ id ≤ 3951
    · have large : 256 ≤ id := UInt32.le_trans (by decide) inside.1
      rw [if_pos large, if_pos inside, if_pos inside]
    · rw [if_neg inside, if_neg inside]
      split <;> rfl

private theorem selects_port (low : 0 ≤ pHandle) (high : pHandle < numComPorts) {port : Int}
    (selected : selects pHandle options port = true) : 0 ≤ port ∧ port < numComPorts := by
  unfold numComPorts at high
  unfold selects numComPorts at *
  dsimp only at selected
  split at selected
  case isTrue current =>
    rw [decide_eq_true_iff] at selected
    omega
  split at selected
  case isTrue all => exact of_decide_eq_true selected
  case isFalse some =>
    rw [decide_eq_true_iff] at selected
    omega

private theorem pair_rmci (copy : Copy) (port : Int) :
    (copy.pair wide pHandle options streams id period).rmci port =
      if selects pHandle options port then
        { options := (streams.rmci port).options ||| copy.extra options
          rmcNmea := (streams.rmci port).rmcNmea.enableStream wide
            (copy.ids streams.constMask id period).2 period }
      else streams.rmci port := by
  rw [pair_eq]
  rfl

private theorem keeps_of_table (low : 0 ≤ pHandle) (high : pHandle < numComPorts)
    (table : ∀ port, selects pHandle options port = true →
      (copy.ids streams.constMask id period).2.toNat < nmeaMsgIdCount)
    (unknown : ¬KnownId id → copy.pair wide pHandle options streams id period = streams) :
    Keeps pHandle options copy streams (copy.pair wide pHandle options streams id period) id
      period where
  written port selected :=
    ⟨(selects_port low high selected).1, (selects_port low high selected).2, table port selected⟩
  others port place other := by
    rw [pair_rmci]
    split
    case isTrue selected =>
      unfold RmcNmea.enableStream
      dsimp only
      rw [if_neg fun same => other ⟨selected, same⟩]
    case isFalse free => rfl
  unknown := unknown
  related related port := by
    rw [pair_rmci]
    split
    case isTrue selected => exact (related port).enableStream (table port selected) period
    case isFalse free => exact related port

private theorem pair_already (related : ∀ port, (streams.rmci port).rmcNmea.Related)
    (unknown : ¬KnownId id) (already : Already pHandle options copy streams id period) :
    copy.pair wide pHandle options streams id period = streams := by
  refine Streams.ext (funext fun port => ?_) (funext fun k => ?_)
  · rw [pair_rmci, ids_unknown unknown]
    split
    case isTrue selected =>
      obtain ⟨small, period', options'⟩ := already.ports port selected
      have same := @RmcNmea.Related.enableStream_same wide _ _ (related port) small
      rw [period'] at same
      dsimp only
      rw [same, options']
    case isFalse free => rfl
  · rw [pair_eq]
    unfold Streams.assign
    dsimp only
    rw [ids_unknown unknown]
    split
    case isTrue all =>
      obtain ⟨ports, gsv, off, few⟩ := all
      exact (already.masks ports gsv off k few).symm
    case isFalse some => rfl

private theorem already_of_keeps (unknown : ¬KnownId id)
    (keeps : Keeps pHandle options copy streams (copy.pair wide pHandle options streams id period)
      id period) : Already pHandle options copy streams id period := by
  have same := keeps.unknown unknown
  refine ⟨fun port selected => ?_, fun ports gsv off k few => ?_⟩
  · obtain ⟨-, -, small⟩ := keeps.written port selected
    rw [ids_unknown unknown] at small
    have there := congrArg (fun after => after.rmci port) same
    rw [pair_rmci, if_pos selected, ids_unknown unknown] at there
    have periods := congrArg (fun rmci => rmci.rmcNmea.nmeaPeriod (copy.stray id period).toNat) there
    refine ⟨small, ?_, congrArg Rmci.options there⟩
    unfold RmcNmea.enableStream at periods
    dsimp only at periods
    rw [if_pos rfl] at periods
    exact periods.symm
  · have there := congrArg (fun after => after.constMask k) same
    rw [pair_eq] at there
    unfold Streams.assign at there
    dsimp only at there
    rw [ids_unknown unknown, if_pos ⟨ports, gsv, off, few⟩] at there
    exact there.symm

theorem keeps_iff (low : 0 ≤ pHandle) (high : pHandle < numComPorts)
    (related : ∀ port, (streams.rmci port).rmcNmea.Related) (copy : Copy) :
    Keeps pHandle options copy streams (copy.pair wide pHandle options streams id period) id
        period ↔ KnownId id ∨ Already pHandle options copy streams id period := by
  constructor
  · intro keeps
    by_cases known : KnownId id
    · exact .inl known
    · exact .inr (already_of_keeps known keeps)
  · intro good
    by_cases known : KnownId id
    · exact keeps_of_table low high (fun _ _ => ids_known known _ copy)
        fun unknown => absurd known unknown
    · have already := good.resolve_left known
      refine keeps_of_table low high (fun port selected => ?_)
        fun unknown => pair_already related unknown already
      rw [ids_unknown known]
      exact (already.ports port selected).1

end Pair

/-! ### A whole sentence -/

def Copy.step (wide : UInt32 → UInt32) (pHandle : Int) (options : UInt32) (copy : Copy)
    (streams : Streams) (each : UInt32 × UInt8) : Streams × Unit :=
  (copy.pair wide pHandle options streams each.1 each.2, ())

def Sentence.read (s : Sentence) : Option (UInt32 × List (UInt32 × UInt8)) := do
  let (field, ptr) ← s.findNextField 6
  let pairs ← s.pairs 20 ptr
  pure (UInt32.ofInt (atoi field), pairs)

theorem parse_eq_read {s : Sentence} {pHandle : Int} (high : pHandle < numComPorts)
    (pair : UInt32 → Streams → UInt32 → UInt8 → Streams) (streams : Streams) :
    s.parse pHandle pair streams = s.read.map fun read =>
      (read.1, read.2.foldl (fun streams each => pair read.1 streams each.1 each.2) streams) := by
  unfold Sentence.parse Sentence.read
  rw [if_neg (by omega)]
  cases s.findNextField 6 with
  | none => rfl
  | some found =>
    obtain ⟨field, ptr⟩ := found
    simp only [Option.bind_eq_bind, Option.bind_some, loop_eq_pairs]
    cases s.pairs 20 ptr with
    | none => rfl
    | some pairs => rfl

/-- The two parsers. -/
def Copy.parse (wide : UInt32 → UInt32) (pHandle : Int) :
    Copy → Sentence → Streams → Option (UInt32 × Streams)
  | .asce => nmeaParseAsce wide pHandle
  | .grmci => nmeaParseAsceGrmci wide pHandle

/-- The parsers read only the sentence, do with every pair what it is to do, and end with bits that
are set as the periods are. -/
structure StaysInTable (wide : UInt32 → UInt32) (pHandle : Int) (s : Sentence)
    (streams : Streams) : Prop where
  inside : s.ReadsInside
  pairs : ∀ options pairs, s.alone.read = some (options, pairs) → ∀ copy : Copy,
    Along (copy.step wide pHandle options) (fun before each =>
      Keeps pHandle options copy before (copy.step wide pHandle options before each).1
        each.1 each.2) streams pairs
  related : ∀ copy : Copy, ∃ options after,
    copy.parse wide pHandle s.alone streams = some (options, after) ∧
      ∀ port, (after.rmci port).rmcNmea.Related

private theorem copy_parse (copy : Copy) {wide : UInt32 → UInt32} {pHandle : Int} {s : Sentence}
    (high : pHandle < numComPorts) (streams : Streams) :
    copy.parse wide pHandle s streams = s.read.map fun read =>
      (read.1, (run (copy.step wide pHandle read.1) streams read.2).1) := by
  simp only [run_fst]
  cases copy with
  | asce => exact parse_eq_read high _ streams
  | grmci => exact parse_eq_read high _ streams

private theorem read_of_readsInside {s : Sentence} (inside : s.ReadsInside) :
    ∃ read, s.alone.read = some read := by
  obtain ⟨field, ptr, found, whole, -⟩ := inside
  obtain ⟨pairs, taken⟩ := Option.isSome_iff_exists.mp whole
  refine ⟨(UInt32.ofInt (atoi field), pairs), ?_⟩
  unfold Sentence.read
  rw [found]
  simp [taken]

/-- The parsers stay in the table exactly when the fields and the names of the sentence end in it,
and every id is known, or what it would set is set already. -/
theorem staysInTable_iff (wide : UInt32 → UInt32) {pHandle : Int} (low : 0 ≤ pHandle)
    (high : pHandle < numComPorts) (s : Sentence) {streams : Streams}
    (related : ∀ port, (streams.rmci port).rmcNmea.Related) :
    StaysInTable wide pHandle s streams ↔
      ((s.Stops 6 ∨ 41 ≤ s.commas 6) ∧ s.NamesWhole) ∧
        ∀ options pairs, s.alone.read = some (options, pairs) → ∀ copy : Copy,
          Along (copy.step wide pHandle options) (fun before each =>
            KnownId each.1 ∨ Already pHandle options copy before each.1 each.2)
            streams pairs := by
  have keeps_iff (options : UInt32) (pairs : List (UInt32 × UInt8)) (copy : Copy) :=
    @Along.congr _ _ _ (copy.step wide pHandle options) _ _
      (fun streams : Streams => ∀ port, (streams.rmci port).rmcNmea.Related)
      (fun _ each related => @keeps_iff wide pHandle options each.1 each.2 _ low high related copy)
      (fun _ _ related keeps => keeps.related related) streams pairs related
  rw [← readsInside_iff]
  constructor
  · intro stays
    refine ⟨stays.inside, fun options pairs read copy => ?_⟩
    exact (keeps_iff options pairs copy).mp (stays.pairs options pairs read copy)
  · rintro ⟨inside, good⟩
    have keeps := fun options pairs read copy =>
      (keeps_iff options pairs copy).mpr (good options pairs read copy)
    refine ⟨inside, keeps, fun copy => ?_⟩
    obtain ⟨⟨options, pairs⟩, read⟩ := read_of_readsInside inside
    refine ⟨options, _, by rw [copy_parse copy high, read]; rfl, ?_⟩
    exact run_invariant (fun _ _ related keeps => keeps.related related) related
      (keeps options pairs read copy)

theorem even_related : ∀ port, ((Streams.even 0).rmci port).rmcNmea.Related := by
  intro port i _
  simp [Streams.even]

/-- GGA by its number, in each second message. -/
def ggaText : List Char :=
  ['$', 'A', 'S', 'C', 'E', ',', '0', ',', '7', ',', '2', '*', '0', 'D', '\r', '\n']

theorem gga_staysInTable : StaysInTable id 0 (.ofText ggaText) (.even 0) := by
  have inside : (Sentence.ofText ggaText).ReadsInside := by
    refine @readsInside_of_star _ 11 ?_ (by decide) (by decide)
    decide +kernel
  refine (staysInTable_iff id (Int.le_refl 0) (by decide) _ even_related).mpr
    ⟨readsInside_iff.mp inside, fun options pairs read copy => ?_⟩
  have parsed : (Sentence.ofText ggaText).alone.read = some (0, [(7, 2)]) := by decide +kernel
  obtain ⟨rfl, rfl⟩ := Prod.mk.inj (Option.some.inj (parsed.symm.trans read))
  exact ⟨.inl (.inl (by decide)), trivial⟩

/-- `$ASCE` and a packet that `processNmeaPkt` takes. -/
def Sentence.Accepted (s : Sentence) : Prop :=
  Comm.matchesAt s.a 1 "ASCE" = true ∧
    ∃ positive report, Comm.nmeaVerdict s.a s.aSize = .accepted s.aSize positive report

/-- An id behind the table. -/
def outsideText : List Char :=
  ['$', 'A', 'S', 'C', 'E', ',', '0', ',', '5', '0', ',', '1', '*', '3', 'C', '\r', '\n']

/-- `$ASCE,0,50,1` is accepted, and sets the period behind the table. -/
theorem outsideId_leaves :
    (Sentence.ofText outsideText).Accepted ∧ (∀ port, ((Streams.even 0).rmci port).rmcNmea.Related) ∧
      ¬StaysInTable id 0 (.ofText outsideText) (.even 0) := by
  refine ⟨?_, even_related, fun stays => ?_⟩
  · have ends : Comm.carriageReturn (Sentence.ofText outsideText).a 17 = some 15 := by
      decide +kernel
    refine ⟨by decide +kernel, ?_⟩
    change ∃ positive report, Comm.nmeaVerdict _ 17 = .accepted 17 positive report
    unfold Comm.nmeaVerdict
    rw [ends]
    dsimp only
    rw [if_neg (by decide), if_neg (by decide), if_neg (by decide), if_pos (by decide +kernel)]
    exact ⟨_, _, rfl⟩
  · have parsed : (Sentence.ofText outsideText).alone.read = some (0, [(50, 1)]) := by
      decide +kernel
    obtain ⟨keeps, -⟩ := stays.pairs 0 [(50, 1)] parsed .asce
    obtain ⟨-, -, small⟩ := keeps.written 0 (by decide)
    exact absurd small (by decide)

end InertialSense.Nmea
