import InertialSense.RingBuffer.Peek

/-! Searching the content: `ringBufReadToChar2` up to a delimiter, and `ringBufFind` for a string. -/

namespace InertialSense.RingBuffer

open Foundation

variable {rbuf : RingBuf}

theorem Inside.content_eq (inside : Inside rbuf) :
    rbuf.content = rbuf.circular rbuf.rdPtr rbuf.used := by
  simp [RingBuf.content, RingBuf.circular, inside.used_eq]

theorem Inside.content_length (inside : Inside rbuf) : rbuf.content.length = rbuf.used := by
  simp [inside.content_eq]

theorem Inside.used_lt (inside : Inside rbuf) : rbuf.used < rbuf.bufSize := by
  obtain ⟨rd, wr⟩ := inside
  unfold RingBuf.used
  split <;> omega

/-- The read pointer moved over so many used bytes. -/
theorem Inside.advance (inside : Inside rbuf) {count : Nat} (there : count ≤ rbuf.used) :
    Inside { rbuf with rdPtr := rbuf.wrap rbuf.rdPtr count } ∧
      ({ rbuf with rdPtr := rbuf.wrap rbuf.rdPtr count } : RingBuf).content =
        rbuf.content.drop count ∧
      rbuf.circular rbuf.rdPtr count = rbuf.content.take count := by
  by_cases empty : rbuf.used = 0
  · obtain rfl : count = 0 := by omega
    have same : rbuf.wrap rbuf.rdPtr 0 = rbuf.rdPtr := if_pos inside.rd
    rw [same]
    exact ⟨inside, rfl, rfl⟩
  · obtain ⟨moved, dropped, taken⟩ :=
      RingBuffer.advance (inside.wf empty) there (Nat.one_dvd count)
    exact ⟨⟨moved.rdInside, moved.wrInside⟩, dropped, taken⟩

/-! ### Up to a delimiter -/

section Delimiter

variable {character1 character2 : UInt8}

/-- A byte that a search for two characters stops at. -/
def delimits (character1 character2 byte : UInt8) : Bool := byte = character1 ∨ byte = character2

/-- The first bytes of the content, up to a delimiter and at most so many. -/
structure Delimited (rbuf : RingBuf) (limit : Int) (character1 character2 : UInt8)
    (data : List UInt8) : Prop where
  first : data <+: rbuf.content
  short : data.length ≤ limit
  ends : ∃ byte, data.getLast? = some byte ∧ (byte = character1 ∨ byte = character2)

/-- The shortest delimited bytes are read, if there are any. -/
def ReadsToDelimiter (rbuf : RingBuf) (len : Int) (character1 character2 : UInt8) : Prop :=
  let limit := min len (ringBufUsed rbuf)
  let (after, data) := ringBufReadToChar2 rbuf len character1 character2
  after.rdPtr < after.bufSize ∧
    ((Delimited rbuf limit character1 character2 data ∧
        (∀ other, Delimited rbuf limit character1 character2 other →
          data.length ≤ other.length) ∧
        rbuf.content = data ++ after.content ∧ after = { rbuf with rdPtr := after.rdPtr }) ∨
      (∀ other, ¬Delimited rbuf limit character1 character2 other) ∧ data = [] ∧ after = rbuf)

private theorem ringfindChar2_eq (mem : Nat → UInt8) (bufPtr left : Nat) :
    ringfindChar2 mem character1 character2 bufPtr left =
      ((window mem bufPtr left).findIdx? (delimits character1 character2)).map (bufPtr + · + 1) := by
  induction left generalizing bufPtr with
  | zero => rfl
  | succ left ih =>
    rw [ringfindChar2, window_cons, List.findIdx?_cons]
    by_cases found : mem bufPtr = character1 ∨ mem bufPtr = character2
    · simp [found, delimits]
    · rw [if_neg found, ih]
      simp only [delimits, found, decide_false, Bool.false_eq_true, if_false, Option.map_map]
      congr 1
      funext k
      simp only [Function.comp_apply]
      omega

private theorem readToFound_eq (inside : Inside rbuf) {k : Nat} (there : k + 1 ≤ rbuf.used)
    (straight : rbuf.rdPtr + (k + 1) ≤ rbuf.bufSize) :
    readToFound rbuf (rbuf.rdPtr + k + 1) =
      ({ rbuf with rdPtr := rbuf.wrap rbuf.rdPtr (k + 1) }, rbuf.content.take (k + 1)) := by
  obtain ⟨-, -, taken⟩ := inside.advance there
  have place : (if rbuf.bufSize ≤ rbuf.rdPtr + k + 1 then 0 else rbuf.rdPtr + k + 1) =
      rbuf.wrap rbuf.rdPtr (k + 1) := by
    unfold RingBuf.wrap
    split <;> split <;> omega
  have count : rbuf.rdPtr + k + 1 - rbuf.rdPtr = k + 1 := by omega
  rw [readToFound, place, count, ← taken, circular_straight straight]

/-- What is found in the content, and where it leaves the read pointer. -/
private theorem readToChar2_eq (inside : Inside rbuf) (len : Int) :
    ringBufReadToChar2 rbuf len character1 character2 =
      match (rbuf.content.take (min len.toNat rbuf.used)).findIdx?
          (delimits character1 character2) with
      | none => (rbuf, [])
      | some k => ({ rbuf with rdPtr := rbuf.wrap rbuf.rdPtr (k + 1) },
          rbuf.content.take (k + 1)) := by
  obtain ⟨limit, same⟩ : ∃ limit, limit = min len.toNat rbuf.used := ⟨_, rfl⟩
  have within : limit ≤ rbuf.used := by omega
  obtain ⟨-, -, taken⟩ := inside.advance within
  have small := inside.used_lt
  have size : rbuf.used = if rbuf.rdPtr ≤ rbuf.wrPtr then rbuf.wrPtr - rbuf.rdPtr
    else rbuf.wrPtr + rbuf.bufSize - rbuf.rdPtr := rfl
  have rd := inside.rd
  have wr := inside.wr
  unfold ringBufReadToChar2
  rw [inside.used_eq, ← same, ← taken]
  by_cases empty : rbuf.used = 0
  · obtain rfl : limit = 0 := by omega
    rw [if_pos (by omega)]
    rfl
  obtain ⟨asked, total⟩ : ∃ asked : Int,
      asked = if len < (rbuf.used : Int) then len else (rbuf.used : Int) := ⟨_, rfl⟩
  have count : asked.toNat = limit := by split at total <;> omega
  rw [if_neg (by omega), ← total]
  simp only [ringfindChar2_eq, count]
  split
  case isTrue wrapped =>
    obtain ⟨behind, parts⟩ : ∃ behind, limit = (rbuf.bufSize - rbuf.rdPtr) + behind :=
      Nat.exists_eq_add_of_le (by omega)
    have first : rbuf.wrap rbuf.rdPtr (rbuf.bufSize - rbuf.rdPtr) = 0 := by
      rw [RingBuf.wrap, if_neg (by omega)]
      omega
    have content : rbuf.circular rbuf.rdPtr limit =
        window rbuf.mem rbuf.rdPtr (rbuf.bufSize - rbuf.rdPtr) ++ window rbuf.mem 0 behind := by
      rw [parts, circular_add rd (by omega), first, circular_straight (by omega),
        circular_straight (by omega)]
    rw [content, List.findIdx?_append, parts, Nat.add_sub_cancel_left, window_length]
    cases before : (window rbuf.mem rbuf.rdPtr (rbuf.bufSize - rbuf.rdPtr)).findIdx?
        (delimits character1 character2) with
    | some k =>
      have early := (List.findIdx?_eq_some_iff_getElem.mp before).1
      rw [window_length] at early
      simp only [Option.map_some, Option.some_or]
      exact readToFound_eq inside (by omega) (by omega)
    | none =>
      simp only [Option.map_none, Option.none_or]
      cases after : (window rbuf.mem 0 behind).findIdx? (delimits character1 character2) with
      | none => rfl
      | some k =>
        have late := (List.findIdx?_eq_some_iff_getElem.mp after).1
        rw [window_length] at late
        have place : rbuf.wrap rbuf.rdPtr (k + (rbuf.bufSize - rbuf.rdPtr) + 1) = 0 + k + 1 := by
          rw [RingBuf.wrap, if_neg (by omega)]
          omega
        have data : rbuf.content.take (k + (rbuf.bufSize - rbuf.rdPtr) + 1) =
            window rbuf.mem rbuf.rdPtr (rbuf.bufSize - rbuf.rdPtr) ++
              window rbuf.mem 0 (0 + k + 1) := by
          have reach : rbuf.bufSize - rbuf.rdPtr + (k + 1) ≤ rbuf.used := by omega
          obtain ⟨-, -, read⟩ := inside.advance reach
          rw [show k + (rbuf.bufSize - rbuf.rdPtr) + 1 = rbuf.bufSize - rbuf.rdPtr + (k + 1) by omega,
            ← read, circular_add rd (by omega), first, circular_straight (by omega),
            circular_straight (by omega), Nat.zero_add]
        simp only [Option.map_some, place, data]
  case isFalse straight =>
    have fits : rbuf.rdPtr + limit ≤ rbuf.bufSize := by split at size <;> omega
    rw [circular_straight fits]
    cases found : (window rbuf.mem rbuf.rdPtr limit).findIdx? (delimits character1 character2) with
    | none => rfl
    | some k =>
      have early := (List.findIdx?_eq_some_iff_getElem.mp found).1
      rw [window_length] at early
      exact readToFound_eq inside (by omega) (by omega)

/-- The first bytes up to the first delimiter are the shortest that are delimited. -/
theorem reads_to_delimiter (rdInside : rbuf.rdPtr < rbuf.bufSize)
    (wrInside : rbuf.wrPtr < rbuf.bufSize) (len : Int) :
    ReadsToDelimiter rbuf len character1 character2 := by
  have inside : Inside rbuf := ⟨rdInside, wrInside⟩
  have length := inside.content_length
  unfold ReadsToDelimiter
  rw [readToChar2_eq inside, inside.used_eq]
  -- where a delimited prefix ends, there is a delimiter
  have delimiter {data : List UInt8}
      (delimited : Delimited rbuf (min len rbuf.used) character1 character2 data) :
      ∃ k < min len.toNat rbuf.used, data.length = k + 1 ∧
        ∃ there : k < rbuf.content.length, delimits character1 character2 rbuf.content[k] := by
    obtain ⟨⟨rest, whole⟩, short, byte, last, ends⟩ := delimited
    obtain ⟨before, rfl⟩ := List.getLast?_eq_some_iff.mp last
    rw [List.length_append, List.length_singleton] at short
    refine ⟨before.length, by omega, by simp, by rw [length]; omega, ?_⟩
    have here : rbuf.content[before.length]? = some byte := by
      rw [← whole]
      simp
    rw [List.getElem_of_getElem? here |>.2]
    simpa [delimits] using ends
  cases found : (rbuf.content.take (min len.toNat rbuf.used)).findIdx?
      (delimits character1 character2) with
  | none =>
    refine ⟨rdInside, .inr ⟨fun other delimited => ?_, rfl, rfl⟩⟩
    obtain ⟨k, small, -, there, ends⟩ := delimiter delimited
    have member : rbuf.content[k] ∈ rbuf.content.take (min len.toNat rbuf.used) :=
      List.mem_take_iff_getElem.mpr ⟨k, by omega, rfl⟩
    rw [List.findIdx?_eq_none_iff.mp found _ member] at ends
    cases ends
  | some k =>
    obtain ⟨small, ends, first⟩ := List.findIdx?_eq_some_iff_getElem.mp found
    rw [List.length_take] at small
    simp only [List.getElem_take] at ends first
    have reach : k + 1 ≤ rbuf.used := by omega
    obtain ⟨moved, dropped, -⟩ := inside.advance reach
    have count : (rbuf.content.take (k + 1)).length = k + 1 := by
      rw [List.length_take]
      omega
    refine ⟨moved.rd, .inl ⟨⟨List.take_prefix _ _, ?_, ?_⟩, fun other delimited => ?_, ?_, rfl⟩⟩
    · rw [count]
      omega
    · refine ⟨rbuf.content[k], ?_, by simpa [delimits] using ends⟩
      rw [List.take_succ_eq_append_getElem (by omega), List.getLast?_concat]
    · obtain ⟨j, -, same, there, stops⟩ := delimiter delimited
      rw [count, same]
      by_contra shorter
      exact first j (by omega) stops
    · rw [dropped, List.take_append_drop]

/-- Up to a line feed that is the last byte before the end of the buffer. -/
theorem reads_to_delimiter_last :
    ReadsToDelimiter ⟨fun k => if k = 7 then 10 else 65, 6, 2, 8, 1⟩ 4 10 13 :=
  reads_to_delimiter (by decide) (by decide) 4

end Delimiter

/-! ### A string -/

section Find

variable {str : List UInt8}

/-- The string is in the content, at this place. -/
def OccursAt (rbuf : RingBuf) (str : List UInt8) (i : Nat) : Prop := str <+: rbuf.content.drop i

instance (i : Nat) : Decidable (OccursAt rbuf str i) :=
  inferInstanceAs (Decidable (str <+: rbuf.content.drop i))

/-- The first place of the string is found, and -1 if there is none. -/
def FindsFirst (rbuf : RingBuf) (str : List UInt8) : Prop :=
  (∃ i : Nat, ringBufFind rbuf str = i ∧ OccursAt rbuf str i ∧ ∀ j < i, ¬OccursAt rbuf str j) ∨
    ringBufFind rbuf str = -1 ∧ ∀ i, ¬OccursAt rbuf str i

/-- What the comparison at a place makes of it, while neither it nor the string was there before. -/
def JudgesRight (rbuf : RingBuf) (str : List UInt8) (i : Nat) : Prop :=
  let buf := rbuf.wrap rbuf.rdPtr i
  if buf + str.length < rbuf.bufSize then
    -- equal as strings, so up to a zero
    strncmp (window rbuf.mem buf str.length) str = 0 →
      window rbuf.mem buf str.length = str ∧ i + str.length ≤ rbuf.used
  else
    -- what is behind the end of the buffer is counted as what is before it
    (strncmp (window rbuf.mem buf (buf + str.length - rbuf.bufSize))
        (str.take (buf + str.length - rbuf.bufSize)) = 0 ∧
      strncmp (window rbuf.mem buf (rbuf.bufSize - buf)) (window rbuf.mem 0 (rbuf.bufSize - buf)) = 0 ↔
        OccursAt rbuf str i)

private theorem strncmp_self (text : List UInt8) : strncmp text text = 0 := by
  induction text with
  | nil => rfl
  | cons c text ih => simp [strncmp, ih]

private theorem OccursAt.bound (inside : Inside rbuf) (some : str ≠ []) {i : Nat}
    (occurs : OccursAt rbuf str i) : i + str.length ≤ rbuf.used := by
  have short := occurs.length_le
  rw [List.length_drop, inside.content_length] at short
  have positive := List.length_pos_iff.mpr some
  omega

private theorem occursAt_straight (inside : Inside rbuf) {i : Nat}
    (straight : rbuf.wrap rbuf.rdPtr i + str.length < rbuf.bufSize)
    (there : i + str.length ≤ rbuf.used) :
    OccursAt rbuf str i ↔ window rbuf.mem (rbuf.wrap rbuf.rdPtr i) str.length = str := by
  obtain ⟨rest, total⟩ := Nat.exists_eq_add_of_le there
  have small := inside.used_lt
  have content : rbuf.content.drop i =
      window rbuf.mem (rbuf.wrap rbuf.rdPtr i) str.length ++
        rbuf.circular (rbuf.wrap (rbuf.wrap rbuf.rdPtr i) str.length) rest := by
    rw [inside.content_eq, total, Nat.add_assoc, circular_add inside.rd (by omega),
      List.drop_left' (circular_length ..),
      circular_add (wrap_inside inside.rd (by omega)) (by omega),
      circular_straight (Nat.le_of_lt straight)]
  unfold OccursAt
  rw [content]
  constructor
  · intro begins
    have first := List.prefix_iff_eq_take.mp begins
    rw [List.take_left' (window_length ..)] at first
    exact first.symm
  · intro same
    rw [same]
    exact List.prefix_append _ _

/-- A pass of the loop passes judgement on its place. -/
private theorem judgesRight_iff (inside : Inside rbuf) (some : str ≠ []) {i : Nat}
    (before : i < rbuf.used) :
    JudgesRight rbuf str i ↔
      (ringBufCompare rbuf str (rbuf.wrap rbuf.rdPtr i) = true ↔ OccursAt rbuf str i) := by
  have small := inside.used_lt
  have start := wrap_inside inside.rd (show i ≤ rbuf.bufSize by omega)
  obtain ⟨buf, place⟩ : ∃ buf, buf = rbuf.wrap rbuf.rdPtr i := ⟨_, rfl⟩
  unfold JudgesRight ringBufCompare
  dsimp only
  rw [← place] at start ⊢
  by_cases straight : buf + str.length < rbuf.bufSize
  · rw [if_pos straight, if_neg (Nat.not_le.mpr straight), decide_eq_true_iff]
    have occurs (there : i + str.length ≤ rbuf.used) :
        OccursAt rbuf str i ↔ window rbuf.mem buf str.length = str := by
      rw [place] at straight ⊢
      exact occursAt_straight inside straight there
    constructor
    · intro judged
      refine ⟨fun equal => (occurs (judged equal).2).mpr (judged equal).1, fun occurs' => ?_⟩
      rw [(occurs (occurs'.bound inside some)).mp occurs', strncmp_self]
    · intro same equal
      have there := (same.mp equal).bound inside some
      exact ⟨(occurs there).mp (same.mp equal), there⟩
  · have left : str.length - (buf + str.length - rbuf.bufSize) = rbuf.bufSize - buf := by omega
    rw [if_neg straight, if_pos (Nat.le_of_not_lt straight), decide_eq_true_iff, left]

/-- What the loop comes to. -/
private theorem findLoop_spec (inside : Inside rbuf) {i left : Nat} (total : i + left ≤ rbuf.used) :
    (∃ j, i ≤ j ∧ j < i + left ∧
        findLoop rbuf str left i (rbuf.wrap rbuf.rdPtr i) = (j : Nat) ∧
        ringBufCompare rbuf str (rbuf.wrap rbuf.rdPtr j) = true ∧
        ∀ k, i ≤ k → k < j → ringBufCompare rbuf str (rbuf.wrap rbuf.rdPtr k) = false) ∨
      findLoop rbuf str left i (rbuf.wrap rbuf.rdPtr i) = -1 ∧
        ∀ k, i ≤ k → k < i + left → ringBufCompare rbuf str (rbuf.wrap rbuf.rdPtr k) = false := by
  induction left generalizing i with
  | zero => exact .inr ⟨rfl, fun k low high => absurd low (by omega)⟩
  | succ left ih =>
    have small := inside.used_lt
    have rd := inside.rd
    have next : (if rbuf.bufSize ≤ rbuf.wrap rbuf.rdPtr i + 1 then 0
        else rbuf.wrap rbuf.rdPtr i + 1) = rbuf.wrap rbuf.rdPtr (i + 1) := by
      unfold RingBuf.wrap
      split <;> split <;> split <;> omega
    rw [findLoop, next]
    cases here : ringBufCompare rbuf str (rbuf.wrap rbuf.rdPtr i) with
    | true =>
      exact .inl ⟨i, Nat.le_refl i, by omega, rfl, here, fun k low high => absurd low (by omega)⟩
    | false =>
      have earlier {k : Nat} (low : i ≤ k)
          (later : i + 1 ≤ k → ringBufCompare rbuf str (rbuf.wrap rbuf.rdPtr k) = false) :
          ringBufCompare rbuf str (rbuf.wrap rbuf.rdPtr k) = false := by
        rcases Nat.lt_or_eq_of_le low with after | rfl
        · exact later after
        · exact here
      rw [if_neg (by decide)]
      rcases ih (show i + 1 + left ≤ rbuf.used by omega) with ⟨j, low, high, found, equal, first⟩ | ⟨none, never⟩
      · exact .inl ⟨j, by omega, by omega, found, equal,
          fun k low high => earlier low fun after => first k after high⟩
      · exact .inr ⟨none, fun k low high => earlier low fun after => never k after (by omega)⟩

/-- The first place is found exactly where the first place that is judged either way is judged
right. -/
theorem finds_first_iff (rdInside : rbuf.rdPtr < rbuf.bufSize) (wrInside : rbuf.wrPtr < rbuf.bufSize)
    (some : str ≠ []) :
    FindsFirst rbuf str ↔
      ∀ i < rbuf.used, (∀ j < i, ringBufCompare rbuf str (rbuf.wrap rbuf.rdPtr j) = false ∧
        ¬OccursAt rbuf str j) → JudgesRight rbuf str i := by
  have inside : Inside rbuf := ⟨rdInside, wrInside⟩
  have start : rbuf.wrap rbuf.rdPtr 0 = rbuf.rdPtr := if_pos rdInside
  have loop := @findLoop_spec rbuf str inside 0 rbuf.used (Nat.zero_add _).le
  have find : ringBufFind rbuf str = findLoop rbuf str rbuf.used 0 rbuf.rdPtr := by
    rw [ringBufFind, inside.used_eq, Int.toNat_natCast]
  rw [start, ← find, Nat.zero_add] at loop
  constructor
  · intro finds i before first
    rw [judgesRight_iff inside some before]
    constructor
    · intro equal
      obtain ⟨j, -, -, found, equal', unequal⟩ | ⟨-, never⟩ := loop
      · obtain rfl : j = i := by
          rcases Nat.lt_trichotomy j i with less | same | more
          · rw [(first j less).1] at equal'
            cases equal'
          · exact same
          · rw [unequal i (Nat.zero_le i) more] at equal
            cases equal
        obtain ⟨k, found', occurs, -⟩ | ⟨none, -⟩ := finds
        · rwa [show j = k by omega]
        · omega
      · rw [never i (Nat.zero_le i) before] at equal
        cases equal
    · intro occurs
      obtain ⟨k, found, occurs', earliest⟩ | ⟨-, nowhere⟩ := finds
      · obtain rfl : k = i := by
          rcases Nat.lt_trichotomy k i with less | same | more
          · exact absurd occurs' (first k less).2
          · exact same
          · exact absurd occurs (earliest i more)
        obtain ⟨j, -, -, found', equal, -⟩ | ⟨none, -⟩ := loop
        · rwa [show k = j by omega]
        · omega
      · exact absurd occurs (nowhere i)
  · intro judged
    -- where nothing was found, the string is not
    have absent {n : Nat} (reach : n ≤ rbuf.used)
        (unequal : ∀ k < n, ringBufCompare rbuf str (rbuf.wrap rbuf.rdPtr k) = false) :
        ∀ k < n, ¬OccursAt rbuf str k := by
      intro k
      induction k using Nat.strong_induction_on with
      | _ k ih =>
        intro below occurs
        have right := judged k (by omega) fun j less =>
          ⟨unequal j (by omega), ih j less (by omega)⟩
        have equal := ((judgesRight_iff inside some (by omega)).mp right).mpr occurs
        rw [unequal k below] at equal
        cases equal
    obtain ⟨j, -, before, found, equal, unequal⟩ | ⟨none, never⟩ := loop
    · have nowhere := absent (Nat.le_of_lt before) fun k less => unequal k (Nat.zero_le k) less
      have right := judged j before fun k less => ⟨unequal k (Nat.zero_le k) less, nowhere k less⟩
      exact .inl ⟨j, found, ((judgesRight_iff inside some before).mp right).mp equal, nowhere⟩
    · refine .inr ⟨none, fun k occurs => ?_⟩
      have bound := occurs.bound inside some
      have positive := List.length_pos_iff.mpr some
      exact absent (Nat.le_refl _) (fun k less => never k (Nat.zero_le k) less) k (by omega) occurs

/-- The second and the third byte of four. -/
theorem finds_first_iff_second :
    FindsFirst ⟨fun k => UInt8.ofNat (k + 1), 0, 4, 8, 1⟩ [2, 3] := by
  refine (finds_first_iff (by decide) (by decide) (by decide)).mpr fun i before first => ?_
  obtain rfl | rfl | later : i = 0 ∨ i = 1 ∨ 1 < i := by omega
  · exact fun equal => absurd equal (by decide)
  · exact fun _ => by decide
  · exact absurd (first 1 later).1 (by decide)

/-- A string across the end of the buffer is not found. -/
theorem wrapped_string_missed :
    ¬∀ (rbuf : RingBuf) (str : List UInt8), rbuf.rdPtr < rbuf.bufSize → rbuf.wrPtr < rbuf.bufSize →
      str ≠ [] → FindsFirst rbuf str := by
  intro claim
  obtain ⟨i, found, -⟩ | ⟨-, nowhere⟩ :=
    claim ⟨fun k => UInt8.ofNat k, 6, 2, 8, 1⟩ [7, 0] (by decide) (by decide) (by decide)
  · have none : ringBufFind ⟨fun k => UInt8.ofNat k, 6, 2, 8, 1⟩ [7, 0] = -1 := by decide
    omega
  · exact nowhere 1 (by decide)

end Find

end InertialSense.RingBuffer
