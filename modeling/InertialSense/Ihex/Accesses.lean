import InertialSense.Ihex.Model

/-! Which places of `line` and `image_local` are used while a file is loaded, whatever its text and
whatever is in memory that was never written. -/

namespace InertialSense.Ihex

open Foundation

/-- There is a string at this place of `line`, which ends in the array. -/
def EndsInside (line : Nat → Char) (start : Nat) : Prop :=
  ∃ place, start ≤ place ∧ place < 512 ∧ line place = '\x00'

/-- The string at a place of `line`. -/
def stringIn (line : Nat → Char) (start : Nat) : List Char :=
  (window line start (512 - start)).takeWhile (· ≠ '\x00')

/-- The place that is looked at for the end of a line. -/
def lastPlace (line : Nat → Char) : Int := (stringIn line 0).length - 1

/-- An end of a line becomes the end of the string. -/
def cutLine (last : Char) (line : Nat → Char) : Nat → Char :=
  let strlen := (stringIn line 0).length
  if strlen ≠ 0 ∧ line (strlen - 1) = last then store line (strlen - 1) ['\x00'] else line

/-- `line` with what `fgets` has read. -/
def fetched (line : Nat → Char) (read : List Char) : Nat → Char := store line 0 (read ++ ['\x00'])

/-- `line` as it is parsed. -/
def prepared (line : Nat → Char) (read : List Char) : Nat → Char :=
  cutLine '\r' (cutLine '\n' (fetched line read))

/-- The places where the line ends are looked for. -/
def cutPlaces (line : Nat → Char) (read : List Char) : List Int :=
  [lastPlace (fetched line read), lastPlace (cutLine '\n' (fetched line read))]

/-- The places where the pairs of digits of a record of this length are scanned, with so many bytes
left in the array they go to, and the place of its checksum. -/
def pairPlaces (line : Nat → Char) (len : Int) : Nat → Nat → List Nat
  | 0, _ => []
  | left + 1, num =>
    if (num : Int) = len then [9 + 2 * num]
    else
      (9 + 2 * num) ::
        if scanHex 2 (stringIn line (9 + 2 * num)) = .mismatch then []
        else pairPlaces line len left (num + 1)

/-- The length of a record that passes all checks before its bytes are scanned. -/
def lengthOf (leftover : Leftover) (line : Nat → Char) : Option Int := do
  let theline := stringIn line 0
  if theline.head? ≠ some ':' ∨ theline.length < 11 then none
  let len ← (scanHex 2 (stringIn line 1)).stored leftover.len
  if (theline.length : Int) < (11 + 2 * len) % 2 ^ 64 then none
  if scanHex 4 (stringIn line 3) = .mismatch then none
  if scanHex 2 (stringIn line 7) = .mismatch then none
  pure len

/-- The places of `line` where `parse_hex_line` scans the fields in front of the bytes. -/
def fieldPlaces (leftover : Leftover) (line : Nat → Char) : List Nat :=
  let theline := stringIn line 0
  if theline.head? ≠ some ':' ∨ theline.length < 11 then []
  else
    1 :: match (scanHex 2 (stringIn line 1)).stored leftover.len with
      | none => []
      | some len =>
        if (theline.length : Int) < (11 + 2 * len) % 2 ^ 64 then []
        else 3 :: if scanHex 4 (stringIn line 3) = .mismatch then [] else [7]

/-- The places of `line` where `parse_hex_line` scans. -/
def scanPlaces (leftover : Leftover) (line : Nat → Char) : List Nat :=
  fieldPlaces leftover line ++
    match lengthOf leftover line with
    | none => []
    | some len => pairPlaces line len 256 0

/-- The places of `image_local` that the bytes of a record are written to. -/
def copyPlaces (addr : Int) : Nat → List Int
  | 0 => []
  | count + 1 =>
    addr :: if addr + 1 > maxIhexSectionLen then [] else copyPlaces (addr + 1) count

section Strings

variable {line : Nat → Char} {start : Nat}

private theorem stringIn_eq {count : Nat} (short : start + count < 512)
    (ends : line (start + count) = '\x00') (plain : ∀ k < count, line (start + k) ≠ '\x00') :
    stringIn line start = window line start count := by
  obtain ⟨rest, whole⟩ : ∃ rest, 512 - start = count + (1 + rest) :=
    ⟨512 - start - count - 1, by omega⟩
  unfold stringIn
  rw [whole, window_add, window_add, List.takeWhile_append_of_pos]
  · simp [window, ends]
  · intro c member
    obtain ⟨k, small, rfl⟩ := List.mem_map.mp member
    exact decide_eq_true (plain k (List.mem_range.mp small))

private theorem EndsInside.terminator (inside : EndsInside line start) :
    start + (stringIn line start).length < 512 ∧
      line (start + (stringIn line start).length) = '\x00' ∧
      stringIn line start = window line start (stringIn line start).length ∧
      ∀ k < (stringIn line start).length, line (start + k) ≠ '\x00' := by
  classical
  obtain ⟨place, behind, small, ends⟩ := inside
  obtain ⟨count, rfl⟩ := Nat.exists_eq_add_of_le behind
  have some : ∃ count, line (start + count) = '\x00' := ⟨count, ends⟩
  have first := Nat.find_spec some
  have before : ∀ k < Nat.find some, line (start + k) ≠ '\x00' := fun k less =>
    Nat.find_min some less
  have near : Nat.find some ≤ count := Nat.find_min' some ends
  have short : start + Nat.find some < 512 := by omega
  have text := stringIn_eq short first before
  have length : (stringIn line start).length = Nat.find some := by
    rw [text, window_length]
  rw [length]
  exact ⟨short, first, text, before⟩

private theorem EndsInside.drop (inside : EndsInside line 0) {place : Nat}
    (within : place ≤ (stringIn line 0).length) :
    EndsInside line place ∧ stringIn line place = (stringIn line 0).drop place := by
  obtain ⟨short, ends, text, plain⟩ := inside.terminator
  rw [Nat.zero_add] at short ends
  obtain ⟨count, length⟩ := Nat.exists_eq_add_of_le within
  refine ⟨⟨(stringIn line 0).length, within, short, ends⟩, ?_⟩
  have behind : stringIn line place = window line place count := by
    refine stringIn_eq (by omega) (by rw [← length, ends]) fun k small => ?_
    have here := plain (place + k) (by omega)
    rwa [Nat.zero_add] at here
  rw [behind, text, drop_window _ within, Nat.zero_add, length, Nat.add_sub_cancel_left]

/-- An end of a line is cut off the string. -/
private theorem EndsInside.cut (inside : EndsInside line 0) (last : Char) :
    EndsInside (cutLine last line) 0 ∧
      stringIn (cutLine last line) 0 = chomp last (stringIn line 0) := by
  obtain ⟨short, ends, text, plain⟩ := inside.terminator
  simp only [Nat.zero_add] at short ends plain
  have final : (stringIn line 0).getLast? =
      if (stringIn line 0).length = 0 then none else some (line ((stringIn line 0).length - 1)) := by
    rw [List.getLast?_eq_getElem?]
    split
    case isTrue none =>
      rw [none]
      exact List.getElem?_eq_none (by omega)
    case isFalse some =>
      have cell := @getElem?_window _ line 0 _ _
        (show (stringIn line 0).length - 1 < (stringIn line 0).length by omega)
      rwa [← text, Nat.zero_add] at cell
  unfold cutLine chomp
  dsimp only
  rw [final]
  by_cases ended : (stringIn line 0).length ≠ 0 ∧ line ((stringIn line 0).length - 1) = last
  · obtain ⟨some, same⟩ := ended
    rw [if_pos ⟨some, same⟩, if_neg some, same, if_pos rfl]
    obtain ⟨count, length⟩ := Nat.exists_eq_succ_of_ne_zero some
    rw [length, Nat.succ_sub_one]
    have cell : store line count ['\x00'] count = '\x00' := store_inside line (k := 0) (by simp)
    have kept (k : Nat) (small : k < count) : store line count ['\x00'] (0 + k) = line (0 + k) :=
      store_outside line (.inl (by omega))
    refine ⟨⟨count, Nat.zero_le _, by omega, cell⟩, ?_⟩
    rw [@stringIn_eq _ 0 count (by omega) (by rw [Nat.zero_add, cell])
      fun k small => by
        rw [kept k small, Nat.zero_add]
        exact plain k (by omega)]
    rw [window_congr kept, List.dropLast_eq_take, length, Nat.succ_sub_one, text, length,
      take_window _ (Nat.le_succ count)]
  · rw [if_neg ended]
    refine ⟨inside, ?_⟩
    split
    · rw [if_neg (by simp)]
    case isFalse some =>
      rw [if_neg fun same => ended ⟨some, Option.some.inj same⟩]

/-- What `fgets` has read is a string up to the first null character. -/
private theorem fetched_string (line : Nat → Char) {read : List Char} (short : read.length < 512) :
    EndsInside (fetched line read) 0 ∧
      stringIn (fetched line read) 0 = read.takeWhile (· ≠ '\x00') := by
  obtain ⟨text, same⟩ : ∃ text, text = read.takeWhile (· ≠ '\x00') := ⟨_, rfl⟩
  have plain : ∀ c ∈ text, c ≠ '\x00' := by
    intro c member
    rw [same] at member
    simpa using List.mem_takeWhile_imp member
  have less : text.length ≤ read.length := by
    rw [same]
    exact (List.takeWhile_prefix _).length_le
  obtain ⟨rest, whole⟩ : ∃ rest, read ++ ['\x00'] = text ++ '\x00' :: rest := by
    have parts := List.takeWhile_append_dropWhile (p := fun c => decide (c ≠ '\x00')) (l := read)
    rw [← same] at parts
    cases found : read.dropWhile (fun c => decide (c ≠ '\x00')) with
    | nil =>
      rw [found, List.append_nil] at parts
      exact ⟨[], by rw [parts]⟩
    | cons c rest =>
      have null : c = '\x00' := by
        have stops := List.head?_dropWhile_not (fun c => decide (c ≠ '\x00')) read
        rw [found] at stops
        simpa using stops
      refine ⟨rest ++ ['\x00'], ?_⟩
      rw [← parts, found, null]
      simp
  have cell : fetched line read text.length = '\x00' := by
    unfold fetched
    rw [whole]
    have stored := @store_inside _ line 0 text.length (text ++ '\x00' :: rest) (by simp)
    rw [Nat.zero_add] at stored
    rw [stored]
    simp
  have held : window (fetched line read) 0 text.length = text := by
    have stored := window_store line 0 (text ++ '\x00' :: rest)
    rw [← whole] at stored
    have front := congrArg (List.take text.length) stored
    rw [take_window _ (by rw [whole]; simp), whole, List.take_left] at front
    unfold fetched
    rw [whole]
    exact front
  refine ⟨⟨text.length, Nat.zero_le _, by omega, cell⟩, ?_⟩
  rw [← same, @stringIn_eq _ 0 text.length (by omega)
    (by rw [Nat.zero_add, cell]) ?_, held]
  intro k small null
  have member := @getElem?_window _ (fetched line read) 0 _ _ small
  rw [held] at member
  exact plain _ (List.mem_of_getElem? member) null

end Strings

section Lines

variable {line : Nat → Char} {read : List Char}

/-- The line that is parsed is a string in the array. -/
theorem prepared_string (short : read.length < 512) :
    EndsInside (prepared line read) 0 ∧ stringIn (prepared line read) 0 = stringOf read := by
  obtain ⟨inside, text⟩ := fetched_string line short
  obtain ⟨inside, cut⟩ := inside.cut '\n'
  obtain ⟨inside, again⟩ := inside.cut '\r'
  refine ⟨inside, ?_⟩
  unfold prepared
  rw [again, cut, text]
  rfl

/-- The end of a line is looked for in the array, unless the line is empty. -/
theorem cutPlaces_inside (short : read.length < 512) :
    (∀ place ∈ cutPlaces line read, 0 ≤ place ∧ place < 512) ↔
      read.takeWhile (· ≠ '\x00') ≠ [] ∧ read.takeWhile (· ≠ '\x00') ≠ ['\n'] := by
  obtain ⟨inside, text⟩ := fetched_string line short
  obtain ⟨-, cut⟩ := inside.cut '\n'
  have less : (read.takeWhile (· ≠ '\x00')).length ≤ read.length :=
    (List.takeWhile_prefix _).length_le
  unfold cutPlaces lastPlace
  simp only [List.forall_mem_cons, List.not_mem_nil, false_imp_iff, implies_true, and_true]
  rw [cut, text]
  generalize read.takeWhile (fun c => decide (c ≠ '\x00')) = text at less
  have shorter : (chomp '\n' text).length ≤ text.length := by
    unfold chomp
    split
    · rw [List.length_dropLast]
      exact Nat.sub_le ..
    · exact Nat.le_refl _
  have positive {l : List Char} : 0 ≤ (l.length : Int) - 1 ↔ l ≠ [] := by
    rw [← List.length_pos_iff]
    omega
  have rest : text ≠ [] → (chomp '\n' text ≠ [] ↔ text ≠ ['\n']) := by
    intro some
    unfold chomp
    split
    case isTrue last =>
      have joined := List.dropLast_append_getLast? '\n' last
      constructor
      · rintro more rfl
        exact more rfl
      · intro other none
        rw [none, List.nil_append] at joined
        exact other joined.symm
    case isFalse last =>
      refine iff_of_true some fun same => last ?_
      rw [same]
      rfl
  constructor
  · rintro ⟨⟨first, -⟩, second, -⟩
    have some := positive.mp first
    exact ⟨some, (rest some).mp (positive.mp second)⟩
  · rintro ⟨some, other⟩
    have first := positive.mpr some
    have second := positive.mpr ((rest some).mpr other)
    omega

/-- A pair that is not hexadecimal is found before a place that is not in the array. -/
def PairsStop (line : Nat → Char) : Prop :=
  ∃ num, scanHex 2 (stringIn line (9 + 2 * num)) = .mismatch ∧
    ∀ k ≤ num, EndsInside line (9 + 2 * k)

/-- With a length that is never reached, pairs are scanned until one is not hexadecimal. -/
private theorem pairPlaces_endless {len : Int} (never : len < 0 ∨ 256 ≤ len) {left num : Nat}
    (total : left + num = 256) (before : num ≤ 252) :
    (∀ place ∈ pairPlaces line len left num, EndsInside line place) ↔
      ∃ last ≥ num, scanHex 2 (stringIn line (9 + 2 * last)) = .mismatch ∧
        ∀ k, num ≤ k → k ≤ last → EndsInside line (9 + 2 * k) := by
  induction left generalizing num with
  | zero => omega
  | succ left ih =>
    rw [pairPlaces, if_neg (by omega), List.forall_mem_cons]
    obtain rfl | more := Nat.eq_or_lt_of_le before
    · -- the place is behind the array
      have outside : ¬EndsInside line (9 + 2 * 252) := fun ⟨place, behind, small, _⟩ => by omega
      refine iff_of_false (fun both => outside both.1) ?_
      rintro ⟨last, from', -, all⟩
      exact outside (all 252 (Nat.le_refl _) from')
    · by_cases stops : scanHex 2 (stringIn line (9 + 2 * num)) = .mismatch
      · rw [if_pos stops]
        constructor
        · rintro ⟨here, -⟩
          refine ⟨num, Nat.le_refl _, stops, fun k low high => ?_⟩
          rwa [Nat.le_antisymm high low]
        · rintro ⟨last, from', -, all⟩
          exact ⟨all num (Nat.le_refl _) from', fun _ member => absurd member List.not_mem_nil⟩
      · rw [if_neg stops, ih (by omega) (by omega)]
        constructor
        · rintro ⟨here, last, from', mismatch, all⟩
          refine ⟨last, by omega, mismatch, fun k low high => ?_⟩
          obtain rfl | later := Nat.eq_or_lt_of_le low
          · exact here
          · exact all k later high
        · rintro ⟨last, from', mismatch, all⟩
          have other : last ≠ num := by
            rintro rfl
            exact stops mismatch
          exact ⟨all num (Nat.le_refl _) from', last, by omega, mismatch,
            fun k low high => all k (by omega) high⟩

private theorem pairPlaces_inside {len left num : Nat} (few : num ≤ len)
    (inside : ∀ k ≤ len, EndsInside line (9 + 2 * k)) :
    ∀ place ∈ pairPlaces line len left num, EndsInside line place := by
  induction left generalizing num with
  | zero => exact fun _ member => absurd member List.not_mem_nil
  | succ left ih =>
    rw [pairPlaces]
    split
    case isTrue => exact List.forall_mem_singleton.mpr (inside num few)
    case isFalse other =>
      refine List.forall_mem_cons.mpr ⟨inside num few, ?_⟩
      split
      · exact fun _ member => absurd member List.not_mem_nil
      · exact ih (by omega)

/-- A record with a length that is never reached, such as a negative one, runs into a pair that is
not hexadecimal. -/
def LengthStops (leftover : Leftover) (line : Nat → Char) : Prop :=
  ∀ len, lengthOf leftover line = some len → len < 0 ∨ 256 ≤ len → PairsStop line

private theorem lengthOf_some {leftover : Leftover} {len : Int}
    (found : lengthOf leftover line = some len) :
    11 ≤ (stringIn line 0).length ∧
      (11 + 2 * len) % 2 ^ 64 ≤ ((stringIn line 0).length : Int) := by
  unfold lengthOf at found
  dsimp only at found
  split at found
  case isTrue => cases found
  case isFalse begins =>
    simp only [Option.bind_eq_bind] at found
    obtain ⟨stored, -, found⟩ := Option.bind_eq_some_iff.mp found
    split at found
    · cases found
    case isFalse long =>
      have same : stored = len := by
        split at found
        · cases found
        · split at found
          · cases found
          · exact Option.some.inj found
      rw [← same]
      omega

/-- A line is scanned inside the array, unless its length is never reached. -/
theorem scanPlaces_inside (leftover : Leftover) (inside : EndsInside line 0) :
    (∀ place ∈ scanPlaces leftover line, EndsInside line place) ↔ LengthStops leftover line := by
  have short := inside.terminator.1
  have fields : ∀ place ∈ fieldPlaces leftover line, EndsInside line place := by
    unfold fieldPlaces
    dsimp only
    split
    case isTrue => exact fun _ member => absurd member List.not_mem_nil
    case isFalse begins =>
      have near {place : Nat} (few : place ≤ 11) : EndsInside line place :=
        (inside.drop (by omega)).1
      refine List.forall_mem_cons.mpr ⟨near (by omega), ?_⟩
      split
      · exact fun _ member => absurd member List.not_mem_nil
      · split
        · exact fun _ member => absurd member List.not_mem_nil
        · refine List.forall_mem_cons.mpr ⟨near (by omega), ?_⟩
          split
          · exact fun _ member => absurd member List.not_mem_nil
          · exact List.forall_mem_singleton.mpr (near (by omega))
  unfold scanPlaces LengthStops
  rw [List.forall_mem_append, and_iff_right fields]
  cases found : lengthOf leftover line with
  | none => simp
  | some len =>
    dsimp only
    obtain ⟨-, long⟩ := lengthOf_some found
    have only : (∀ other, some len = some other → other < 0 ∨ 256 ≤ other → PairsStop line) ↔
        (len < 0 ∨ 256 ≤ len → PairsStop line) :=
      ⟨fun all => all len rfl, fun one other same => Option.some.inj same ▸ one⟩
    rw [only]
    by_cases never : len < 0 ∨ 256 ≤ len
    · rw [pairPlaces_endless never rfl (by omega)]
      simp only [never, true_imp_iff]
      unfold PairsStop
      constructor
      · rintro ⟨last, -, mismatch, all⟩
        exact ⟨last, mismatch, fun k high => all k (Nat.zero_le _) high⟩
      · rintro ⟨last, mismatch, all⟩
        exact ⟨last, Nat.zero_le _, mismatch, fun k _ high => all k high⟩
    · refine iff_of_true ?_ fun out => absurd out never
      obtain ⟨count, rfl⟩ := Int.eq_ofNat_of_zero_le (show 0 ≤ len by omega)
      refine pairPlaces_inside (Nat.zero_le _) fun k few => (inside.drop ?_).1
      omega

end Lines

/-- The bytes of a record are written inside the image, unless it starts or ends outside of it. -/
theorem copyPlaces_inside (addr : Int) (count : Nat) :
    (∀ place ∈ copyPlaces addr count, 0 ≤ place ∧ place < maxIhexSectionLen) ↔
      (0 < count → 0 ≤ addr ∧ addr + count ≤ maxIhexSectionLen) := by
  induction count generalizing addr with
  | zero => simp [copyPlaces]
  | succ count ih =>
    rw [copyPlaces, List.forall_mem_cons]
    split
    case isTrue beyond =>
      simp only [List.not_mem_nil, false_imp_iff, implies_true, and_true]
      push_cast
      omega
    case isFalse under =>
      rw [ih]
      push_cast
      omega

/-- The address of a record has four digits, unless there is nothing behind its length. -/
theorem parseHexLine_addr {leftover : Leftover} {old scanned : Scanned} {line : List Char}
    (parsed : parseHexLine leftover old line = some scanned) :
    scanned.n < 256 ∧ (scanned.addr < 65536 ∨ scanHex 4 (line.drop 3) = .inputEnd) := by
  unfold parseHexLine at parsed
  dsimp only at parsed
  split at parsed
  · cases parsed
  obtain ⟨len, -, parsed⟩ := Option.bind_eq_some_iff.mp parsed
  split at parsed
  · cases parsed
  obtain ⟨addr, address, parsed⟩ := Option.bind_eq_some_iff.mp parsed
  obtain ⟨code, -, parsed⟩ := Option.bind_eq_some_iff.mp parsed
  split at parsed
  · cases parsed
  case isFalse count =>
    obtain ⟨bytes, -, parsed⟩ := Option.bind_eq_some_iff.mp parsed
    obtain ⟨cksum, -, parsed⟩ := Option.bind_eq_some_iff.mp parsed
    split at parsed
    · cases parsed
    · cases parsed
      refine ⟨by dsimp only; omega, ?_⟩
      dsimp only
      cases found : scanHex 4 (line.drop 3) with
      | inputEnd => exact .inr rfl
      | mismatch =>
        rw [found] at address
        cases address
      | matched value =>
        rw [found] at address
        obtain rfl := Option.some.inj address
        exact .inl (scanHex_lt found)

end InertialSense.Ihex
