import InertialSense.Ihex.Accesses

/-! The loops of `ihex_load_sections`, pass by pass: they end, and what they use of their buffers is
inside of them exactly for files without certain lines. -/

namespace InertialSense.Ihex

open Foundation

/-- The variables at the head of the loop over the lines, in the call for a slot. -/
structure Walk where
  slot : Nat
  l : Loading
  line : Nat → Char
  file : HexFile

/-- How a pass of the loop over the lines ends. -/
inductive PassEnd where
  | next (walk : Walk)
  | ended (l : Loading) (eof : Bool) (file : HexFile)
  | error

/-- The line that is fetched in a pass. -/
def Walk.read (walk : Walk) : List Char := (walk.file.fgets 512).2

/-- The line that is fetched, as it is parsed. -/
def Walk.theline (walk : Walk) : Nat → Char := prepared walk.line walk.read

/-- A pass of the loop over the lines. -/
def Walk.pass (leftover : Leftover) (walk : Walk) : PassEnd :=
  if walk.file.atEnd then .ended walk.l false walk.file
  else
    let file := (walk.file.fgets 512).1
    let line := walk.theline
    match parseHexLine leftover walk.l.scanned (stringOf walk.read) with
    | none => .error
    | some scanned =>
      let l := { walk.l with scanned }
      if scanned.status = 0 then
        match l.copyBytes scanned.addr (window scanned.bytes 0 scanned.n) with
        | none => .error
        | some l => .next { walk with l, line, file }
      else if scanned.status = 1 then .ended l true file
      else if scanned.status = 4 then
        if l.alreadysetaddr then .ended l false { rest := walk.file.rest, atEnd := false }
        else
          let address := (scanned.bytes 1).toUInt32 <<< 16 ||| (scanned.bytes 0).toUInt32 <<< 24
          .next { walk with l := { l with address, alreadysetaddr := true }, line, file }
      else .next { walk with l, line, file }

def PassEnd.loaded (leftover : Leftover) : PassEnd → LoopEnd
  | .next walk => loadLines leftover walk.l walk.file
  | .ended l eof file => .ended l eof file
  | .error => .error

/-- The loop over the lines is made of its passes. -/
theorem loadLines_pass (leftover : Leftover) (walk : Walk) :
    loadLines leftover walk.l walk.file = (walk.pass leftover).loaded leftover := by
  rw [loadLines]
  unfold Walk.pass Walk.read
  split
  case isTrue => rfl
  case isFalse =>
    dsimp only
    cases parseHexLine leftover walk.l.scanned (stringOf (walk.file.fgets 512).2) with
    | none => rfl
    | some scanned =>
      dsimp only
      split
      · cases Loading.copyBytes _ scanned.addr (window scanned.bytes 0 scanned.n) with
        | none => rfl
        | some l => rfl
      · split
        · rfl
        · split
          · split
            · rfl
            · rfl
          · rfl

section Sections

variable (malloc : Nat → Bool) (leftover : Leftover) (garbage : Nat → Char) (numSlots : Nat)

/-- The start of `ihex_load_section` for a slot, with what is in `line` by chance. -/
def Walk.fresh (slot : Nat) (file : HexFile) : Walk where
  slot := slot
  l := .fresh leftover
  line := garbage
  file := file

/-- From one pass to the next one, in the same section or in that of the next slot: nothing if
`ihex_load_sections` returns. -/
def Walk.step (walk : Walk) : Option Walk :=
  match walk.pass leftover with
  | .next walk => some walk
  | .error => none
  | .ended l eof file =>
    match finishSection malloc l eof file with
    | .loaded eof file _ =>
      if eof = false ∧ walk.slot + 1 < numSlots then
        some (.fresh leftover garbage (walk.slot + 1) file)
      else none
    | _ => none

/-- The state after so many passes. -/
def walked (walk : Walk) : Nat → Option Walk
  | 0 => some walk
  | count + 1 => (walked walk count).bind (Walk.step malloc leftover garbage numSlots)

/-- What `ihex_load_section` copies of the image is inside of it. -/
def CopyInside (l : Loading) : Prop :=
  let len := UInt32.ofNat ((l.maxaddr - l.minaddr + 1) % 2 ^ 32).toNat
  malloc len.toNat = true → len ≠ 0 →
    0 ≤ l.minaddr ∧ l.minaddr + len.toNat ≤ maxIhexSectionLen

/-- The places of the image that a pass writes to. -/
def Walk.imagePlaces (walk : Walk) : List Int :=
  match parseHexLine leftover walk.l.scanned (stringOf walk.read) with
  | none => []
  | some scanned => if scanned.status = 0 then copyPlaces scanned.addr scanned.n else []

/-- All that a pass uses of `line` and `image_local` is inside of them. -/
structure Walk.Inside (walk : Walk) : Prop where
  cut : walk.file.atEnd = false → ∀ place ∈ cutPlaces walk.line walk.read, 0 ≤ place ∧ place < 512
  scanned : walk.file.atEnd = false →
    ∀ place ∈ scanPlaces leftover walk.theline, EndsInside walk.theline place
  image : walk.file.atEnd = false →
    ∀ place ∈ walk.imagePlaces leftover, 0 ≤ place ∧ place < maxIhexSectionLen
  copied : ∀ l eof file, walk.pass leftover = .ended l eof file → CopyInside malloc l

/-- A line that is neither empty nor has a length that is never reached, nor bytes for a negative
address, nor more bytes than there are left behind those before if its address is blank; and a
section with data in it. -/
structure Walk.Fits (walk : Walk) : Prop where
  line : walk.file.atEnd = false → walk.read.takeWhile (· ≠ '\x00') ≠ [] ∧
    walk.read.takeWhile (· ≠ '\x00') ≠ ['\n']
  length : walk.file.atEnd = false → LengthStops leftover walk.theline
  address : walk.file.atEnd = false → ∀ scanned,
    parseHexLine leftover walk.l.scanned (stringOf walk.read) = some scanned →
      scanned.status = 0 → 0 < scanned.n →
        0 ≤ scanned.addr ∧ (scanHex 4 ((stringOf walk.read).drop 3) = .inputEnd →
          scanned.addr + scanned.n ≤ maxIhexSectionLen)
  data : ∀ l eof file, walk.pass leftover = .ended l eof file →
    l.minaddr ≤ l.maxaddr ∨ malloc (2 ^ 32 - 65535) = false

/-- `ihex_load_sections` ends, and all it uses of its buffers is inside of them. -/
structure HexBounded (text : List Char) : Prop where
  served : malloc maxIhexSectionLen = true
  inside : ∀ count walk, walked malloc leftover garbage numSlots
    (.fresh leftover garbage 0 { rest := text, atEnd := false }) count = some walk →
      walk.Inside malloc leftover
  ends : ∃ count, walked malloc leftover garbage numSlots
    (.fresh leftover garbage 0 { rest := text, atEnd := false }) count = none

end Sections

section Bounds

/-- The lowest and the highest place that has been written to, or where they start. -/
structure Loading.Bounded (l : Loading) : Prop where
  low : 0 ≤ l.minaddr
  high : l.maxaddr < maxIhexSectionLen
  ordered : l.minaddr ≤ l.maxaddr ∨ l.minaddr = 65536 ∧ l.maxaddr = 0

theorem Loading.fresh_bounded (leftover : Leftover) : (Loading.fresh leftover).Bounded where
  low := (by decide : (0 : Int) ≤ 65536)
  high := (by decide : (0 : Int) < maxIhexSectionLen)
  ordered := .inr ⟨rfl, rfl⟩

private theorem copyBytes_bounded {l after : Loading} (bounded : l.Bounded) {addr : Int}
    {bytes : List UInt8}
    (inside : 0 < bytes.length → 0 ≤ addr ∧ addr + bytes.length ≤ maxIhexSectionLen)
    (copied : l.copyBytes addr bytes = some after) : after.Bounded := by
  induction bytes generalizing l addr with
  | nil =>
    cases copied
    exact bounded
  | cons byte rest ih =>
    obtain ⟨low, high⟩ := inside (Nat.succ_pos _)
    rw [List.length_cons] at high
    push_cast at high
    unfold Loading.copyBytes at copied
    split at copied
    case isTrue => cases copied
    case isFalse =>
      have bounds := bounded.low
      have top := bounded.high
      refine ih ⟨?_, ?_, .inl ?_⟩ (fun _ => ⟨by omega, by omega⟩) copied
      · exact le_min bounds low
      · exact max_lt top (by omega)
      · exact (min_le_right _ _).trans (le_max_right _ _)

variable {malloc : Nat → Bool} {leftover : Leftover} {garbage : Nat → Char} {numSlots : Nat}
  {walk walk' : Walk}

/-- What is copied is inside of the image, if there is data or no memory for it. -/
private theorem copyInside_iff {l : Loading} (bounded : l.Bounded) :
    CopyInside malloc l ↔ l.minaddr ≤ l.maxaddr ∨ malloc (2 ^ 32 - 65535) = false := by
  have low := bounded.low
  have high := bounded.high
  unfold maxIhexSectionLen at high
  unfold CopyInside maxIhexSectionLen
  dsimp only
  by_cases data : l.minaddr ≤ l.maxaddr
  · refine iff_of_true (fun _ _ => ⟨low, ?_⟩) (.inl data)
    rw [UInt32.toNat_ofNat']
    omega
  · obtain ⟨first, last⟩ := bounded.ordered.resolve_left data
    rw [first, last]
    have length : (UInt32.ofNat ((0 - 65536 + 1 : Int) % 2 ^ 32).toNat) = 4294901761 := by decide
    rw [length]
    have size : UInt32.toNat 4294901761 = 2 ^ 32 - 65535 := rfl
    rw [size]
    constructor
    · intro inside
      refine .inr ?_
      by_contra served
      rw [Bool.not_eq_false] at served
      have far := (inside served (by decide)).2
      omega
    · rintro (ordered | refused)
      · omega
      · intro served
        rw [refused] at served
        cases served

private theorem takeLine_length (count : Nat) (text : List Char) :
    (takeLine count text).length ≤ count := by
  induction count generalizing text with
  | zero => simp [takeLine]
  | succ count ih =>
    cases text with
    | nil => simp [takeLine]
    | cons c rest =>
      rw [takeLine]
      split
      · simp
      · exact Nat.succ_le_succ (ih rest)

private theorem read_short (walk : Walk) : walk.read.length < 512 :=
  Nat.lt_succ_of_le (takeLine_length 511 walk.file.rest)

private theorem pass_ended {l : Loading} {eof : Bool} {file : HexFile}
    (ended : walk.pass leftover = .ended l eof file) :
    l.minaddr = walk.l.minaddr ∧ l.maxaddr = walk.l.maxaddr := by
  unfold Walk.pass at ended
  split at ended
  case isTrue =>
    cases ended
    exact ⟨rfl, rfl⟩
  case isFalse =>
    dsimp only at ended
    split at ended
    · cases ended
    · split at ended
      · split at ended <;> cases ended
      · split at ended
        · cases ended
          exact ⟨rfl, rfl⟩
        · split at ended
          · split at ended
            · cases ended
              exact ⟨rfl, rfl⟩
            · cases ended
          · cases ended

/-- The bytes of a record are inside of the image, unless its address is negative or blank. -/
private theorem address_iff {scanned : Scanned}
    (parsed : parseHexLine leftover walk.l.scanned (stringOf walk.read) = some scanned) :
    (0 ≤ scanned.addr ∧ scanned.addr + scanned.n ≤ maxIhexSectionLen) ↔
      0 ≤ scanned.addr ∧ (scanHex 4 ((stringOf walk.read).drop 3) = .inputEnd →
        scanned.addr + scanned.n ≤ maxIhexSectionLen) := by
  obtain ⟨few, small | blank⟩ := parseHexLine_addr parsed
  · have inside : scanned.addr + scanned.n ≤ maxIhexSectionLen := by
      unfold maxIhexSectionLen
      omega
    simp [inside]
  · simp [blank]

/-- What a pass uses is inside of the buffers, if the pass fits. -/
theorem inside_iff_fits (bounded : walk.l.Bounded) :
    walk.Inside malloc leftover ↔ walk.Fits malloc leftover := by
  have short := read_short walk
  have string : EndsInside walk.theline 0 := (prepared_string short).1
  have cut := @cutPlaces_inside walk.line _ short
  have scanned := scanPlaces_inside leftover string
  have copied {l : Loading} {eof : Bool} {file : HexFile}
      (ended : walk.pass leftover = .ended l eof file) : l.Bounded := by
    obtain ⟨low, high⟩ := pass_ended ended
    exact ⟨low ▸ bounded.low, high ▸ bounded.high, low ▸ high ▸ bounded.ordered⟩
  have image : (∀ place ∈ walk.imagePlaces leftover, 0 ≤ place ∧ place < maxIhexSectionLen) ↔
      ∀ scanned, parseHexLine leftover walk.l.scanned (stringOf walk.read) = some scanned →
        scanned.status = 0 → 0 < scanned.n →
          0 ≤ scanned.addr ∧ (scanHex 4 ((stringOf walk.read).drop 3) = .inputEnd →
            scanned.addr + scanned.n ≤ maxIhexSectionLen) := by
    unfold Walk.imagePlaces
    cases parsed : parseHexLine leftover walk.l.scanned (stringOf walk.read) with
    | none => simp
    | some scanned =>
      dsimp only
      split
      case isTrue data =>
        rw [copyPlaces_inside, address_iff parsed]
        exact ⟨fun one other same _ => Option.some.inj same ▸ one, fun all => all scanned rfl data⟩
      case isFalse other =>
        refine iff_of_true (by simp) fun _ same data => ?_
        exact absurd (Option.some.inj same ▸ data) other
  constructor
  · intro inside
    exact {
      line := fun more => cut.mp (inside.cut more)
      length := fun more => scanned.mp (inside.scanned more)
      address := fun more => image.mp (inside.image more)
      data := fun l eof file ended =>
        (copyInside_iff (copied ended)).mp (inside.copied l eof file ended) }
  · intro fits
    exact {
      cut := fun more => cut.mpr (fits.line more)
      scanned := fun more => scanned.mpr (fits.length more)
      image := fun more => image.mpr (fits.address more)
      copied := fun l eof file ended =>
        (copyInside_iff (copied ended)).mpr (fits.data l eof file ended) }

/-- A pass that goes on has read a part of the file, and keeps the bounds. -/
private theorem pass_next (next : walk.pass leftover = .next walk') :
    walk'.slot = walk.slot ∧ walk'.file.rest.length < walk.file.rest.length ∧
      (walk.l.Bounded → walk.Fits malloc leftover → walk'.l.Bounded) := by
  unfold Walk.pass at next
  split at next
  case isTrue => cases next
  case isFalse more =>
    rw [Bool.not_eq_true] at more
    dsimp only at next
    split at next
    case h_1 => cases next
    case h_2 scanned parsed =>
      have shrinks : (walk.file.fgets 512).1.rest.length < walk.file.rest.length := by
        have some := parseHexLine_some (Option.isSome_iff_exists.mpr ⟨_, parsed⟩)
        have text := takeLine_ne_nil some
        have shorter := List.length_pos_iff.mpr some
        have longer := List.length_pos_iff.mpr text
        change (walk.file.rest.drop (takeLine 511 walk.file.rest).length).length < _
        change 0 < (takeLine 511 walk.file.rest).length at shorter
        rw [List.length_drop]
        omega
      split at next
      case isTrue data =>
        split at next
        case h_1 => cases next
        case h_2 after copied =>
          cases next
          refine ⟨rfl, shrinks, fun bounded fits => ?_⟩
          have same : { walk.l with scanned }.Bounded := ⟨bounded.low, bounded.high, bounded.ordered⟩
          refine copyBytes_bounded same (fun some => ?_) copied
          rw [window_length] at some ⊢
          exact (address_iff parsed).mpr (fits.address more scanned parsed data some)
      case isFalse =>
        split at next
        · cases next
        · split at next
          · split at next
            · cases next
            · cases next
              exact ⟨rfl, shrinks, fun bounded _ => ⟨bounded.low, bounded.high, bounded.ordered⟩⟩
          · cases next
            exact ⟨rfl, shrinks, fun bounded _ => ⟨bounded.low, bounded.high, bounded.ordered⟩⟩

/-- What can follow a pass: a pass in the same section with less to read, or the first one in the
section of the next slot. -/
private theorem step_cases (stepped : walk.step malloc leftover garbage numSlots = some walk') :
    walk.pass leftover = .next walk' ∨
      walk'.slot = walk.slot + 1 ∧ walk'.slot < numSlots ∧ walk'.l = .fresh leftover := by
  unfold Walk.step at stepped
  split at stepped
  case h_1 next =>
    cases stepped
    exact .inl next
  case h_2 => cases stepped
  case h_3 =>
    split at stepped
    · split at stepped
      case isTrue room =>
        cases stepped
        exact .inr ⟨rfl, room.2, rfl⟩
      case isFalse => cases stepped
    · cases stepped

private theorem walked_bounded {start : Walk} (fresh : start.l.Bounded)
    (fits : ∀ count walk, walked malloc leftover garbage numSlots start count = some walk →
      walk.l.Bounded → walk.Fits malloc leftover) {count : Nat}
    (reached : walked malloc leftover garbage numSlots start count = some walk) : walk.l.Bounded := by
  induction count generalizing walk with
  | zero =>
    cases reached
    exact fresh
  | succ count ih =>
    obtain ⟨before, earlier, stepped⟩ := Option.bind_eq_some_iff.mp reached
    obtain next | ⟨-, -, again⟩ := step_cases stepped
    · exact (pass_next next).2.2 (ih earlier) (fits count before earlier (ih earlier))
    · rw [again]
      exact Loading.fresh_bounded leftover

/-- The passes end: each one reads a part of the file, or is the first one for another slot. -/
theorem walked_ends (malloc : Nat → Bool) (leftover : Leftover) (garbage : Nat → Char)
    (numSlots : Nat) (start : Walk) :
    ∃ count, walked malloc leftover garbage numSlots start count = none := by
  have shift (start next : Walk)
      (stepped : start.step malloc leftover garbage numSlots = some next) (count : Nat) :
      walked malloc leftover garbage numSlots start (count + 1) =
        walked malloc leftover garbage numSlots next count := by
    induction count with
    | zero => exact stepped
    | succ count ih =>
      rw [walked, ih]
      rfl
  induction slots : numSlots - start.slot using Nat.strongRecOn generalizing start with
  | ind slots slotsLeft =>
    induction size : start.file.rest.length using Nat.strongRecOn generalizing start with
    | ind size textLeft =>
      cases stepped : start.step malloc leftover garbage numSlots with
      | none => exact ⟨1, stepped⟩
      | some next =>
        have rest : ∃ count, walked malloc leftover garbage numSlots next count = none := by
          obtain same | ⟨slot, room, -⟩ := step_cases stepped
          · obtain ⟨slot, shorter, -⟩ := @pass_next malloc _ _ _ same
            exact textLeft _ (size ▸ shorter) next (by rw [slot, slots]) rfl
          · exact slotsLeft _ (by omega) next rfl
        obtain ⟨count, ends⟩ := rest
        exact ⟨count + 1, (shift start next stepped count).trans ends⟩

end Bounds

/-- `ihex_load_sections` ends for every file. What it uses of its buffers is inside of them exactly
where every line that is reached has a character before its end and no length that is never reached,
where no byte has a negative address, or a blank one at the end of the image, and where every section
has data. -/
theorem hexBounded_iff (malloc : Nat → Bool) (leftover : Leftover) (garbage : Nat → Char)
    (text : List Char) (numSlots : Nat) :
    HexBounded malloc leftover garbage numSlots text ↔
      malloc maxIhexSectionLen = true ∧
        ∀ count walk, walked malloc leftover garbage numSlots
          (.fresh leftover garbage 0 { rest := text, atEnd := false }) count = some walk →
            walk.Fits malloc leftover := by
  have fresh := Loading.fresh_bounded leftover
  constructor
  · rintro ⟨served, inside, -⟩
    refine ⟨served, fun count walk reached => ?_⟩
    have bounded : walk.l.Bounded := by
      refine walked_bounded fresh (fun count walk earlier bounded => ?_) reached
      exact (inside_iff_fits bounded).mp (inside count walk earlier)
    exact (inside_iff_fits bounded).mp (inside count walk reached)
  · rintro ⟨served, fits⟩
    refine ⟨served, fun count walk reached => ?_, walked_ends ..⟩
    have bounded : walk.l.Bounded :=
      walked_bounded fresh (fun count walk earlier _ => fits count walk earlier) reached
    exact (inside_iff_fits bounded).mpr (fits count walk reached)

/-- An empty line. -/
theorem emptyLine_outside :
    ¬HexBounded (fun _ => true)
      { scanned := { addr := 0, n := 0, status := 0, bytes := fun _ => 0 }, len := 0, cksum := 0 }
      (fun _ => '\x00') 1 ['\n'] := by
  intro bounded
  have cut := (bounded.inside 0 _ rfl).cut rfl
  rw [cutPlaces_inside (by decide)] at cut
  exact cut.2 rfl

end InertialSense.Ihex
