import InertialSense.Ihex.Records

/-! The sections that are loaded from the records of a file: those of its segments, where the bytes
before the first segment count as the first segment's. -/

namespace InertialSense.Ihex

open Foundation

/-- The address of a segment. -/
def Segment.base (segment : Segment) : Nat := segment.upper.toNat * 65536

def Segment.address (segment : Segment) : UInt32 := segment.upper.toUInt32 <<< 16

/-- What the image of a segment is loaded with. -/
def Segment.at (segment : Segment) (offset : Nat) : UInt8 :=
  (lastAt segment.writes offset).getD 0xFF

def Segment.low (segment : Segment) : Nat := lowest 65536 segment.writes

def Segment.high (segment : Segment) : Nat := highest segment.writes

/-- The section that is loaded from a segment: its image is what is from the lowest address to the
highest, its address is the segment's. -/
def Segment.imageSection (segment : Segment) : ImageSection where
  address := segment.address
  len := UInt32.ofNat (segment.high + 1 - segment.low)
  image := window segment.at segment.low (UInt32.ofNat (segment.high + 1 - segment.low)).toNat
  sized := window_length ..

def HexContent.loaded (content : HexContent) : List Segment :=
  match content.segments with
  | [] => [{ upper := 0, writes := content.leading }]
  | first :: rest => { first with writes := content.leading ++ first.writes } :: rest

/-- The variables after these bytes have been read. -/
structure Loading.Holds (l : Loading) (segment : Segment) : Prop where
  image : ∀ offset : Nat, l.imageLocal offset = segment.at offset
  minaddr : l.minaddr = segment.low
  maxaddr : l.maxaddr = segment.high
  address : l.address = segment.address

section Copy

variable {l : Loading} {segment : Segment}

theorem Loading.Holds.write (holds : l.Holds segment) (offset : Nat) (byte : UInt8) :
    (l.write offset byte).Holds { segment with writes := segment.writes ++ [(offset, byte)] } where
  image place := by
    show (if (place : Int) = offset then byte else l.imageLocal place) =
      (lastAt (segment.writes ++ [(offset, byte)]) place).getD 0xFF
    rw [lastAt_append, holds.image]
    simp only [lastAt, Option.none_or, Int.natCast_inj]
    obtain same | other := eq_or_ne offset place
    · rw [if_pos same.symm, if_pos same]
      rfl
    · rw [if_neg other.symm, if_neg other]
      rfl
  minaddr := by
    show min l.minaddr offset = lowest 65536 (segment.writes ++ [(offset, byte)])
    rw [holds.minaddr, lowest, List.foldl_append]
    show min (segment.low : Int) offset = (min segment.low offset : Nat)
    omega
  maxaddr := by
    show max l.maxaddr offset = highest (segment.writes ++ [(offset, byte)])
    rw [holds.maxaddr, highest, List.foldl_append]
    show max (segment.high : Int) offset = (max segment.high offset : Nat)
    omega
  address := holds.address

/-- The bytes of a record are copied. -/
theorem copyBytes_placed (holds : l.Holds segment) (offset : Nat) (bytes : List UInt8)
    (within : offset + bytes.length ≤ maxIhexSectionLen) :
    ∃ l', l.copyBytes offset bytes = some l' ∧
      l'.Holds { segment with writes := segment.writes ++ placed offset bytes } ∧
      l'.alreadysetaddr = l.alreadysetaddr := by
  induction bytes generalizing l segment offset with
  | nil => exact ⟨l, rfl, by simpa [placed] using holds, rfl⟩
  | cons byte rest ih =>
    rw [List.length_cons] at within
    obtain ⟨l', copied, after, still⟩ := ih (holds.write offset byte) (offset + 1) (by omega)
    refine ⟨l', ?_, by simpa [placed] using after, still⟩
    rw [Loading.copyBytes, if_neg (by omega)]
    exact copied

end Copy

section Lines

variable {leftover : Leftover} {l : Loading} {segment : Segment} {line ending : List Char}

/-- A line that can be parsed. -/
private theorem loadLines_line {scanned : Scanned} {text fetched : List Char} {next : HexFile}
    (read : HexFile.fgets { rest := text, atEnd := false } 512 = (next, fetched))
    (parsed : parseHexLine leftover l.scanned (stringOf fetched) = some scanned) :
    loadLines leftover l { rest := text, atEnd := false } =
      if scanned.status = 0 then
        match { l with scanned }.copyBytes scanned.addr (window scanned.bytes 0 scanned.n) with
        | none => .error
        | some l => loadLines leftover l next
      else if scanned.status = 1 then .ended { l with scanned } true next
      else if scanned.status = 4 then
        if l.alreadysetaddr then .ended { l with scanned } false { rest := text, atEnd := false }
        else
          let address := (scanned.bytes 1).toUInt32 <<< 16 ||| (scanned.bytes 0).toUInt32 <<< 24
          loadLines leftover { l with scanned, address, alreadysetaddr := true } next
      else loadLines leftover { l with scanned } next := by
  rw [loadLines, if_neg Bool.false_ne_true]
  simp only [read]
  split
  case h_1 none =>
    simp only [read] at none
    exact absurd (parsed.symm.trans none) (Option.some_ne_none _)
  case h_2 found some =>
    simp only [read] at some
    obtain rfl := Option.some.inj (parsed.symm.trans some)
    rfl

private theorem fgets_record {type : UInt8} {addr : UInt16} {data : List UInt8}
    (written : RecordLine type addr data line) (short : line.length < 511)
    (ends : ending ∈ lineEnds) (next : List Char) :
    HexFile.fgets { rest := line ++ ending ++ next, atEnd := false } 512 =
        ({ rest := next, atEnd := false }, line ++ ending) ∧
      parseHexLine leftover l.scanned (stringOf (line ++ ending)) =
        some (l.scanned.after type addr data) := by
  have fits : line.length + ending.length ≤ 511 := by
    have length := written.length
    simp only [lineEnds, List.mem_cons, List.not_mem_nil, or_false] at ends
    obtain rfl | rfl := ends
    · exact short
    · simp only [List.length_cons, List.length_nil]
      omega
  refine ⟨fgets_line written.plain ends fits next false, ?_⟩
  rw [stringOf_line written.plain (List.mem_cons_of_mem [] ends)]
  exact parseHexLine_record leftover l.scanned written

theorem Loading.Holds.scanned (holds : l.Holds segment) (scanned : Scanned) :
    { l with scanned }.Holds segment :=
  ⟨holds.image, holds.minaddr, holds.maxaddr, holds.address⟩

theorem loadLines_data (leftover : Leftover) (holds : l.Holds segment) {addr : UInt16}
    {bytes : List UInt8} (written : (HexRecord.data addr bytes).Line line)
    (short : line.length < 511) (ends : ending ∈ lineEnds) (next : List Char) :
    ∃ l', loadLines leftover l { rest := line ++ ending ++ next, atEnd := false } =
        loadLines leftover l' { rest := next, atEnd := false } ∧
      l'.Holds { segment with writes := segment.writes ++ placed addr.toNat bytes } ∧
      l'.alreadysetaddr = l.alreadysetaddr := by
  obtain ⟨written, within⟩ := written
  obtain ⟨read, parsed⟩ := fgets_record written short ends next
  obtain ⟨l', copied, after, still⟩ :=
    copyBytes_placed (holds.scanned (l.scanned.after 0 addr bytes)) addr.toNat bytes
      (within.trans (by decide))
  refine ⟨l', ?_, after, still⟩
  rw [loadLines_line read parsed, if_pos (by rfl)]
  have all : window (l.scanned.after 0 addr bytes).bytes 0 bytes.length = bytes :=
    window_store l.scanned.bytes 0 bytes
  change (match { l with scanned := l.scanned.after 0 addr bytes }.copyBytes addr.toNat
      (window (l.scanned.after 0 addr bytes).bytes 0 bytes.length) with
    | none => LoopEnd.error
    | some l => loadLines leftover l { rest := next, atEnd := false }) = _
  rw [all, copied]

private theorem or_shifted (high low : UInt8) :
    (low.toUInt32 <<< 16 ||| high.toUInt32 <<< 24).toNat =
      (256 * high.toNat + low.toNat) * 65536 := by
  have small : high.toNat < 256 := high.toNat_lt
  have below : low.toNat <<< 16 < 2 ^ 24 := by
    have small : low.toNat < 256 := low.toNat_lt
    rw [Nat.shiftLeft_eq]
    omega
  have joined := Nat.shiftLeft_add_eq_or_of_lt below high.toNat
  simp only [UInt32.toNat_or, UInt32.toNat_shiftLeft, UInt8.toNat_toUInt32, UInt32.reduceToNat,
    Nat.reduceMod]
  rw [Nat.mod_eq_of_lt (below.trans (by decide)),
    Nat.mod_eq_of_lt (by rw [Nat.shiftLeft_eq]; omega), Nat.or_comm, ← joined, Nat.shiftLeft_eq,
    Nat.shiftLeft_eq]
  omega

theorem Segment.address_toNat (segment : Segment) : segment.address.toNat = segment.base := by
  have small : segment.upper.toNat < 65536 := segment.upper.toNat_lt
  show (segment.upper.toUInt32 <<< 16).toNat = segment.upper.toNat * 65536
  rw [UInt32.toNat_shiftLeft, UInt16.toNat_toUInt32]
  simp only [UInt32.reduceToNat, Nat.reduceMod, Nat.shiftLeft_eq]
  omega

private theorem halves_address (segment : Segment) :
    segment.upper.toUInt8.toUInt32 <<< 16 ||| (segment.upper >>> 8).toUInt8.toUInt32 <<< 24 =
      segment.address := by
  apply UInt32.toNat_inj.mp
  rw [or_shifted, halves_toNat, Segment.address_toNat]
  rfl

theorem loadLines_address (leftover : Leftover) (holds : l.Holds segment)
    (first : l.alreadysetaddr = false) {upper : UInt16}
    (written : (HexRecord.extendedAddress upper).Line line) (short : line.length < 511)
    (ends : ending ∈ lineEnds) (next : List Char) :
    ∃ l', loadLines leftover l { rest := line ++ ending ++ next, atEnd := false } =
        loadLines leftover l' { rest := next, atEnd := false } ∧
      l'.Holds { segment with upper } ∧ l'.alreadysetaddr = true := by
  obtain ⟨addr, written⟩ := written
  obtain ⟨read, parsed⟩ := fgets_record written short ends next
  let scanned := l.scanned.after 4 addr [(upper >>> 8).toUInt8, upper.toUInt8]
  let address : UInt32 := upper.toUInt32 <<< 16
  refine ⟨{ l with scanned, address, alreadysetaddr := true }, ?_,
    ⟨holds.image, holds.minaddr, holds.maxaddr, rfl⟩, rfl⟩
  rw [loadLines_line read parsed]
  simp only [first]
  show loadLines leftover { l with scanned, address := _ ||| _, alreadysetaddr := true } _ = _
  rw [show address = _ from (halves_address { segment with upper }).symm]
  rfl

/-- The next one ends the section; it is left to be read again. -/
theorem loadLines_next (leftover : Leftover) (holds : l.Holds segment)
    (next : l.alreadysetaddr = true) {upper : UInt16}
    (written : (HexRecord.extendedAddress upper).Line line) (short : line.length < 511)
    (ends : ending ∈ lineEnds) (rest : List Char) :
    ∃ l', loadLines leftover l { rest := line ++ ending ++ rest, atEnd := false } =
        .ended l' false { rest := line ++ ending ++ rest, atEnd := false } ∧
      l'.Holds segment := by
  obtain ⟨addr, written⟩ := written
  obtain ⟨read, parsed⟩ := fgets_record written short ends rest
  refine ⟨_, (loadLines_line read parsed).trans ?_,
    holds.scanned (l.scanned.after 4 addr [(upper >>> 8).toUInt8, upper.toUInt8])⟩
  simp only [next]
  rfl

theorem loadLines_last (leftover : Leftover) (holds : l.Holds segment) {addr : UInt16}
    (written : RecordLine 1 addr [] line) (ends : ending ∈ [] :: lineEnds) :
    ∃ l' file, loadLines leftover l { rest := line ++ ending, atEnd := false } =
        .ended l' true file ∧ l'.Holds segment := by
  have fits : line.length + ending.length ≤ 511 := by
    rw [written.length]
    simp only [lineEnds, List.mem_cons, List.not_mem_nil, or_false] at ends
    obtain rfl | rfl | rfl := ends <;> decide
  let file : HexFile := { rest := line ++ ending, atEnd := false }
  have read : file.fgets 512 = ((file.fgets 512).1, line ++ ending) :=
    Prod.ext rfl (fgets_last written.plain ends fits false)
  have parsed := parseHexLine_record leftover l.scanned written
  rw [← stringOf_line written.plain ends] at parsed
  refine ⟨_, (file.fgets 512).1, (loadLines_line read parsed).trans ?_,
    holds.scanned (l.scanned.after 1 addr [])⟩
  rfl

end Lines

section Loops

variable {l : Loading} {segment : Segment} {records : List HexRecord} {text : List Char}

/-- The loop over the lines ended with the bytes of this segment; these segments are behind it. -/
def LoopEnd.Reached (result : LoopEnd) (segment : Segment) (segments : List Segment) : Prop :=
  ∃ l eof file, result = .ended l eof file ∧ l.Holds segment ∧
    (segments = [] ∧ eof = true ∨
      eof = false ∧ file.atEnd = false ∧ ∃ records, HexText records file.rest ∧
        contentOf records = { leading := [], segments } ∧ segments ≠ [])

/-- Behind the address of the section, its bytes are read. -/
theorem loadLines_segment (leftover : Leftover) (written : HexText records text)
    (holds : l.Holds segment) (set : l.alreadysetaddr = true) :
    (loadLines leftover l { rest := text, atEnd := false }).Reached
      { segment with writes := segment.writes ++ (contentOf records).leading }
      (contentOf records).segments := by
  induction written generalizing l segment with
  | last written ends =>
    obtain ⟨l', file, same, after⟩ := loadLines_last leftover holds written ends
    exact ⟨l', true, file, same, by simpa [contentOf] using after, .inl ⟨rfl, rfl⟩⟩
  | @record record line ending records text written short ends rest ih =>
    cases record with
    | data addr bytes =>
      obtain ⟨l', same, after, still⟩ := loadLines_data leftover holds written short ends text
      have reached := ih after (still.trans set)
      rw [List.append_assoc] at reached
      rw [same]
      exact reached
    | extendedAddress upper =>
      obtain ⟨l', same, after⟩ := loadLines_next leftover holds set written short ends text
      exact ⟨l', false, _, same, by simpa [contentOf] using after,
        .inr ⟨rfl, rfl, _, .record written short ends rest, rfl, List.cons_ne_nil _ _⟩⟩

/-- Before it, the bytes of the file count as those of its first segment. -/
theorem loadLines_first (leftover : Leftover) (written : HexText records text)
    (holds : l.Holds segment) (unset : l.alreadysetaddr = false) :
    match (contentOf records).segments with
    | [] => (loadLines leftover l { rest := text, atEnd := false }).Reached
        { segment with writes := segment.writes ++ (contentOf records).leading } []
    | first :: others => (loadLines leftover l { rest := text, atEnd := false }).Reached
        { first with writes := segment.writes ++ ((contentOf records).leading ++ first.writes) }
        others := by
  induction written generalizing l segment with
  | last written ends =>
    obtain ⟨l', file, same, after⟩ := loadLines_last leftover holds written ends
    exact ⟨l', true, file, same, by simpa [contentOf] using after, .inl ⟨rfl, rfl⟩⟩
  | @record record line ending records text written short ends rest ih =>
    cases record with
    | data addr bytes =>
      obtain ⟨l', same, after, still⟩ := loadLines_data leftover holds written short ends text
      have reached := ih after (still.trans unset)
      rw [same]
      simpa only [contentOf, List.append_assoc] using reached
    | extendedAddress upper =>
      obtain ⟨l', same, after, set⟩ :=
        loadLines_address leftover holds unset written short ends text
      rw [same]
      exact loadLines_segment leftover rest after set

end Loops

/-- A segment with bytes, none of them behind its end. -/
structure Segment.Fits (segment : Segment) : Prop where
  some : segment.writes ≠ []
  within : ∀ write ∈ segment.writes, write.1 < 65536

theorem Segment.Fits.bounds {segment : Segment} (fits : segment.Fits) :
    segment.low ≤ segment.high ∧ segment.high < 65536 := by
  obtain ⟨last, member, same⟩ := highest_mem fits.some
  constructor
  · have below : segment.low ≤ last.1 := lowest_le member
    exact below.trans (Nat.le_of_eq same)
  · have below := fits.within last member
    rwa [same] at below

theorem Segment.Fits.imageSection_len {segment : Segment} (fits : segment.Fits) :
    segment.imageSection.len.toNat = segment.high + 1 - segment.low := by
  have bounds := fits.bounds
  show (UInt32.ofNat _).toNat = _
  rw [UInt32.toNat_ofNat']
  omega

/-- The offsets in the records of a file are those of 64 KiB. -/
theorem HexText.within {records : List HexRecord} {text : List Char}
    (written : HexText records text) :
    (∀ write ∈ (contentOf records).leading, write.1 < 65536) ∧
      ∀ segment ∈ (contentOf records).segments, ∀ write ∈ segment.writes, write.1 < 65536 := by
  induction written with
  | last =>
    exact ⟨fun _ member => absurd member List.not_mem_nil,
      fun _ member => absurd member List.not_mem_nil⟩
  | @record record line ending records text written short ends rest ih =>
    cases record with
    | data addr bytes =>
      refine ⟨fun write member => ?_, ih.2⟩
      obtain here | later := List.mem_append.mp member
      · exact (mem_placed here).2.trans_le written.2
      · exact ih.1 write later
    | extendedAddress upper =>
      exact ⟨fun _ member => absurd member List.not_mem_nil, List.forall_mem_cons.mpr ih⟩

section Load

variable {malloc : Nat → Bool} (leftover : Leftover)
  (serves : ∀ size ≤ maxIhexSectionLen, malloc size = true)

include serves

theorem finishSection_holds {l : Loading} {segment : Segment} (holds : l.Holds segment)
    (fits : segment.Fits) (eof : Bool) (file : HexFile) :
    finishSection malloc l eof file = .loaded eof file segment.imageSection := by
  have bounds := fits.bounds
  have size := fits.imageSection_len
  change (UInt32.ofNat (segment.high + 1 - segment.low)).toNat = _ at size
  have len : ((l.maxaddr - l.minaddr + 1) % 2 ^ 32).toNat = segment.high + 1 - segment.low := by
    rw [holds.minaddr, holds.maxaddr]
    omega
  have small : segment.high + 1 - segment.low ≤ maxIhexSectionLen := by
    simp only [maxIhexSectionLen]
    omega
  have served : malloc (UInt32.ofNat (segment.high + 1 - segment.low)).toNat = true :=
    serves _ (size.trans_le small)
  have nonzero : UInt32.ofNat (segment.high + 1 - segment.low) ≠ 0 := by
    intro zero
    rw [zero] at size
    change 0 = _ at size
    omega
  have inside : 0 ≤ l.minaddr ∧
      l.minaddr + (UInt32.ofNat (segment.high + 1 - segment.low)).toNat ≤ maxIhexSectionLen := by
    rw [holds.minaddr, size]
    simp only [maxIhexSectionLen]
    omega
  have image : window (fun k => l.imageLocal (l.minaddr + k)) 0
      (UInt32.ofNat (segment.high + 1 - segment.low)).toNat = segment.imageSection.image := by
    refine window_congr fun k _ => ?_
    rw [holds.minaddr, Nat.zero_add]
    exact holds.image (segment.low + k)
  unfold finishSection
  simp only [len]
  rw [if_pos ⟨served, nonzero⟩, if_pos inside]
  exact congrArg (LoadResult.loaded eof file) (ImageSection.ext holds.address rfl image)

private theorem ihexLoadSection_ended {leftover : Leftover} {l : Loading} {eof : Bool}
    {file left : HexFile} (ended : loadLines leftover (.fresh leftover) file = .ended l eof left) :
    ihexLoadSection malloc leftover file = finishSection malloc l eof left := by
  unfold ihexLoadSection
  rw [if_pos (serves _ (Nat.le_refl _)), ended]

omit serves in
private theorem fresh_holds (leftover : Leftover) :
    (Loading.fresh leftover).Holds { upper := 0, writes := [] } :=
  ⟨fun _ => rfl, rfl, rfl, rfl⟩

theorem ihexLoadSection_first {records : List HexRecord} {text : List Char}
    (written : HexText records text) {first : Segment} {others : List Segment}
    (loaded : (contentOf records).loaded = first :: others) (fits : first.Fits) :
    ∃ eof file, ihexLoadSection malloc leftover { rest := text, atEnd := false } =
        .loaded eof file first.imageSection ∧
      (others = [] ∧ eof = true ∨
        eof = false ∧ file.atEnd = false ∧ ∃ records, HexText records file.rest ∧
          contentOf records = { leading := [], segments := others } ∧ others ≠ []) := by
  have reached : (loadLines leftover (.fresh leftover)
      { rest := text, atEnd := false }).Reached first others := by
    have ends := loadLines_first leftover written (fresh_holds leftover) rfl
    unfold HexContent.loaded at loaded
    split at loaded
    case h_1 none =>
      obtain ⟨rfl, rfl⟩ := List.cons.inj loaded
      rwa [none] at ends
    case h_2 segment segments some =>
      obtain ⟨rfl, rfl⟩ := List.cons.inj loaded
      rwa [some] at ends
  obtain ⟨l, eof, file, same, holds, left⟩ := reached
  refine ⟨eof, file, ?_, left⟩
  rw [ihexLoadSection_ended serves same]
  exact finishSection_holds serves holds fits eof file

/-- Without any byte, the length of the section is below zero. -/
theorem ihexLoadSection_empty {records : List HexRecord} {text : List Char}
    (written : HexText records text)
    (empty : contentOf records = { leading := [], segments := [] }) :
    ihexLoadSection malloc leftover { rest := text, atEnd := false } =
      if malloc 0xFFFF0001 then .undefined else .error := by
  have reached := loadLines_first leftover written (fresh_holds leftover) rfl
  rw [empty] at reached
  obtain ⟨l, eof, file, same, holds, -⟩ := reached
  have len : UInt32.ofNat ((l.maxaddr - l.minaddr + 1) % 2 ^ 32).toNat = 0xFFFF0001 := by
    rw [holds.maxaddr, holds.minaddr]
    rfl
  have size : (0xFFFF0001 : UInt32).toNat = 0xFFFF0001 := rfl
  have beyond : ¬(0 ≤ l.minaddr ∧ l.minaddr + (0xFFFF0001 : Nat) ≤ maxIhexSectionLen) := by
    rw [holds.minaddr]
    decide
  rw [ihexLoadSection_ended serves same]
  unfold finishSection
  simp only [len, size]
  rw [if_neg beyond]
  simp

/-- All sections of a file. -/
theorem loadSections_loaded {records : List HexRecord} {text : List Char}
    (written : HexText records text) (fits : ∀ segment ∈ (contentOf records).loaded, segment.Fits)
    {slots : Nat} (enough : (contentOf records).loaded.length ≤ slots) :
    loadSections malloc leftover slots { rest := text, atEnd := false } =
      some ((contentOf records).loaded.map Segment.imageSection) := by
  induction loaded : (contentOf records).loaded generalizing records text slots with
  | nil =>
    unfold HexContent.loaded at loaded
    split at loaded <;> cases loaded
  | cons first others ih =>
    rw [loaded] at fits enough
    obtain ⟨slots, rfl⟩ := Nat.exists_eq_succ_of_ne_zero (Nat.ne_zero_of_lt enough)
    obtain ⟨first_fits, others_fit⟩ := List.forall_mem_cons.mp fits
    obtain ⟨eof, file, same, left⟩ :=
      ihexLoadSection_first leftover serves written loaded first_fits
    rw [loadSections, same]
    obtain ⟨rfl, rfl⟩ | ⟨rfl, open', next, text', content, some⟩ := left
    · rfl
    · have again : (contentOf next).loaded = others := by
        obtain ⟨segment, segments, rfl⟩ := List.exists_cons_of_ne_nil some
        rw [content]
        rfl
      have more : (contentOf next).loaded.length ≤ slots := by
        rw [again]
        exact Nat.le_of_succ_le_succ enough
      have nonzero : slots ≠ 0 := by
        have length := List.length_pos_iff.mpr some
        rw [again] at more
        omega
      have rest := ih text' (by rwa [again]) more again
      obtain ⟨rest', atEnd⟩ := file
      obtain rfl : atEnd = false := open'
      simp only [nonzero, Bool.false_eq_true, or_self, if_false]
      rw [rest]
      rfl

end Load

end InertialSense.Ihex
