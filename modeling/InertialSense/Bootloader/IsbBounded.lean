import InertialSense.Bootloader.Isb

/-! Where `process_hex_file` stays inside of its buffer and of the page: the padding is compared with
the buffer as bytes and written as characters, and a chunk is sent whole behind the end of a page. -/

namespace InertialSense.Bootloader.Isb

open Foundation

/-- A frame whose length and offset fit into their fields, and that ends in the page. -/
def Frame.Fits (frame : Frame) : Prop :=
  1 ≤ frame.byteCount ∧ frame.byteCount ≤ 255 ∧ 0 ≤ frame.offset ∧
    frame.offset + frame.byteCount ≤ flashPageSize

namespace Upload

/-- The buffer was not left, and every frame that was sent fits. -/
structure Bounded (s : Upload) : Prop where
  buffer : s.furthest ≤ 2 * hexBufferSize
  frames : ∀ frame ∈ s.frames, frame.Fits

section Conditions

variable (port : Nat → Bool) (s : Upload) (line : List UInt8)

/-- A chunk ends in the page, unless it has no byte, or the part of it before the end of the page is
not acknowledged. -/
def ChunkFits (charCount : Nat) : Prop :=
  charCount = 0 ∨ charCount = 1 ∧ s.currentOffset ≤ flashPageSize ∨
    0 ≤ s.currentOffset ∧ (s.currentOffset + (charCount / 2 : Nat) ≤ flashPageSize ∨
      s.currentOffset < flashPageSize ∧ port s.answers = false)

def pad : Int := Int.bmod (subOffsetOf line - s.lastSubOffset) (2 ^ 32)

/-- The characters that are padded. -/
def padChars : Nat := if s.lastSubOffset < subOffsetOf line then 2 * (s.pad line % 2 ^ 32).toNat else 0

/-- The padding is not refused. -/
def Pads : Prop :=
  s.lastSubOffset < subOffsetOf line → s.output.length + s.pad line < 2 * hexBufferSize

/-- The padding of a line of data fits into the buffer, and the chunk into the page. -/
structure DataFits : Prop where
  padding : s.Pads line → s.lastSubOffset < subOffsetOf line →
    s.output.length + s.padChars line ≤ 2 * hexBufferSize
  chunk : s.Pads line → s.output.length + s.padChars line + (line.length - 11) < 2 * hexBufferSize →
    maxSendCount ≤ s.output.length + s.padChars line + (line.length - 11) →
      s.ChunkFits port maxSendCount

/-- What is left in the buffer fits into the page, if it can be sent at once. -/
def FlushFits : Prop :=
  s.output.length ≤ maxSendCount → 0 ≤ s.currentOffset ∧ s.ChunkFits port s.output.length

/-- What a line sends fits. -/
structure LineFits : Prop where
  data : isData line = true → line.length ≤ 4 * hexBufferSize → s.DataFits port line
  segment : isData line = false → isSegment line = true → pageOf line ≠ 0 → s.FlushFits port
  last : isData line = false → isSegment line = false → isLast line = true → s.FlushFits port

end Conditions

section Steps

variable {port : Nat → Bool} {s : Upload}

private theorem bounded_congr (s s' : Upload) (furthest : s'.furthest = s.furthest)
    (frames : s'.frames = s.frames) : s'.Bounded ↔ s.Bounded := by
  constructor
  · rintro ⟨buffer, fits⟩
    exact ⟨furthest ▸ buffer, frames ▸ fits⟩
  · rintro ⟨buffer, fits⟩
    exact ⟨furthest.symm ▸ buffer, frames.symm ▸ fits⟩

/-- What comes of a frame: it is sent, and its bytes are counted if it is acknowledged. -/
structure Sends (port : Nat → Bool) (s : Upload) (byteCount : Int) (sent : Upload × Bool) : Prop where
  furthest : sent.1.furthest = s.furthest
  frames : ∃ hexData, sent.1.frames = s.frames ++ [{ byteCount, offset := s.currentOffset, hexData }]
  answer : sent.2 = port s.answers
  offset : sent.2 = true → sent.1.currentOffset = s.currentOffset + byteCount

private theorem uploadHexPage_sends (hexData : List UInt8) {byteCount : Int}
    (some : byteCount ≠ 0) : Sends port s byteCount (s.uploadHexPage port hexData byteCount) := by
  unfold uploadHexPage ask
  rw [if_neg some]
  dsimp only
  cases answer : port s.answers with
  | false => exact ⟨rfl, ⟨_, rfl⟩, answer.symm, nofun⟩
  | true => exact ⟨rfl, ⟨_, rfl⟩, answer.symm, fun _ => rfl⟩

private theorem uploadHexPage_none (hexData : List UInt8) :
    s.uploadHexPage port hexData 0 = (s, true) := if_pos rfl

private theorem Sends.bounded {byteCount : Int} {sent : Upload × Bool}
    (sends : Sends port s byteCount sent) : sent.1.Bounded ↔ s.Bounded ∧
      (1 ≤ byteCount ∧ byteCount ≤ 255 ∧ 0 ≤ s.currentOffset ∧
        s.currentOffset + byteCount ≤ flashPageSize) := by
  obtain ⟨hexData, frames⟩ := sends.frames
  have added : (∀ frame ∈ sent.1.frames, frame.Fits) ↔ (∀ frame ∈ s.frames, frame.Fits) ∧
      Frame.Fits { byteCount, offset := s.currentOffset, hexData } := by
    rw [frames, List.forall_mem_append, List.forall_mem_singleton]
  constructor
  · rintro ⟨buffer, fits⟩
    obtain ⟨before, this⟩ := added.mp fits
    exact ⟨⟨sends.furthest ▸ buffer, before⟩, this⟩
  · rintro ⟨⟨buffer, before⟩, this⟩
    exact ⟨sends.furthest.symm ▸ buffer, added.mpr ⟨before, this⟩⟩

private theorem uploadHexPage_bounded (hexData : List UInt8) (byteCount : Int) :
    (s.uploadHexPage port hexData byteCount).1.Bounded ↔ s.Bounded ∧
      (byteCount = 0 ∨ 1 ≤ byteCount ∧ byteCount ≤ 255 ∧ 0 ≤ s.currentOffset ∧
        s.currentOffset + byteCount ≤ flashPageSize) := by
  by_cases none : byteCount = 0
  · subst none
    rw [uploadHexPage_none]
    exact (and_iff_left (.inl rfl)).symm
  · rw [(uploadHexPage_sends hexData none).bounded, or_iff_right none]

private theorem uploadHexPage_offset (hexData : List UInt8) (byteCount : Int)
    (success : (s.uploadHexPage port hexData byteCount).2 = true) :
    (s.uploadHexPage port hexData byteCount).1.currentOffset = s.currentOffset + byteCount := by
  by_cases none : byteCount = 0
  · subst none
    rw [uploadHexPage_none]
    exact (Int.add_zero _).symm
  · exact (uploadHexPage_sends hexData none).offset success

/-! ### Chunks -/

/-- A chunk keeps to the bounds exactly when it fits, or is refused. -/
private theorem uploadHex_bounded (hexData : List UInt8) (charCount : Nat) :
    (s.uploadHex port hexData charCount).1.Bounded ↔
      s.Bounded ∧ (charCount ≤ maxSendCount → s.ChunkFits port charCount) := by
  unfold uploadHex
  by_cases long : maxSendCount < charCount
  · rw [if_pos (Int.ofNat_lt.mpr long)]
    exact (and_iff_left fun short => absurd long (Nat.not_lt.mpr short)).symm
  rw [if_neg (mt Int.ofNat_lt.mp long), imp_iff_right (Nat.not_lt.mp long)]
  by_cases none : charCount = 0
  · rw [if_pos (by omega)]
    exact (and_iff_left (.inl none)).symm
  rw [if_neg (by omega)]
  unfold ChunkFits
  unfold maxSendCount at long
  by_cases beyond : flashPageSize < s.currentOffset + (charCount : Int) / 2
  · rw [if_pos beyond]
    dsimp only
    have first := @uploadHexPage_bounded port s hexData (flashPageSize - s.currentOffset)
    have offset := @uploadHexPage_offset port s hexData (flashPageSize - s.currentOffset)
    have answer (some : flashPageSize - s.currentOffset ≠ 0) :=
      (@uploadHexPage_sends port s hexData _ some).answer
    have nothing : flashPageSize - s.currentOffset = 0 →
        (s.uploadHexPage port hexData (flashPageSize - s.currentOffset)).2 = true := fun zero => by
      rw [zero, uploadHexPage_none]
    unfold flashPageSize at *
    rcases sent : s.uploadHexPage port hexData (65536 - s.currentOffset) with ⟨s', success⟩
    rw [sent] at first offset nothing answer
    dsimp only at first offset nothing answer
    cases success with
    | false =>
      have some : 65536 - s.currentOffset ≠ 0 := fun zero => nomatch nothing zero
      have silent := answer some
      dsimp only
      rw [first]
      refine and_congr_right fun _ => ⟨fun fits => .inr (.inr ?_), fun fits => .inr ?_⟩
      · exact ⟨by omega, .inr ⟨by omega, silent.symm⟩⟩
      · omega
    | true =>
      have ends := offset rfl
      have more : (charCount : Int) - 2 * (65536 - s.currentOffset) ≠ 0 := by omega
      have count : 1 ≤ ((charCount : Int) - 2 * (65536 - s.currentOffset)).tdiv 2 := by
        rw [Int.tdiv_eq_ediv_of_nonneg (by omega)]
        omega
      dsimp only
      rw [if_pos more, uploadHexPage_bounded]
      unfold flashPageSize
      refine iff_of_false (fun bounded => ?_) fun bounded => ?_
      · omega
      · obtain ⟨-, none' | ⟨one, within⟩ | ⟨-, within | ⟨before, silent⟩⟩⟩ := bounded
        · exact none none'
        · omega
        · omega
        · have acknowledged := answer (by omega)
          rw [silent] at acknowledged
          cases acknowledged
  · rw [if_neg beyond, uploadHexPage_bounded]
    unfold flashPageSize at *
    refine and_congr_right fun _ => ⟨fun fits => ?_, fun fits => ?_⟩
    · omega
    · omega

private theorem uploadHex_offset {hexData : List UInt8} {charCount : Nat}
    (inside : 0 ≤ s.currentOffset)
    (success : (s.uploadHex port hexData charCount).2 = true) :
    0 ≤ (s.uploadHex port hexData charCount).1.currentOffset := by
  unfold uploadHex at success ⊢
  by_cases long : (maxSendCount : Int) < charCount
  · rw [if_pos long] at success
    cases success
  rw [if_neg long] at success ⊢
  by_cases none : (charCount : Int) = 0
  · rw [if_pos none]
    exact inside
  rw [if_neg none] at success ⊢
  by_cases beyond : flashPageSize < s.currentOffset + (charCount : Int) / 2
  · rw [if_pos beyond] at success ⊢
    dsimp only at success ⊢
    have offset := @uploadHexPage_offset port s hexData (flashPageSize - s.currentOffset)
    rcases sent : s.uploadHexPage port hexData (flashPageSize - s.currentOffset) with ⟨s', first⟩
    rw [sent] at success offset
    cases first with
    | false => cases success
    | true =>
      have ends := offset rfl
      dsimp only at success ends ⊢
      unfold flashPageSize at *
      have more : (charCount : Int) - 2 * (65536 - s.currentOffset) ≠ 0 := by omega
      have rest : 0 ≤ ((charCount : Int) - 2 * (65536 - s.currentOffset)).tdiv 2 :=
        Int.tdiv_nonneg (by omega) (by decide)
      rw [if_pos more] at success ⊢
      rw [uploadHexPage_offset _ _ success]
      omega
  · rw [if_neg beyond] at success ⊢
    rw [uploadHexPage_offset _ _ success]
    omega

/-! ### The rest of a page -/

private theorem fill_full (full : ¬s.currentOffset < flashPageSize) (passes : Nat) :
    s.fillCurrentPage port passes = s := by
  cases passes with
  | zero => rfl
  | succ passes => exact if_neg full

/-- A pass sends a frame, and the loop goes on behind it if it is acknowledged. -/
private theorem fill_succ (port : Nat → Bool) (room : s.currentOffset < flashPageSize) :
    ∃ sent : Upload, (sent.Bounded ↔ s.Bounded ∧ 0 ≤ s.currentOffset) ∧
      ((∀ passes, s.fillCurrentPage port (passes + 1) = sent) ∨
        s.currentOffset < sent.currentOffset ∧
          ∀ passes, s.fillCurrentPage port (passes + 1) = sent.fillCurrentPage port passes) := by
  obtain ⟨byteCount, same⟩ :
      ∃ byteCount, byteCount = min ((flashPageSize - s.currentOffset) * 2) 256 := ⟨_, rfl⟩
  have bounded := @uploadHexPage_bounded port s (List.replicate byteCount.toNat 0x46) (byteCount / 2)
  have offset := @uploadHexPage_offset port s (List.replicate byteCount.toNat 0x46) (byteCount / 2)
  rcases sent : s.uploadHexPage port (List.replicate byteCount.toNat 0x46) (byteCount / 2) with
    ⟨s', success⟩
  have body (passes : Nat) : s.fillCurrentPage port (passes + 1) =
      if success then s'.fillCurrentPage port passes else s' := by
    rw [fillCurrentPage, if_pos room]
    dsimp only
    rw [← same, sent]
    cases success with
    | false => rfl
    | true => rfl
  rw [sent] at bounded offset
  refine ⟨s', bounded.trans (and_congr_right fun _ => by omega), ?_⟩
  cases success with
  | false => exact .inl body
  | true =>
    have ends : s'.currentOffset = s.currentOffset + byteCount / 2 := offset rfl
    exact .inr ⟨by omega, body⟩

/-- A page is filled, or left when a frame is not acknowledged, before the passes end. -/
theorem fillCurrentPage_enough {passes passes' : Nat}
    (enough : (flashPageSize - s.currentOffset).toNat ≤ passes)
    (enough' : (flashPageSize - s.currentOffset).toNat ≤ passes') :
    s.fillCurrentPage port passes = s.fillCurrentPage port passes' := by
  induction passes generalizing s passes' with
  | zero =>
    have full : ¬s.currentOffset < flashPageSize := by omega
    rw [fill_full full, fill_full full]
  | succ passes ih =>
    by_cases room : s.currentOffset < flashPageSize
    · obtain ⟨passes', rfl⟩ : ∃ more, passes' = more + 1 := ⟨passes' - 1, by omega⟩
      obtain ⟨sent, -, stops | ⟨more, goes⟩⟩ := fill_succ port room
      · rw [stops, stops]
      · rw [goes, goes]
        exact ih (by omega) (by omega)
    · rw [fill_full room, fill_full room]

private theorem bounded_of_fill {passes : Nat}
    (bounded : (s.fillCurrentPage port passes).Bounded) : s.Bounded := by
  induction passes generalizing s with
  | zero => exact bounded
  | succ passes ih =>
    by_cases room : s.currentOffset < flashPageSize
    · obtain ⟨sent, fits, stops | ⟨-, goes⟩⟩ := fill_succ port room
      · exact (fits.mp (stops passes ▸ bounded)).1
      · exact (fits.mp (ih (goes passes ▸ bounded))).1
    · exact fill_full room _ ▸ bounded

private theorem fill_bounded {passes : Nat} (bounded : s.Bounded) (inside : 0 ≤ s.currentOffset) :
    (s.fillCurrentPage port passes).Bounded := by
  induction passes generalizing s with
  | zero => exact bounded
  | succ passes ih =>
    by_cases room : s.currentOffset < flashPageSize
    · obtain ⟨sent, fits, stops | ⟨more, goes⟩⟩ := fill_succ port room
      · exact stops passes ▸ fits.mpr ⟨bounded, inside⟩
      · exact goes passes ▸ ih (fits.mpr ⟨bounded, inside⟩) (by omega)
    · exact (fill_full room _).symm ▸ bounded

private theorem fillPage_bounded :
    (s.fillPage port).Bounded ↔ s.Bounded ∧ 0 ≤ s.currentOffset := by
  refine ⟨fun bounded => ⟨bounded_of_fill bounded, ?_⟩, fun good => fill_bounded good.1 good.2⟩
  by_cases room : s.currentOffset < flashPageSize
  · obtain ⟨passes, some⟩ : ∃ passes, (flashPageSize - s.currentOffset).toNat = passes + 1 :=
      ⟨(flashPageSize - s.currentOffset).toNat - 1, by omega⟩
    unfold fillPage at bounded
    rw [some] at bounded
    obtain ⟨sent, fits, stops | ⟨-, goes⟩⟩ := fill_succ port room
    · exact (fits.mp (stops passes ▸ bounded)).2
    · exact (fits.mp (bounded_of_fill (goes passes ▸ bounded))).2
  · unfold flashPageSize at room
    omega

/-! ### Lines -/

private theorem uploadHex_small {hexData : List UInt8} {charCount : Nat} (few : charCount < 2)
    (inside : charCount = 1 → s.currentOffset ≤ flashPageSize) :
    s.uploadHex port hexData charCount = (s, true) := by
  unfold uploadHex maxSendCount
  rw [if_neg (by omega)]
  by_cases none : charCount = 0
  · rw [if_pos (by omega)]
  · have one : charCount = 1 := by omega
    have byte : (charCount : Int) / 2 = 0 := by omega
    rw [if_neg (by omega), byte, Int.add_zero, if_neg (Int.not_lt.mpr (inside one)),
      uploadHexPage_none]

private theorem uploadHex_long {hexData : List UInt8} {charCount : Nat}
    (long : maxSendCount < charCount) : s.uploadHex port hexData charCount = (s, false) :=
  if_pos (Int.ofNat_lt.mpr long)

/-- What is left is sent within the bounds, and the page filled behind it, exactly when it fits. -/
private theorem flush_bounded (hexData : List UInt8) {after : Upload}
    (refused : (s.uploadHex port hexData s.output.length).2 = false →
      (after.Bounded ↔ (s.uploadHex port hexData s.output.length).1.Bounded))
    (filled : (s.uploadHex port hexData s.output.length).2 = true →
      (after.Bounded ↔ (s.uploadHex port hexData s.output.length).1.Bounded ∧
        0 ≤ (s.uploadHex port hexData s.output.length).1.currentOffset)) :
    after.Bounded ↔ s.Bounded ∧ s.FlushFits port := by
  have chunk := @uploadHex_bounded port s hexData s.output.length
  unfold FlushFits
  constructor
  · intro bounded
    have sent : (s.uploadHex port hexData s.output.length).1.Bounded := by
      cases success : (s.uploadHex port hexData s.output.length).2 with
      | false => exact (refused success).mp bounded
      | true => exact ((filled success).mp bounded).1
    obtain ⟨before, fits⟩ := chunk.mp sent
    refine ⟨before, fun short => ⟨?_, fits short⟩⟩
    have small (few : s.output.length < 2)
        (inside : s.output.length = 1 → s.currentOffset ≤ flashPageSize) : 0 ≤ s.currentOffset := by
      have kept := @uploadHex_small port s hexData _ few inside
      have ends := ((filled (by rw [kept])).mp bounded).2
      rw [kept] at ends
      exact ends
    obtain none | ⟨one, inside⟩ | ⟨inside, -⟩ := fits short
    · exact small (by omega) fun one => absurd (none.symm.trans one) (by decide)
    · exact small (by omega) fun _ => inside
    · exact inside
  · rintro ⟨before, fits⟩
    have sent := chunk.mpr ⟨before, fun short => (fits short).2⟩
    cases success : (s.uploadHex port hexData s.output.length).2 with
    | false => exact (refused success).mpr sent
    | true =>
      have short : s.output.length ≤ maxSendCount := by
        by_contra long
        rw [uploadHex_long (Nat.not_le.mp long)] at success
        cases success
      exact (filled success).mpr ⟨sent, uploadHex_offset (fits short).1 success⟩

private theorem nextPage_bounded : (s.nextPage port).1.Bounded ↔ s.Bounded := by
  unfold nextPage ask
  dsimp only
  cases port s.answers with
  | false => exact bounded_congr _ _ rfl rfl
  | true =>
    dsimp only
    cases port (s.answers + 1) with
    | false => exact bounded_congr _ _ rfl rfl
    | true => exact bounded_congr _ _ rfl rfl

private theorem segmentLine_bounded {line : List UInt8} :
    (s.segmentLine port line).1.Bounded ↔ s.Bounded ∧ (pageOf line ≠ 0 → s.FlushFits port) := by
  unfold segmentLine
  dsimp only
  by_cases first : pageOf line = 0
  · rw [if_pos first, and_iff_left fun other => absurd first other]
    exact bounded_congr _ _ rfl rfl
  rw [if_neg first, imp_iff_right first]
  by_cases large : hexBufferSize < s.output.length
  · have long : s.FlushFits port := fun short => by
      unfold hexBufferSize at large
      unfold maxSendCount at short
      omega
    rw [if_pos large, and_iff_left long]
    exact bounded_congr _ _ rfl rfl
  rw [if_neg large]
  obtain ⟨s', same⟩ : ∃ s' : Upload, s' = { s with currentPage := pageOf line, lastSubOffset := 0 } :=
    ⟨_, rfl⟩
  have kept : s.Bounded ∧ s.FlushFits port ↔ s'.Bounded ∧ s'.FlushFits port := by
    subst same
    exact and_congr (bounded_congr _ _ rfl rfl) Iff.rfl
  have output : s.output = s'.output := by
    subst same
    rfl
  rw [kept, ← same, output]
  rcases sent : s'.uploadHex port s'.output s'.output.length with ⟨after, success⟩
  refine flush_bounded s'.output (fun refused => ?_) fun filled => ?_
  · rw [sent] at refused ⊢
    dsimp only at refused ⊢
    subst refused
    exact Iff.rfl
  · rw [sent] at filled ⊢
    dsimp only at filled ⊢
    subst filled
    exact nextPage_bounded.trans fillPage_bounded

private theorem lastLine_bounded :
    (s.lastLine port).1.Bounded ↔ s.Bounded ∧ s.FlushFits port := by
  unfold lastLine
  rcases sent : s.uploadHex port s.output s.output.length with ⟨after, success⟩
  refine flush_bounded s.output (fun refused => ?_) fun filled => ?_
  · rw [sent] at refused ⊢
    dsimp only at refused ⊢
    subst refused
    exact Iff.rfl
  · rw [sent] at filled ⊢
    dsimp only at filled ⊢
    subst filled
    dsimp only
    by_cases begun : after.currentOffset ≠ 0
    · rw [if_pos begun, ← fillPage_bounded]
      exact bounded_congr _ _ rfl rfl
    · rw [if_neg begun, and_iff_left (by omega)]
      exact bounded_congr _ _ rfl rfl

private theorem append_bounded (chars : List UInt8) :
    (s.append chars).Bounded ↔
      s.Bounded ∧ s.output.length + chars.length ≤ 2 * hexBufferSize := by
  unfold append
  constructor
  · rintro ⟨buffer, frames⟩
    exact ⟨⟨Nat.le_trans (Nat.le_max_left _ _) buffer, frames⟩,
      Nat.le_trans (Nat.le_max_right _ _) buffer⟩
  · rintro ⟨⟨buffer, frames⟩, room⟩
    exact ⟨Nat.max_le.mpr ⟨buffer, room⟩, frames⟩

/-- The characters of a step of a line are behind the others, and nothing is sent. -/
structure Appends (s s' : Upload) (count : Nat) : Prop where
  length : s'.output.length = s.output.length + count
  offset : s'.currentOffset = s.currentOffset
  answers : s'.answers = s.answers

private theorem padTo_pads {line : List UInt8} (pads : s.Pads line) :
    ∃ s', s.padTo (subOffsetOf line) = (s', true) ∧ Appends s s' (s.padChars line) ∧
      (s'.Bounded ↔ s.Bounded ∧ (s.lastSubOffset < subOffsetOf line →
        s.output.length + s.padChars line ≤ 2 * hexBufferSize)) := by
  unfold padTo padChars
  by_cases gap : s.lastSubOffset < subOffsetOf line
  · have room := Int.not_le.mpr (pads gap)
    unfold pad at room ⊢
    simp only [if_pos gap, imp_iff_right gap]
    rw [if_neg room]
    refine ⟨_, rfl, ⟨?_, rfl, rfl⟩, ?_⟩
    · simp [append]
    · rw [append_bounded, List.length_replicate]
  · simp only [if_neg gap]
    exact ⟨s, rfl, ⟨rfl, rfl, rfl⟩, (and_iff_left fun less => absurd less gap).symm⟩

private theorem padTo_refused {line : List UInt8} (refused : ¬s.Pads line) :
    s.padTo (subOffsetOf line) = (s, false) := by
  unfold Pads pad at refused
  rw [Classical.not_imp, Int.not_lt] at refused
  unfold padTo
  rw [if_pos refused.1]
  exact if_pos refused.2

private theorem addLine_room {line : List UInt8} {subOffset : Int}
    (room : s.output.length + (line.length - 11) < 2 * hexBufferSize) :
    ∃ s', s.addLine line subOffset = (s', true) ∧ Appends s s' (line.length - 11) ∧
      (s'.Bounded ↔ s.Bounded) := by
  have length : ((line.drop 9).take (line.length - 11)).length = line.length - 11 := by
    rw [List.length_take, List.length_drop]
    omega
  unfold addLine
  dsimp only
  rw [if_neg (Nat.not_le.mpr room)]
  refine ⟨_, rfl, ⟨?_, rfl, rfl⟩, ?_⟩
  · simp [append]
    omega
  · refine Iff.trans (b := (s.append ((line.drop 9).take (line.length - 11))).Bounded)
      (bounded_congr _ _ rfl rfl) ?_
    rw [append_bounded, length, and_iff_left (Nat.le_of_lt room)]

private theorem sendChunk_bounded :
    (s.sendChunk port).1.Bounded ↔
      s.Bounded ∧ (maxSendCount ≤ s.output.length → s.ChunkFits port maxSendCount) := by
  unfold sendChunk
  by_cases few : s.output.length < maxSendCount
  · rw [if_pos few, and_iff_left fun many => absurd many (Nat.not_le.mpr few)]
  · have many := Nat.not_lt.mp few
    have chunk := @uploadHex_bounded port s s.output maxSendCount
    rw [imp_iff_right (Nat.le_refl _)] at chunk
    rw [if_neg few, imp_iff_right many, Nat.min_eq_left many, ← chunk]
    split
    case h_1 after sent => rw [sent]
    case h_2 after sent =>
      rw [sent]
      split
      · exact Iff.rfl
      · exact bounded_congr _ _ rfl rfl

/-- A line of data keeps to the bounds exactly when its padding and its chunk fit. -/
private theorem dataLine_bounded {line : List UInt8} :
    (s.dataLine port line).1.Bounded ↔
      s.Bounded ∧ (line.length ≤ 4 * hexBufferSize → s.DataFits port line) := by
  unfold dataLine
  by_cases long : hexBufferSize * 4 < line.length
  · rw [if_pos long, and_iff_left fun short => absurd short (by omega)]
  rw [if_neg long, imp_iff_right (by omega)]
  by_cases pads : s.Pads line
  · obtain ⟨padded, same, appended, bounded⟩ := padTo_pads pads
    rw [same]
    dsimp only
    by_cases room : padded.output.length + (line.length - 11) < 2 * hexBufferSize
    · obtain ⟨added, same, appended', bounded'⟩ := @addLine_room padded line (subOffsetOf line) room
      have chunk : added.ChunkFits port maxSendCount ↔ s.ChunkFits port maxSendCount := by
        unfold ChunkFits
        rw [appended'.offset, appended'.answers, appended.offset, appended.answers]
      rw [same]
      dsimp only
      rw [sendChunk_bounded, bounded', bounded, chunk, appended'.length, appended.length]
      rw [appended.length] at room
      constructor
      · rintro ⟨⟨before, padding⟩, fits⟩
        exact ⟨before, fun _ => padding, fun _ _ => fits⟩
      · rintro ⟨before, fits⟩
        exact ⟨⟨before, fits.padding pads⟩, fits.chunk pads room⟩
    · have refused : padded.addLine line (subOffsetOf line) = (padded, false) :=
        if_pos (Nat.not_lt.mp room)
      rw [refused]
      dsimp only
      rw [bounded]
      rw [appended.length] at room
      constructor
      · rintro ⟨before, padding⟩
        exact ⟨before, fun _ => padding, fun _ fits => absurd fits room⟩
      · rintro ⟨before, fits⟩
        exact ⟨before, fits.padding pads⟩
  · rw [padTo_refused pads]
    dsimp only
    rw [and_iff_left ⟨fun fits => absurd fits pads, fun fits => absurd fits pads⟩]

/-- A line keeps to the bounds exactly when what it sends fits. -/
private theorem lineBody_bounded (line : List UInt8) :
    (s.lineBody port line).1.Bounded ↔ s.Bounded ∧ s.LineFits port line := by
  unfold lineBody
  by_cases data : isData line = true
  · rw [if_pos data, dataLine_bounded]
    refine and_congr_right fun _ => ⟨fun fits => ⟨fun _ => fits, ?_, ?_⟩, fun fits => fits.data data⟩
    · exact fun other => absurd data (Bool.eq_false_iff.mp other)
    · exact fun other => absurd data (Bool.eq_false_iff.mp other)
  rw [if_neg data]
  have other := Bool.eq_false_iff.mpr data
  by_cases segment : isSegment line = true
  · rw [if_pos segment, segmentLine_bounded]
    refine and_congr_right fun _ => ⟨fun fits => ⟨?_, fun _ _ => fits, ?_⟩,
      fun fits => fits.segment other segment⟩
    · exact fun this => absurd this data
    · exact fun _ other => absurd segment (Bool.eq_false_iff.mp other)
  rw [if_neg segment]
  have other' := Bool.eq_false_iff.mpr segment
  by_cases last : isLast line = true
  · rw [if_pos last, lastLine_bounded]
    refine and_congr_right fun _ => ⟨fun fits => ⟨?_, ?_, fun _ _ _ => fits⟩,
      fun fits => fits.last other other' last⟩
    · exact fun this => absurd this data
    · exact fun _ this => absurd this segment
  · rw [if_neg last]
    refine (and_iff_left ⟨?_, ?_, ?_⟩).symm
    · exact fun this => absurd this data
    · exact fun _ this => absurd this segment
    · exact fun _ _ this => absurd this last

private theorem processLine_bounded (line : List UInt8) :
    (s.processLine port line).1.Bounded ↔
      s.Bounded ∧ (s.returned = none → s.LineFits port line) := by
  unfold processLine
  dsimp only
  split
  case h_1 result left =>
    rw [left]
    exact (and_iff_left nofun).symm
  case h_2 left =>
    rw [imp_iff_right left, ← lineBody_bounded]
    split
    case h_1 after same => rw [same]
    case h_2 after same =>
      rw [same]
      exact bounded_congr _ _ rfl rfl
    case h_3 after same =>
      rw [same]
      unfold ask
      dsimp only
      cases port after.answers with
      | true => exact bounded_congr _ _ rfl rfl
      | false => exact bounded_congr _ _ rfl rfl

end Steps

end Upload

/-- The buffer is not left and every frame fits exactly when, in the state that every line is read
in, what it pads and sends fits. -/
theorem bounded_iff_lineFits (port : Nat → Bool) (appOffset : UInt32) (file : List UInt8) :
    (processHexFile port appOffset file).Bounded ↔
      Along (Upload.processLine port) (fun s line => s.returned = none → s.LineFits port line)
        (.start appOffset) (isbLines file.length file) := by
  have start : (Upload.start appOffset).Bounded := ⟨Nat.zero_le _, nofun⟩
  unfold processHexFile
  rw [run_iff_along (fun _ line => Upload.processLine_bounded line), and_iff_right start]

/-- `:0125DC00AA00`: 1500 bytes behind the application offset of 8192. -/
def gapLine : List UInt8 :=
  [0x3A, 0x30, 0x31, 0x32, 0x35, 0x44, 0x43, 0x30, 0x30, 0x41, 0x41, 0x30, 0x30]

/-- 1500 bytes of padding pass the check, and are 3000 characters. -/
theorem gap_overflows : ¬(processHexFile (fun _ => true) 8192 (gapLine ++ [0x0A])).Bounded := by
  have lines : isbLines (gapLine ++ [0x0A]).length (gapLine ++ [0x0A]) = [gapLine] := by
    decide +kernel
  have offset : subOffsetOf gapLine = 9692 := by decide +kernel
  unfold processHexFile
  rw [lines, run_cons, run_nil, Upload.processLine_bounded]
  rintro ⟨-, fits⟩
  have fits := fits rfl
  have short : gapLine.length ≤ 4 * hexBufferSize := by simp [gapLine, hexBufferSize]
  have room := (fits.data (by decide +kernel) short).padding ?_ ?_
  · unfold Upload.padChars Upload.pad at room
    rw [offset] at room
    exact absurd room (by decide)
  · intro _
    unfold Upload.pad
    rw [offset]
    decide
  · rw [offset]
    decide

end InertialSense.Bootloader.Isb
