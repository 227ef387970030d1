import InertialSense.Bootloader.IsbFiles

/-! What the device holds after `process_hex_file`: the frames that it has acknowledged, on the page
that is selected. For a file whose addresses go up these are the bytes of the file, at their
addresses, and unused memory between them. -/

namespace InertialSense.Bootloader.Isb

open Foundation Ihex

def Frame.writes (page : Nat) (frame : Frame) : List (Nat × UInt8) :=
  placed (65536 * page + frame.offset.toNat) ((hexBytes (frame.hexData.map Char.ofUInt8)).getD [])

def acknowledged (port : Nat → Bool) (page answers : Nat) : List Frame → List (Nat × UInt8)
  | [] => []
  | frame :: rest =>
    (if port answers then frame.writes page else []) ++ acknowledged port page (answers + 1) rest

/-- The page that the device has selected, and what it was given to write. -/
structure Flash where
  page : Nat
  writes : List (Nat × UInt8)

/-- The device once these frames were sent to it. -/
def Flash.send (port : Nat → Bool) (flash : Flash) (answers : Nat) (frames : List Frame) : Flash :=
  { flash with writes := flash.writes ++ acknowledged port flash.page answers frames }

/-- What a line does to the device. A line sends its frames before it asks for anything else, and
selects a page behind them. -/
def Flash.observe (port : Nat → Bool) (flash : Flash) (s : Upload) (line : List UInt8) (_ : Unit) :
    Flash where
  page :=
    if isData line = false ∧ isSegment line = true ∧ pageOf line ≠ 0 then (pageOf line).toNat
    else flash.page
  writes := flash.writes ++ acknowledged port flash.page s.answers
    ((s.processLine port line).1.frames.drop s.frames.length)

/-- The device after `process_hex_file`, where page 0 was selected before. -/
def uploaded (port : Nat → Bool) (appOffset : UInt32) (file : List UInt8) : Flash :=
  noted (Upload.processLine port) (Flash.observe port) { page := 0, writes := [] }
    (Upload.start appOffset) (isbLines file.length file)

theorem acknowledged_append (port : Nat → Bool) (page answers : Nat) (first second : List Frame) :
    acknowledged port page answers (first ++ second) =
      acknowledged port page answers first ++
        acknowledged port page (answers + first.length) second := by
  induction first generalizing answers with
  | nil => rfl
  | cons frame rest ih =>
    rw [List.cons_append, acknowledged, ih, acknowledged, List.append_assoc, List.length_cons,
      Nat.add_assoc, Nat.add_comm 1]

namespace Upload

/-- What comes of sending: these characters, the digits of these bytes, were acknowledged from this
offset in the page on. -/
structure Sent (port : Nat → Bool) (page offset : Nat) (s s' : Upload) (chars bytes : List UInt8) :
    Prop where
  digits : Digits chars bytes
  frames : ∃ frames, s'.frames = s.frames ++ frames ∧ s'.answers = s.answers + frames.length ∧
    acknowledged port page s.answers frames = placed (65536 * page + offset) bytes
  offset : s'.currentOffset = (offset + bytes.length : Nat)
  checkSum : s'.verifyCheckSum = hashed s.verifyCheckSum chars

/-- Sending leaves these variables. -/
structure Kept (s s' : Upload) : Prop where
  currentPage : s'.currentPage = s.currentPage
  lastSubOffset : s'.lastSubOffset = s.lastSubOffset
  output : s'.output = s.output
  returned : s'.returned = s.returned

section Sending

variable {port : Nat → Bool} {page offset : Nat} {s s' s'' : Upload}

theorem Kept.trans (first : Kept s s') (second : Kept s' s'') : Kept s s'' where
  currentPage := second.currentPage.trans first.currentPage
  lastSubOffset := second.lastSubOffset.trans first.lastSubOffset
  output := second.output.trans first.output
  returned := second.returned.trans first.returned

theorem Sent.none (place : s.currentOffset = offset) : Sent port page offset s s [] [] where
  digits := digits_nil
  frames := ⟨[], (List.append_nil _).symm, rfl, rfl⟩
  offset := place
  checkSum := rfl

theorem Sent.trans {chars chars' bytes bytes' : List UInt8}
    (first : Sent port page offset s s' chars bytes)
    (second : Sent port page (offset + bytes.length) s' s'' chars' bytes') :
    Sent port page offset s s'' (chars ++ chars') (bytes ++ bytes') where
  digits := first.digits.append second.digits
  frames := by
    obtain ⟨frames, sent, answers, stored⟩ := first.frames
    obtain ⟨frames', sent', answers', stored'⟩ := second.frames
    refine ⟨frames ++ frames', ?_, ?_, ?_⟩
    · rw [sent', sent, List.append_assoc]
    · rw [answers', answers, List.length_append, Nat.add_assoc]
    · rw [acknowledged_append, stored, ← answers, stored', placed_append, Nat.add_assoc]
  offset := by rw [second.offset, List.length_append, Nat.add_assoc]
  checkSum := by
    rw [second.checkSum, first.checkSum]
    exact List.foldl_append.symm

/-- A part of a chunk is acknowledged, or it is not. -/
theorem uploadHexPage_sent {chars bytes : List UInt8} (digits : Digits chars bytes)
    (more : List UInt8) (place : s.currentOffset = offset) :
    Kept s (s.uploadHexPage port (chars ++ more) bytes.length).1 ∧
      ((s.uploadHexPage port (chars ++ more) bytes.length).2 = true →
        Sent port page offset s (s.uploadHexPage port (chars ++ more) bytes.length).1 chars bytes) ∧
      ((s.uploadHexPage port (chars ++ more) bytes.length).2 = false →
        Sent port page offset s (s.uploadHexPage port (chars ++ more) bytes.length).1 [] []) := by
  by_cases none : bytes = []
  · subst none
    obtain rfl := List.eq_nil_of_length_eq_zero digits.length
    exact ⟨⟨rfl, rfl, rfl, rfl⟩, fun _ => .none place, nofun⟩
  have some : ¬(bytes.length : Int) = 0 := by
    rw [Int.natCast_eq_zero, List.length_eq_zero_iff]
    exact none
  have taken : (chars ++ more).take (2 * (bytes.length : Int)).toNat = chars := by
    rw [show (2 * (bytes.length : Int)).toNat = chars.length by rw [digits.length]; omega,
      List.take_left]
  unfold uploadHexPage ask
  rw [if_neg some, taken]
  dsimp only
  have writes : (Frame.mk bytes.length s.currentOffset chars).writes page =
      placed (65536 * page + offset) bytes := by
    unfold Frame.writes
    rw [show hexBytes (chars.map Char.ofUInt8) = _ from digits, place]
    rfl
  cases answer : port s.answers with
  | false =>
    refine ⟨⟨rfl, rfl, rfl, rfl⟩, nofun, fun _ => ⟨digits_nil, ⟨_, rfl, rfl, ?_⟩, place, rfl⟩⟩
    rw [acknowledged, answer]
    rfl
  | true =>
    refine ⟨⟨rfl, rfl, rfl, rfl⟩, fun _ => ⟨digits, ⟨_, rfl, rfl, ?_⟩, ?_, rfl⟩, nofun⟩
    · rw [acknowledged, answer, if_pos rfl, writes]
      exact List.append_nil _
    · show s.currentOffset + bytes.length = _
      rw [place]
      rfl

/-- What sending comes to, with these characters if it succeeds. -/
def Comes (port : Nat → Bool) (page offset : Nat) (s : Upload) (chars bytes : List UInt8)
    (sent : Upload × Bool) : Prop :=
  Kept s sent.1 ∧ (sent.2 = true → Sent port page offset s sent.1 chars bytes)

/-- A chunk that ends in the page is sent as one frame. -/
theorem uploadHex_comes {chars bytes : List UInt8} (digits : Digits chars bytes) (more : List UInt8)
    (place : s.currentOffset = offset) (inside : offset + bytes.length ≤ 65536) :
    Comes port page offset s chars bytes (s.uploadHex port (chars ++ more) chars.length) := by
  have length := digits.length
  obtain ⟨kept, success, -⟩ := @uploadHexPage_sent port page offset s _ _ digits more place
  unfold uploadHex
  split
  case isTrue => exact ⟨⟨rfl, rfl, rfl, rfl⟩, nofun⟩
  split
  case isTrue empty =>
    obtain rfl := List.eq_nil_of_length_eq_zero (show bytes.length = 0 by omega)
    obtain rfl := List.eq_nil_of_length_eq_zero length
    exact ⟨⟨rfl, rfl, rfl, rfl⟩, fun _ => .none place⟩
  rw [if_neg]
  · rw [show (chars.length : Int) / 2 = bytes.length by omega]
    exact ⟨kept, success⟩
  · unfold flashPageSize
    omega

/-- The rest of a page is unused memory, up to a frame that is not acknowledged. -/
theorem fillCurrentPage_sent (passes : Nat) (place : s.currentOffset = offset) :
    Kept s (s.fillCurrentPage port passes) ∧ ∃ count,
      Sent port page offset s (s.fillCurrentPage port passes) (List.replicate (2 * count) 0x46)
        (List.replicate count 0xFF) ∧
      ((∀ n, port n = true) → 65536 ≤ offset + passes → offset ≤ 65536 →
        offset + count = 65536) := by
  induction passes generalizing s offset with
  | zero => exact ⟨⟨rfl, rfl, rfl, rfl⟩, 0, .none place, fun _ many most => by omega⟩
  | succ passes ih =>
    unfold fillCurrentPage
    split
    case isFalse full =>
      unfold flashPageSize at full
      exact ⟨⟨rfl, rfl, rfl, rfl⟩, 0, .none place, fun _ _ most => by omega⟩
    case isTrue room =>
      unfold flashPageSize at room
      obtain ⟨count, some, positive, within⟩ : ∃ count : Nat,
          min ((flashPageSize - s.currentOffset) * 2) 256 = (2 * count : Nat) ∧ 0 < count ∧
            offset + count ≤ 65536 := by
        unfold flashPageSize
        exact ⟨(min (65536 - s.currentOffset) 128).toNat, by omega, by omega, by omega⟩
      have sent := @uploadHexPage_sent port page offset s _ _ (digits_unused count) [] place
      rw [List.append_nil, List.length_replicate] at sent
      obtain ⟨kept, success, failure⟩ := sent
      have answer (all : ∀ n, port n = true) :
          (s.uploadHexPage port (List.replicate (2 * count) 0x46) count).2 = true := by
        unfold uploadHexPage ask
        rw [if_neg (by omega)]
        dsimp only
        rw [all]
      dsimp only
      rw [some, Int.toNat_natCast, show ((2 * count : Nat) : Int) / 2 = count by omega]
      generalize s.uploadHexPage port (List.replicate (2 * count) 0x46) count = result at *
      obtain ⟨s', _ | _⟩ := result
      · exact ⟨kept, 0, failure rfl, fun all => nomatch answer all⟩
      · have first := success rfl
        obtain ⟨kept', count', rest, full⟩ := ih first.offset
        have whole := first.trans rest
        rw [List.length_replicate] at full
        rw [List.replicate_append_replicate, List.replicate_append_replicate, ← Nat.mul_add] at whole
        refine ⟨kept.trans kept', count + count', whole, fun all many most => ?_⟩
        have ends := full all (by omega) within
        omega

end Sending

/-! ### The buffer between two lines -/

/-- How an upload is looked at: with these characters in its file, and perhaps with every answer a
good one and no page left out. -/
structure Setting where
  port : Nat → Bool
  appOffset : Nat
  allowed : UInt8 → Prop
  complete : Prop
  unused : allowed 0x46
  answers : complete → ∀ n, port n = true

/-- What the hash is of: allowed characters, which are the digits of everything on the device if it
is complete. -/
def Streamed (d : Setting) (flash : Flash) (offset : Nat) (s : Upload) : Prop :=
  ∃ chars bytes, s.verifyCheckSum = hashed 5381 chars ∧ Digits chars bytes ∧
    (∀ c ∈ chars, d.allowed c) ∧ (d.complete → flash.writes = placed d.appOffset bytes ∧
      d.appOffset + bytes.length = 65536 * flash.page + offset)

/-- Between two lines the device and the buffer hold what the file has so far, up to this limit. -/
structure Staged (d : Setting) (flash : Flash) (limit : Nat) (content : List (Nat × UInt8))
    (s : Upload) : Prop where
  running : s.returned = none
  below : ∀ write ∈ content, write.1 < limit
  plain : ∀ c ∈ s.output, d.allowed c
  place : ∃ offset pending, s.currentOffset = (offset : Nat) ∧ Digits s.output pending ∧
    s.lastSubOffset = (offset + pending.length : Nat) ∧
    limit = 65536 * flash.page + (offset + pending.length) ∧ offset + pending.length ≤ 65536 ∧
    (flash.page = 0 → d.appOffset ≤ offset) ∧ Streamed d flash offset s ∧
    Stores 0xFF (flash.writes ++ placed (65536 * flash.page + offset) pending) content

section Lines

variable {d : Setting} {limit : Nat} {flash : Flash} {content : List (Nat × UInt8)}
  {s s' : Upload}

/-- A line that was not refused has sent these frames. -/
def Advances (d : Setting) (flash : Flash) (limit : Nat) (content : List (Nat × UInt8))
    (s s' : Upload) : Prop :=
  ∃ frames, s'.frames = s.frames ++ frames ∧ s'.currentPage = s.currentPage ∧
    Staged d (flash.send d.port s.answers frames) limit content s'

private theorem Streamed.sent {offset : Nat} (streamed : Streamed d flash offset s)
    {chars bytes : List UInt8} {frames : List Frame} (digits : Digits chars bytes)
    (stored : acknowledged d.port flash.page s.answers frames =
      placed (65536 * flash.page + offset) bytes)
    (checkSum : s'.verifyCheckSum = hashed s.verifyCheckSum chars)
    (plain : ∀ c ∈ chars, d.allowed c) :
    Streamed d (flash.send d.port s.answers frames) (offset + bytes.length) s' := by
  obtain ⟨chars', bytes', hash, digits', plain', complete⟩ := streamed
  refine ⟨chars' ++ chars, bytes' ++ bytes, ?_, digits'.append digits,
    List.forall_mem_append.mpr ⟨plain', plain⟩, fun all => ?_⟩
  · rw [checkSum, hash]
    exact List.foldl_append.symm
  · obtain ⟨writes, count⟩ := complete all
    refine ⟨?_, ?_⟩
    · show flash.writes ++ acknowledged d.port flash.page s.answers frames = _
      rw [stored, placed_append, writes, count]
    · rw [List.length_append, ← Nat.add_assoc, count, Nat.add_assoc]
      rfl

/-- A gap and a line of data go behind what is in the buffer. -/
private theorem Staged.data (staged : Staged d flash limit content s) {addr : Nat}
    {chars bytes : List UInt8} (digits : Digits chars bytes) (allowed : ∀ c ∈ chars, d.allowed c)
    (behind : limit ≤ 65536 * flash.page + addr) (inside : addr + bytes.length ≤ 65536)
    (running : s'.returned = none) (offset : s'.currentOffset = s.currentOffset)
    (last : s'.lastSubOffset = (addr + bytes.length : Nat))
    (checkSum : s'.verifyCheckSum = s.verifyCheckSum)
    (output : s'.output =
      s.output ++ List.replicate (2 * (addr - s.lastSubOffset).toNat) 0x46 ++ chars) :
    Staged d flash (65536 * flash.page + (addr + bytes.length))
      (content ++ placed (65536 * flash.page + addr) bytes) s' := by
  obtain ⟨-, below, plain, place, pending, here, read, sub, same, -, first, streamed, stores⟩ :=
    staged
  generalize gap : ((addr : Int) - s.lastSubOffset).toNat = count at output
  have count_eq : place + pending.length + count = addr := by omega
  have total : place + (pending ++ List.replicate count 0xFF ++ bytes).length =
      addr + bytes.length := by
    rw [List.length_append, List.length_append, List.length_replicate]
    omega
  refine ⟨running, ?_, ?_, place, pending ++ List.replicate count 0xFF ++ bytes,
    offset.trans here, ?_, ?_, ?_, ?_, first, ?_, ?_⟩
  · intro write member
    obtain earlier | here := List.mem_append.mp member
    · have less := below write earlier
      omega
    · have bounds := mem_placed here
      omega
  · rw [output]
    refine List.forall_mem_append.mpr ⟨List.forall_mem_append.mpr ⟨plain, fun c member => ?_⟩, allowed⟩
    rw [List.eq_of_mem_replicate member]
    exact d.unused
  · rw [output]
    exact (read.append (digits_unused count)).append digits
  · rw [last, total]
  · rw [total]
  · rw [total]
    exact inside
  · obtain ⟨chars', bytes', hash, rest⟩ := streamed
    exact ⟨chars', bytes', checkSum.trans hash, rest⟩
  · have filled := (stores.fill (same ▸ below) count).append (placed (65536 * flash.page + addr) bytes)
    rw [List.append_assoc, placed_append, placed_append, List.length_replicate, Nat.add_assoc,
      Nat.add_assoc, Nat.add_assoc, ← Nat.add_assoc place, count_eq, ← List.append_assoc,
      ← List.append_assoc]
    exact filled

/-- What was sent of the buffer is on the device. -/
private theorem Staged.sent (staged : Staged d flash limit content s)
    {chars rest : List UInt8} (output : s.output = chars ++ rest) {count : Nat}
    (length : chars.length = 2 * count) (kept : Kept s s')
    (sent : ∀ offset bytes, s.currentOffset = (offset : Nat) → Digits chars bytes →
      Sent d.port flash.page offset s s' chars bytes) :
    Advances d flash limit content s { s' with output := rest } := by
  obtain ⟨running, below, plain, offset, pending, here, read, sub, same, inside, first, streamed,
    stores⟩ := staged
  have halves := read.take count
  rw [output, ← length, List.take_left, List.drop_left] at halves
  obtain ⟨digits, ⟨frames, more, -, stored⟩, place, checkSum⟩ := sent offset _ here halves.1
  rw [output, List.forall_mem_append] at plain
  have total : (pending.take count).length + (pending.drop count).length = pending.length := by
    rw [← List.length_append, List.take_append_drop]
  refine ⟨frames, more, kept.currentPage, kept.returned.trans running, below, plain.2,
    offset + (pending.take count).length, pending.drop count, place, halves.2, ?_, ?_, ?_, ?_,
    streamed.sent digits stored checkSum plain.1, ?_⟩
  · show s'.lastSubOffset = _
    rw [kept.lastSubOffset, sub, Nat.add_assoc, total]
  · show limit = 65536 * flash.page + _
    rw [Nat.add_assoc, total]
    exact same
  · rw [Nat.add_assoc, total]
    exact inside
  · exact fun front => (first front).trans (Nat.le_add_right ..)
  · show Stores 0xFF (flash.writes ++ acknowledged d.port flash.page s.answers frames ++
      placed (65536 * flash.page + _) _) content
    rw [stored, List.append_assoc, ← Nat.add_assoc, ← placed_append, List.take_append_drop]
    exact stores

private theorem send_none (port : Nat → Bool) (answers : Nat) : flash.send port answers [] = flash := by
  simp [Flash.send, acknowledged]

/-- Characters were put into the buffer. -/
private structure Buffered (s s' : Upload) (chars : List UInt8) : Prop where
  output : s'.output = s.output ++ chars
  frames : s'.frames = s.frames
  answers : s'.answers = s.answers
  offset : s'.currentOffset = s.currentOffset
  returned : s'.returned = s.returned
  page : s'.currentPage = s.currentPage
  checkSum : s'.verifyCheckSum = s.verifyCheckSum

private theorem padTo_buffered {subOffset : Int} (small : s.lastSubOffset ≤ subOffset) (high : subOffset - s.lastSubOffset < 2 ^ 31)
    (success : (s.padTo subOffset).2 = true) :
    Buffered s (s.padTo subOffset).1
      (List.replicate (2 * (subOffset - s.lastSubOffset).toNat) 0x46) := by
  unfold padTo at success ⊢
  split at success
  case isTrue gap =>
    rw [if_pos gap]
    dsimp only at success ⊢
    have pad : Int.bmod (subOffset - s.lastSubOffset) (2 ^ 32) = subOffset - s.lastSubOffset :=
      Int.bmod_eq_of_le (by omega) (by omega)
    rw [pad] at success ⊢
    have wrapped : (subOffset - s.lastSubOffset) % 2 ^ 32 = subOffset - s.lastSubOffset :=
      Int.emod_eq_of_lt (by omega) (by omega)
    rw [wrapped] at success ⊢
    split at success
    case isTrue => cases success
    case isFalse room =>
      rw [if_neg room]
      exact ⟨rfl, rfl, rfl, rfl, rfl, rfl, rfl⟩
  case isFalse none =>
    rw [if_neg none, show (subOffset - s.lastSubOffset).toNat = 0 by omega]
    exact ⟨(List.append_nil _).symm, rfl, rfl, rfl, rfl, rfl, rfl⟩

private theorem addLine_buffered {line : List UInt8} {subOffset : Int}
    (success : (s.addLine line subOffset).2 = true) :
    Buffered s (s.addLine line subOffset).1 ((line.drop 9).take (line.length - 11)) ∧
      (s.addLine line subOffset).1.lastSubOffset = subOffset + ((line.length - 11) / 2 : Nat) := by
  unfold addLine at success ⊢
  dsimp only at success ⊢
  split at success
  case isTrue => cases success
  case isFalse room =>
    rw [if_neg room]
    exact ⟨⟨rfl, rfl, rfl, rfl, rfl, rfl, rfl⟩, rfl⟩

/-- A chunk that is sent leaves the rest in the buffer. -/
private theorem sendChunk_advances (staged : Staged d flash limit content s)
    (success : (s.sendChunk d.port).2 ≠ .failed) :
    Advances d flash limit content s (s.sendChunk d.port).1 := by
  have still : Advances d flash limit content s s := by
    refine ⟨[], (List.append_nil _).symm, rfl, ?_⟩
    rw [send_none]
    exact staged
  unfold sendChunk at success ⊢
  split at success
  case isTrue few =>
    rw [if_pos few]
    exact still
  case isFalse many =>
    rw [if_neg many]
    obtain ⟨offset, pending, here, read, -, -, inside, -⟩ := staged.place
    have long : (s.output.take maxSendCount).length = 2 * 255 := by
      rw [List.length_take_of_le (Nat.not_lt.mp many)]
      rfl
    have whole := (List.take_append_drop maxSendCount s.output).symm
    have least : ((min maxSendCount s.output.length : Nat) : Int) =
        ((s.output.take maxSendCount).length : Nat) := by
      rw [long, Nat.min_eq_left (Nat.not_lt.mp many)]
      rfl
    rw [least] at success ⊢
    have comes {offset : Nat} {bytes : List UInt8} (place : s.currentOffset = (offset : Nat))
        (digits : Digits (s.output.take maxSendCount) bytes)
        (fits : offset + bytes.length ≤ 65536) :
        Comes d.port flash.page offset s (s.output.take maxSendCount) bytes
          (s.uploadHex d.port s.output (s.output.take maxSendCount).length) := by
      have sent := @uploadHex_comes d.port flash.page offset s _ _ digits
        (s.output.drop maxSendCount) place fits
      rwa [List.take_append_drop] at sent
    have fits {place : Nat} {bytes : List UInt8} (same : s.currentOffset = (place : Nat))
        (digits : Digits (s.output.take maxSendCount) bytes) : place + bytes.length ≤ 65536 := by
      have size := digits.length
      have size' := read.length
      rw [List.length_take, Nat.min_eq_left (Nat.not_lt.mp many)] at size
      omega
    generalize s.uploadHex d.port s.output (s.output.take maxSendCount).length = result at *
    obtain ⟨s', _ | _⟩ := result
    · exact absurd rfl success
    · have kept : Kept s s' := (comes here (read.take 255).1 (fits here (read.take 255).1)).1
      dsimp only at success ⊢
      split at success
      case isTrue => exact absurd rfl success
      case isFalse room =>
        rw [if_neg room, kept.output]
        exact staged.sent whole long kept fun place bytes same digits =>
          (comes same digits (fits same digits)).2 rfl

/-- A line of data is behind what is in the buffer, and a chunk of it may be sent. -/
private theorem dataLine_advances (staged : Staged d flash limit content s)
    {addr : UInt16} {bytes line : List UInt8}
    (written : RecordLine 0 addr bytes (line.map Char.ofUInt8))
    (allowed : ∀ c ∈ line, (hexValue (Char.ofUInt8 c)).isSome → d.allowed c)
    (behind : limit ≤ 65536 * flash.page + addr.toNat) (inside : addr.toNat + bytes.length ≤ 65536)
    (success : (s.dataLine d.port line).2 ≠ .failed) :
    Advances d flash (65536 * flash.page + (addr.toNat + bytes.length))
      (content ++ placed (65536 * flash.page + addr.toNat) bytes) s (s.dataLine d.port line).1 := by
  obtain ⟨-, -, -, place, length, digits⟩ := data_fields written
  obtain ⟨offset, pending, here, -, last, same, -⟩ := staged.place
  have plain : ∀ c ∈ (line.drop 9).take (line.length - 11), d.allowed c := by
    intro c member
    refine allowed c (List.mem_of_mem_drop (List.mem_of_mem_take member)) ?_
    exact hexBytes_digits digits _ (List.mem_map_of_mem member)
  unfold dataLine at success ⊢
  rw [place] at success ⊢
  split at success
  case isTrue => exact absurd rfl success
  case isFalse short =>
    rw [if_neg short]
    have padded := @padTo_buffered s addr.toNat (by omega) (by omega)
    generalize s.padTo addr.toNat = result at *
    obtain ⟨s₁, _ | _⟩ := result
    · exact absurd rfl success
    dsimp only at success ⊢
    have padded := padded rfl
    have added := @addLine_buffered s₁ line addr.toNat
    generalize s₁.addLine line addr.toNat = result at *
    obtain ⟨s₂, _ | _⟩ := result
    · exact absurd rfl success
    dsimp only at success ⊢
    obtain ⟨buffered, next⟩ := added rfl
    have staged₂ : Staged d flash (65536 * flash.page + (addr.toNat + bytes.length))
        (content ++ placed (65536 * flash.page + addr.toNat) bytes) s₂ := by
      refine staged.data digits plain behind inside ?_ ?_ ?_ ?_ ?_
      · rw [buffered.returned, padded.returned, staged.running]
      · rw [buffered.offset, padded.offset]
      · rw [next, length]
        omega
      · rw [buffered.checkSum, padded.checkSum]
      · rw [buffered.output, padded.output]
    obtain ⟨frames, more, page, staged₃⟩ := sendChunk_advances staged₂ success
    refine ⟨frames, ?_, ?_, ?_⟩
    · rw [more, buffered.frames, padded.frames]
    · rw [page, buffered.page, padded.page]
    · rwa [buffered.answers, padded.answers] at staged₃

/-- The device holds what the file has so far, and the buffer does not count. -/
private structure Flushed (d : Setting) (flash : Flash) (limit : Nat)
    (content : List (Nat × UInt8)) (s : Upload) : Prop where
  running : s.returned = none
  below : ∀ write ∈ content, write.1 < limit
  place : ∃ offset : Nat, s.currentOffset = offset ∧ limit = 65536 * flash.page + offset ∧
    offset ≤ 65536 ∧ Streamed d flash offset s
  stores : Stores 0xFF flash.writes content

private theorem Staged.flush (staged : Staged d flash limit content s)
    (offset : s'.currentOffset = s.currentOffset) (running : s'.returned = none)
    (checkSum : s'.verifyCheckSum = s.verifyCheckSum)
    (success : (s'.uploadHex d.port s.output s.output.length).2 = true) : ∃ frames,
      (s'.uploadHex d.port s.output s.output.length).1.frames = s'.frames ++ frames ∧
      (s'.uploadHex d.port s.output s.output.length).1.answers = s'.answers + frames.length ∧
      Kept s' (s'.uploadHex d.port s.output s.output.length).1 ∧
      Flushed d (flash.send d.port s'.answers frames) limit content
        (s'.uploadHex d.port s.output s.output.length).1 := by
  obtain ⟨place, pending, here, read, -, same, inside, -, streamed, stores⟩ := staged.place
  have comes := @uploadHex_comes d.port flash.page place s' _ _ read [] (offset.trans here) inside
  rw [List.append_nil] at comes
  obtain ⟨kept, sent⟩ := comes
  obtain ⟨-, ⟨frames, more, answers, stored⟩, next, hash⟩ := sent success
  have streamed' : Streamed d flash place s' := by
    obtain ⟨chars, bytes, hash, rest⟩ := streamed
    exact ⟨chars, bytes, checkSum.trans hash, rest⟩
  refine ⟨frames, more, answers, kept, kept.returned.trans running, staged.below,
    ⟨_, next, same, inside, streamed'.sent read stored hash staged.plain⟩, ?_⟩
  show Stores 0xFF (flash.writes ++ acknowledged d.port flash.page s'.answers frames) content
  rw [stored]
  exact stores

private theorem Flushed.fill (flushed : Flushed d flash limit content s) : ∃ frames offset,
      (s.fillPage d.port).frames = s.frames ++ frames ∧ Kept s (s.fillPage d.port) ∧
      (s.fillPage d.port).currentOffset = (offset : Nat) ∧
      (d.complete → offset = 65536) ∧
      Streamed d (flash.send d.port s.answers frames) offset (s.fillPage d.port) ∧
      Stores 0xFF (flash.send d.port s.answers frames).writes content := by
  obtain ⟨offset, here, same, inside, streamed⟩ := flushed.place
  obtain ⟨kept, count, ⟨digits, ⟨frames, more, -, stored⟩, place, hash⟩, full⟩ :=
    @fillCurrentPage_sent d.port flash.page offset s (flashPageSize - s.currentOffset).toNat here
  refine ⟨frames, offset + (List.replicate count (0xFF : UInt8)).length, more, kept, place,
    fun all => ?_, streamed.sent digits stored hash fun c member => ?_, ?_⟩
  · have ends := full (d.answers all) (by unfold flashPageSize; omega) inside
    rwa [List.length_replicate]
  · rw [List.eq_of_mem_replicate member]
    exact d.unused
  · show Stores 0xFF (flash.writes ++ acknowledged d.port flash.page s.answers frames) content
    rw [stored]
    exact flushed.stores.fill (same ▸ flushed.below) count

private theorem send_send (port : Nat → Bool) (answers : Nat) (first second : List Frame) :
    (flash.send port answers first).send port (answers + first.length) second =
      flash.send port answers (first ++ second) := by
  unfold Flash.send
  rw [acknowledged_append, List.append_assoc]

/-- A page that is set is begun, once the one before is filled. -/
private theorem segmentLine_advances (staged : Staged d flash limit content s)
    {line : List UInt8} {upper : Nat} (page : pageOf line = upper) (some : upper ≠ 0)
    (next : flash.page < upper) (adjoining : d.complete → upper = flash.page + 1)
    (success : (s.segmentLine d.port line).2 ≠ .failed) : ∃ frames,
      (s.segmentLine d.port line).1.frames = s.frames ++ frames ∧
      (s.segmentLine d.port line).1.currentPage = upper ∧
      Staged d { flash.send d.port s.answers frames with page := upper } (65536 * upper)
        content (s.segmentLine d.port line).1 := by
  obtain ⟨offset, pending, _, _, _, same, inside, _⟩ := staged.place
  unfold segmentLine at success ⊢
  rw [page] at success ⊢
  dsimp only at success ⊢
  rw [if_neg (by omega)] at success ⊢
  split at success
  case isTrue => exact absurd rfl success
  case isFalse short =>
    rw [if_neg short]
    have flush := @Staged.flush d limit flash content s
      { s with currentPage := (upper : Int), lastSubOffset := 0 } staged rfl staged.running rfl
    generalize uploadHex d.port { s with currentPage := (upper : Int), lastSubOffset := 0 } s.output
      s.output.length = result at *
    obtain ⟨s₁, _ | _⟩ := result
    · exact absurd rfl success
    obtain ⟨frames, more, answers, kept, flushed⟩ := flush rfl
    obtain ⟨frames', ends, more', kept', place, full, streamed, stores⟩ := flushed.fill
    dsimp only at success ⊢ more answers
    rw [answers, send_send] at stores streamed
    unfold nextPage ask at success ⊢
    dsimp only at success ⊢
    generalize d.port (s₁.fillPage d.port).answers = first at *
    cases first with
    | false => exact absurd rfl success
    | true =>
      dsimp only at success ⊢
      generalize d.port ((s₁.fillPage d.port).answers + 1) = second at *
      cases second with
      | false => exact absurd rfl success
      | true =>
        refine ⟨frames ++ frames', ?_, kept'.currentPage.trans kept.currentPage,
          (kept'.returned.trans kept.returned).trans staged.running, ?_, List.forall_mem_nil _,
          0, [], rfl, digits_nil, kept'.lastSubOffset.trans kept.lastSubOffset, rfl, by decide,
          fun none => absurd none some, ?_, ?_⟩
        · show (s₁.fillPage d.port).frames = _
          rw [more', more, List.append_assoc]
        · intro write member
          have less := staged.below write member
          omega
        · obtain ⟨chars, bytes, hash, digits, plain, complete⟩ := streamed
          refine ⟨chars, bytes, hash, digits, plain, fun all => ?_⟩
          obtain ⟨writes, count⟩ := complete all
          refine ⟨writes, ?_⟩
          have whole := full all
          have beside := adjoining all
          dsimp only [Flash.send] at count ⊢
          omega
        · rw [placed, List.append_nil]
          exact stores

private theorem segmentLine_first (staged : Staged d flash limit content s)
    {line : List UInt8} (page : pageOf line = 0) (front : flash.page = 0)
    (first : limit = d.appOffset) :
    (s.segmentLine d.port line).1.currentPage = 0 ∧
      Staged d flash limit content (s.segmentLine d.port line).1 := by
  obtain ⟨running, below, plain, offset, pending, here, read, -, same, inside, least, rest⟩ := staged
  have after := least front
  obtain rfl : pending = [] := List.eq_nil_of_length_eq_zero (by omega)
  unfold segmentLine
  rw [page]
  exact ⟨rfl, running, below, plain, offset, [], here, read, here, same, inside, least, rest⟩

/-- What the upload leaves: everything is on the device, and nothing is left out of the pages if the
last one was filled. -/
structure Finished (d : Setting) (flash : Flash) (limit : Nat)
    (content : List (Nat × UInt8)) (s : Upload) : Prop where
  stores : Stores 0xFF flash.writes content
  streamed : d.complete → 65536 * flash.page < limit → Streamed d flash 65536 s

/-- With the last line everything is on the device. -/
private theorem lastLine_finishes (staged : Staged d flash limit content s)
    (success : (s.lastLine d.port).2 ≠ .failed) : ∃ frames,
      (s.lastLine d.port).1.frames = s.frames ++ frames ∧
      (s.lastLine d.port).1.currentPage = s.currentPage ∧
      Finished d (flash.send d.port s.answers frames) limit content (s.lastLine d.port).1 := by
  have flush := @Staged.flush d limit flash content s s staged rfl staged.running rfl
  unfold lastLine at success ⊢
  generalize s.uploadHex d.port s.output s.output.length = result at *
  obtain ⟨s₁, _ | _⟩ := result
  · exact absurd rfl success
  obtain ⟨frames, more, answers, kept, flushed⟩ := flush rfl
  dsimp only at more answers ⊢
  split
  case isTrue =>
    obtain ⟨frames', ends, more', kept', -, full, streamed, stores⟩ := flushed.fill
    rw [answers, send_send] at stores streamed
    refine ⟨frames ++ frames', ?_, kept'.currentPage.trans kept.currentPage, stores,
      fun all _ => ?_⟩
    · show (s₁.fillPage d.port).frames = _
      rw [more', more, List.append_assoc]
    · rw [full all] at streamed
      exact streamed
  case isFalse none =>
    obtain ⟨place, here, same, -⟩ := flushed.place
    dsimp only [Flash.send] at same here
    refine ⟨frames, more, kept.currentPage, flushed.stores, fun _ some => ?_⟩
    have zero := not_not.mp none
    dsimp only [Flash.send] at some
    omega

/-- A line that leaves the function running was not refused, and at most an answer of the callback
comes behind it. -/
private theorem processLine_running {port : Nat → Bool} {line : List UInt8}
    (running : s.returned = none) (done : (s.processLine port line).1.returned = none) :
    (s.lineBody port line).2 ≠ .failed ∧
      ∃ answers, (s.processLine port line).1 = { (s.lineBody port line).1 with answers } := by
  unfold processLine at done ⊢
  rw [running] at done ⊢
  dsimp only at done ⊢
  generalize s.lineBody port line = result at *
  obtain ⟨s', _ | _ | _⟩ := result
  · exact ⟨nofun, s'.answers, rfl⟩
  · refine ⟨nofun, s'.answers + 1, ?_⟩
    unfold ask at done ⊢
    dsimp only at done ⊢
    cases answer : port s'.answers with
    | true => rfl
    | false =>
      rw [answer] at done
      cases done
  · cases done

private theorem run_running {port : Nat → Bool} (lines : List (List UInt8))
    (done : (run (processLine port) s lines).1.returned = none) : s.returned = none := by
  induction lines generalizing s with
  | nil => exact done
  | cons line rest ih =>
    have next := ih done
    unfold processLine at next
    cases returned : s.returned with
    | none => rfl
    | some result =>
      rw [returned] at next
      dsimp only at next
      rw [returned] at next
      cases next

private theorem observe_send {port : Nat → Bool} {line : List UInt8} {frames : List Frame}
    {answers page : Nat}
    (same : (s.processLine port line).1 = { (s.lineBody port line).1 with answers })
    (more : (s.lineBody port line).1.frames = s.frames ++ frames)
    (selected : (flash.observe port s line ()).page = page) :
    flash.observe port s line () = { flash.send port s.answers frames with page } := by
  have drop : (s.processLine port line).1.frames.drop s.frames.length = frames := by
    rw [same]
    show (s.lineBody port line).1.frames.drop s.frames.length = _
    rw [more, List.drop_left]
  obtain rfl := selected
  unfold Flash.observe Flash.send
  rw [drop]

private theorem Staged.answered (staged : Staged d flash limit content s) (answers : Nat) :
    Staged d flash limit content { s with answers } :=
  ⟨staged.running, staged.below, staged.plain, staged.place⟩

/-- A line behind which the function goes on: the page that it leaves selected, and the limit and the
contents up to there. -/
private structure Passes (d : Setting) (flash : Flash) (page limit : Nat)
    (content : List (Nat × UInt8)) (s : Upload) (line : List UInt8) : Prop where
  page : (flash.observe d.port s line ()).page = page
  staged : Staged d (flash.observe d.port s line ()) limit content (s.processLine d.port line).1

/-- A line of data. -/
private theorem passes_data (staged : Staged d flash limit content s) {addr : UInt16}
    {bytes line : List UInt8} (written : RecordLine 0 addr bytes (line.map Char.ofUInt8))
    (allowed : ∀ c ∈ line, (hexValue (Char.ofUInt8 c)).isSome → d.allowed c)
    (inside : addr.toNat + bytes.length ≤ 65536) (some : bytes ≠ [])
    (behind : limit ≤ 65536 * flash.page + addr.toNat)
    (done : (s.processLine d.port line).1.returned = none) :
    (s.processLine d.port line).1.currentPage = s.currentPage ∧
      Passes d flash flash.page (65536 * flash.page + addr.toNat + bytes.length)
        (content ++ placed (65536 * flash.page + addr.toNat) bytes) s line := by
  obtain ⟨data, -⟩ := data_fields written
  have isData : isData line = true := data.trans (decide_eq_true some)
  obtain ⟨success, answers, same⟩ := processLine_running staged.running done
  have body : s.lineBody d.port line = s.dataLine d.port line := if_pos isData
  rw [body] at success
  obtain ⟨frames, more, kept, staged'⟩ :=
    dataLine_advances staged written allowed behind inside success
  rw [← body] at more kept staged'
  have page : (flash.observe d.port s line ()).page = flash.page :=
    if_neg fun ⟨other, _⟩ => by rw [isData] at other; cases other
  refine ⟨?_, page, ?_⟩
  · rw [same]
    exact kept
  · rw [observe_send same more page, same, Nat.add_assoc]
    exact staged'.answered answers

private theorem passes_empty (staged : Staged d flash limit content s) {addr : UInt16}
    {line : List UInt8} (written : RecordLine 0 addr [] (line.map Char.ofUInt8))
    (done : (s.processLine d.port line).1.returned = none) :
    (s.processLine d.port line).1.currentPage = s.currentPage ∧
      Passes d flash flash.page limit content s line := by
  obtain ⟨data, segment, last, -⟩ := data_fields written
  obtain ⟨-, answers, same⟩ := processLine_running staged.running done
  have body : s.lineBody d.port line = (s, .report) := by
    unfold lineBody
    rw [data, segment, last]
    rfl
  have page : (flash.observe d.port s line ()).page = flash.page :=
    if_neg fun ⟨_, other, _⟩ => by rw [segment] at other; cases other
  have frames : (s.lineBody d.port line).1.frames = s.frames ++ [] := by
    rw [body, List.append_nil]
  refine ⟨?_, page, ?_⟩
  · rw [same, body]
  · rw [observe_send same frames page, send_none, same, body]
    exact staged.answered answers

/-- A line that sets a page. -/
private theorem passes_page (staged : Staged d flash limit content s) {upper : UInt16}
    {line : List UInt8} (few : upper.toNat < 16)
    (written : RecordLine 4 0 [(upper >>> 8).toUInt8, upper.toUInt8] (line.map Char.ofUInt8))
    (some : upper.toNat ≠ 0) (next : flash.page < upper.toNat)
    (adjoining : d.complete → upper.toNat = flash.page + 1)
    (done : (s.processLine d.port line).1.returned = none) :
    (s.processLine d.port line).1.currentPage = upper.toNat ∧
      Passes d flash upper.toNat (65536 * upper.toNat) content s line := by
  obtain ⟨data, segment, page⟩ := page_fields few written
  obtain ⟨success, answers, same⟩ := processLine_running staged.running done
  have body : s.lineBody d.port line = s.segmentLine d.port line := by
    unfold lineBody
    rw [data, segment]
    rfl
  rw [body] at success
  obtain ⟨frames, more, set, staged'⟩ := segmentLine_advances staged page some next adjoining success
  rw [← body] at more set staged'
  have selected : (flash.observe d.port s line ()).page = upper.toNat := by
    show (if isData line = false ∧ isSegment line = true ∧ pageOf line ≠ 0 then _ else _) = _
    rw [if_pos ⟨data, segment, by omega⟩, page]
    rfl
  refine ⟨?_, selected, ?_⟩
  · rw [same]
    exact set
  · rw [observe_send same more selected, same]
    exact staged'.answered answers

/-- A line that sets the first page. -/
private theorem passes_first (staged : Staged d flash limit content s) {upper : UInt16}
    {line : List UInt8}
    (written : RecordLine 4 0 [(upper >>> 8).toUInt8, upper.toUInt8] (line.map Char.ofUInt8))
    (zero : upper.toNat = 0) (front : flash.page = 0) (first : limit = d.appOffset)
    (done : (s.processLine d.port line).1.returned = none) :
    (s.processLine d.port line).1.currentPage = 0 ∧
      Passes d flash flash.page limit content s line := by
  obtain ⟨data, segment, page⟩ := page_fields (by omega) written
  rw [zero] at page
  obtain ⟨-, answers, same⟩ := processLine_running staged.running done
  have body : s.lineBody d.port line = s.segmentLine d.port line := by
    unfold lineBody
    rw [data, segment]
    rfl
  have frames : (s.lineBody d.port line).1.frames = s.frames ++ [] := by
    rw [body, List.append_nil]
    unfold segmentLine
    rw [page]
    rfl
  have still : (flash.observe d.port s line ()).page = flash.page :=
    if_neg fun ⟨_, _, other⟩ => other page
  obtain ⟨set, staged'⟩ := segmentLine_first (d := d) staged page front first
  refine ⟨?_, still, ?_⟩
  · rw [same, body]
    exact set
  · rw [observe_send same frames still, send_none, same, body]
    exact staged'.answered answers

/-- The lines behind these go to their places too. -/
theorem run_finishes {records : List HexRecord} {lines : List (List UInt8)}
    (image : ImageLines records lines) (staged : Staged d flash limit content s)
    (allowed : ∀ line ∈ lines, ∀ c ∈ line, (hexValue (Char.ofUInt8 c)).isSome → d.allowed c)
    (ascending : Ascending d.appOffset flash.page limit records)
    (adjoining : d.complete → Adjoining flash.page records)
    (done : (run (processLine d.port) s lines).1.returned = none) :
    Finished d (noted (processLine d.port) (Flash.observe d.port) flash s lines)
        (endOf flash.page limit records).2 (content ++ writesOf flash.page records)
        (run (processLine d.port) s lines).1 ∧
      (noted (processLine d.port) (Flash.observe d.port) flash s lines).page =
        (endOf flash.page limit records).1 ∧
      (s.currentPage = flash.page ∨ (∃ upper, .extendedAddress upper ∈ records) →
        (run (processLine d.port) s lines).1.currentPage = (endOf flash.page limit records).1) := by
  induction image generalizing flash limit content s with
  | last written =>
    rename_i addr line
    obtain ⟨data, segment, last⟩ := last_fields written
    obtain ⟨success, answers, same⟩ := processLine_running staged.running done
    have body : s.lineBody d.port line = s.lastLine d.port := by
      unfold lineBody
      rw [data, segment, last]
      rfl
    rw [body] at success
    obtain ⟨frames, more, kept, stores, streamed⟩ := lastLine_finishes staged success
    rw [← body] at more kept streamed
    have page : (flash.observe d.port s line ()).page = flash.page :=
      if_neg fun ⟨_, other, _⟩ => by rw [segment] at other; cases other
    have device := observe_send same more page
    rw [run_cons, run_nil, writesOf, List.append_nil]
    refine ⟨⟨?_, ?_⟩, page, fun set => ?_⟩
    · show Stores 0xFF (flash.observe d.port s line ()).writes content
      rw [device]
      exact stores
    · intro all filled
      show Streamed d (flash.observe d.port s line ()) 65536 (s.processLine d.port line).1
      rw [device, same]
      rw [show (noted (processLine d.port) (Flash.observe d.port) flash s [line]).page = flash.page
        from page] at filled
      exact streamed all filled
    · obtain set | ⟨_, member⟩ := set
      · show (s.processLine d.port line).1.currentPage = flash.page
        rw [same, ← set]
        exact kept
      · cases member
  | record written rest ih =>
    rename_i record line records lines
    have now : (s.processLine d.port line).1.returned = none := run_running lines done
    obtain ⟨plain, allowed⟩ := List.forall_mem_cons.mp allowed
    cases record with
    | data addr bytes =>
      obtain ⟨written, inside⟩ := written
      have later {page : Nat} (set : s.currentPage = page ∨
          ∃ upper, HexRecord.extendedAddress upper ∈ HexRecord.data addr bytes :: records)
          (kept : (s.processLine d.port line).1.currentPage = s.currentPage) :
          (s.processLine d.port line).1.currentPage = page ∨
            ∃ upper, HexRecord.extendedAddress upper ∈ records := by
        obtain set | ⟨upper, member⟩ := set
        · exact .inl (kept.trans set)
        · exact .inr ⟨upper, (List.mem_cons.mp member).resolve_left nofun⟩
      by_cases none : bytes = []
      · subst none
        obtain ⟨kept, page, staged'⟩ := passes_empty staged written now
        rw [Ascending, if_pos rfl] at ascending
        have finished := ih staged' allowed (page ▸ ascending) (page ▸ adjoining) done
        rw [page] at finished
        rw [endOf, if_pos rfl]
        exact ⟨finished.1, finished.2.1, fun set => finished.2.2 (later set kept)⟩
      · rw [Ascending, if_neg none] at ascending
        obtain ⟨kept, page, staged'⟩ :=
          passes_data staged written plain inside none ascending.1 now
        have finished := ih staged' allowed (page ▸ ascending.2) (page ▸ adjoining) done
        rw [page, List.append_assoc] at finished
        rw [endOf, if_neg none]
        exact ⟨finished.1, finished.2.1, fun set => finished.2.2 (later set kept)⟩
    | extendedAddress upper =>
      rw [Ascending] at ascending
      split at ascending
      case isTrue zero =>
        obtain ⟨front, first, ascending⟩ := ascending
        obtain ⟨set, page, staged'⟩ := passes_first staged written zero front first now
        have beside (all : d.complete) : Adjoining flash.page records := by
          have both := adjoining all
          rw [Adjoining, zero, ← front] at both
          exact both.2
        have finished := ih staged' allowed (page ▸ ascending) (page ▸ beside) done
        rw [page] at finished
        rw [endOf, if_pos zero, writesOf, zero, ← front]
        exact ⟨finished.1, finished.2.1, fun _ => finished.2.2 (.inl (by rw [set, front]; rfl))⟩
      case isFalse some =>
        obtain ⟨next, few, ascending⟩ := ascending
        obtain ⟨set, page, staged'⟩ := passes_page staged few written some next
          (fun all => (adjoining all).1.resolve_left some) now
        have finished := ih staged' allowed (page ▸ ascending)
          (page ▸ fun all => (adjoining all).2) done
        rw [page] at finished
        rw [endOf, if_neg some]
        exact ⟨finished.1, finished.2.1, fun _ => finished.2.2 (.inl set)⟩

end Lines

/-- Before the first line. -/
theorem start_staged (d : Setting) {appOffset : UInt32} (same : d.appOffset = appOffset.toNat)
    (inside : appOffset.toNat ≤ 65536) :
    Staged d { page := 0, writes := [] } appOffset.toNat [] (start appOffset) := by
  have place : (start appOffset).currentOffset = (appOffset.toNat : Int) := by
    unfold start
    rw [Int.bmod_eq_of_le (by omega) (by omega)]
  refine ⟨rfl, List.forall_mem_nil _, List.forall_mem_nil _, appOffset.toNat, [], ?_, digits_nil,
    ?_, ?_, inside, fun _ => Nat.le_of_eq same, ?_, .nil⟩
  · exact place
  · exact place
  · rw [List.length_nil, Nat.mul_zero, Nat.zero_add, Nat.add_zero]
  · refine ⟨[], [], rfl, digits_nil, List.forall_mem_nil _, fun _ => ⟨rfl, ?_⟩⟩
    rw [same, List.length_nil, Nat.mul_zero, Nat.zero_add, Nat.add_zero]

end Upload

/-- If `process_hex_file` succeeds on a file whose addresses go up, then the device has acknowledged
every byte of the file at its address, and nothing but unused memory elsewhere. -/
theorem uploaded_stores (port : Nat → Bool) (appOffset : UInt32) {records : List HexRecord}
    {file : List UInt8} (image : ImageFile records file) (inside : appOffset.toNat ≤ 65536)
    (ascending : Ascending appOffset.toNat 0 appOffset.toNat records)
    (success : (processHexFile port appOffset file).returned = none) :
    Stores 0xFF (uploaded port appOffset file).writes (contentOf records).writes := by
  let d : Upload.Setting :=
    { port, appOffset := appOffset.toNat, allowed := fun _ => True, complete := False,
      unused := trivial, answers := False.elim }
  have finished := Upload.run_finishes (d := d) (isbLines_image image (Nat.le_refl _))
    (Upload.start_staged d rfl inside) (fun _ _ _ _ _ => trivial) ascending False.elim success
  have stores := finished.1.stores
  rwa [List.nil_append, writesOf_zero] at stores

/-- A byte at the end of the first page. -/
def lastByteRecords : List HexRecord := [.extendedAddress 0, .data 0xFFFF [0xAA]]

def lastByteFile : List UInt8 :=
  [0x3A, 0x30, 0x32, 0x30, 0x30, 0x30, 0x30, 0x30, 0x34, 0x30, 0x30, 0x30, 0x30, 0x46, 0x41] ++
    [0x0A] ++
  ([0x3A, 0x30, 0x31, 0x46, 0x46, 0x46, 0x46, 0x30, 0x30, 0x41, 0x41, 0x35, 0x37] ++ [0x0A] ++
    ([0x3A, 0x30, 0x30, 0x30, 0x30, 0x30, 0x30, 0x30, 0x31, 0x46, 0x46] ++ []))

theorem lastByteFile_image : ImageFile lastByteRecords lastByteFile := by
  refine .record ⟨by decide, 0xFA, _, rfl, by decide, by decide⟩ (by decide) ?_
  refine .record ⟨⟨by decide, 0x57, _, rfl, by decide, by decide⟩, by decide⟩ (by decide) ?_
  exact @ImageFile.last 0 _ _ ⟨by decide, 0xFF, _, rfl, by decide, by decide⟩ (by decide)

theorem lastByteRecords_ascending : Ascending 65535 0 65535 lastByteRecords := by
  simp [lastByteRecords, Ascending]

theorem uploaded_stores_last :
    Stores 0xFF (uploaded (fun _ => true) 65535 lastByteFile).writes
      (contentOf lastByteRecords).writes :=
  uploaded_stores _ 65535 lastByteFile_image (by decide) lastByteRecords_ascending
    (by decide +kernel)

end InertialSense.Bootloader.Isb
