import InertialSense.Comm.Locality
import InertialSense.Foundation.Run

/-! The results of the parser do not depend on how the stream is cut into reads. -/

namespace InertialSense.Comm

open Foundation

namespace Instance

/-! ### Reads keep the instance in order -/

/-- What holds at every point of a run of reads. -/
structure Sound (c : Instance) : Prop extends c.Ready where
  tracked : c.Tracked
  within : c.processPkt.isSome → c.scan ≤ c.tail

variable {c : Instance}

theorem Sound.reaches {after : Instance} {reports : List Report} (sound : c.Sound)
    (path : Reaches step c reports after) : after.Sound := by
  refine path.invariant ?_ sound
  intro c after now sound taken
  refine ⟨sound.toReady.reaches (.single taken), ?_, ?_⟩
  · obtain ⟨-, rfl, -⟩ := step_eq_some taken
    exact turn_tracked sound.tracked
  · obtain ⟨inside, rfl, -⟩ := step_eq_some taken
    obtain ⟨-, -, tail, -, -⟩ := c.turn_frame
    intro busy
    cases turn_moves sound.ordered with
    | starts _ _ _ scan | waits _ _ _ scan => omega
    | skips _ idle | stops _ idle | rejects _ idle | accepts _ idle | refuses _ idle =>
      simp [idle] at busy

theorem Sound.append (sound : c.Sound) (bytes : List UInt8) : (c.append bytes).Sound := by
  refine ⟨⟨sound.ordered, sound.untimed⟩, ?_, ?_⟩
  · intro processor busy
    obtain ⟨some, holds⟩ := sound.tracked processor busy
    refine ⟨some, Holds.congr (c := c) rfl rfl rfl ?_ holds⟩
    intro k small
    have inside := sound.within (by rw [show c.processPkt = _ from busy]; rfl)
    have count : c.held = c.scan - c.head := rfl
    exact store_outside _ (.inl (by show c.head + k < c.tail; omega))
  · intro busy
    have inside := sound.within busy
    show c.scan ≤ c.tail + bytes.length
    omega

/-! ### Making room -/

theorem isCommFree_of_room (room : c.tail ≠ c.bufSize) : c.isCommFree = (c, c.bufSize - c.tail) :=
  if_neg room

theorem isCommFree_full (full : c.tail = c.bufSize) :
    c.isCommFree.1 = if c.head < c.bufSize / 3 then c.flushed else c.shifted :=
  congrArg Prod.fst (if_pos full)

theorem isCommFree_snd (c : Instance) :
    c.isCommFree.2 = c.isCommFree.1.bufSize - c.isCommFree.1.tail := by
  unfold isCommFree
  split <;> rfl

theorem shifted_byteAt {k : Nat} (inside : k < c.tail - c.head) :
    c.shifted.byteAt k = c.byteAt k := by
  show store c.mem 0 (window c.mem c.head (c.tail - c.head)) (0 + k) = c.mem (c.head + k)
  rw [store_inside _ (by simpa using inside)]
  simp [window]

theorem Sound.isCommFree (sound : c.Sound) : c.isCommFree.1.Sound := by
  by_cases full : c.tail = c.bufSize
  · rw [isCommFree_full full]
    split
    · refine ⟨⟨Nat.le_refl _, ?_⟩, .of_idle (by simp [flushed]), ?_⟩
      · simpa [flushed, parseErrorResetState, resetParser] using sound.untimed
      · simp [flushed]
    · refine ⟨⟨Nat.zero_le _, sound.untimed⟩, ?_, ?_⟩
      · intro processor busy
        obtain ⟨some, holds⟩ := sound.tracked processor busy
        have inside := sound.within (by rw [show c.processPkt = _ from busy]; rfl)
        refine ⟨by show 0 < c.scan - c.head; omega, Holds.congr (c := c) rfl rfl rfl ?_ holds⟩
        intro k small
        have count : c.held = c.scan - c.head := rfl
        exact shifted_byteAt (by omega)
      · intro busy
        have inside := sound.within busy
        show c.scan - c.head ≤ c.tail - c.head
        omega
  · rw [isCommFree_of_room full]
    exact sound

private theorem shifted_of_start (start : c.head = 0) : c.shifted = c := by
  have mem : store c.mem 0 (window c.mem 0 c.tail) = c.mem := by
    funext address
    by_cases inside : address < c.tail
    · have there := @store_inside _ c.mem 0 address (window c.mem 0 c.tail) (by simpa using inside)
      rw [Nat.zero_add] at there
      rw [there]
      simp [window]
    · exact store_outside _ (.inr (by simp; omega))
  unfold shifted
  simp only [start, Nat.sub_zero, mem]
  rw [← start]

/-- Making room twice changes nothing more. -/
theorem isCommFree_idem (c : Instance) : c.isCommFree.1.isCommFree.1 = c.isCommFree.1 := by
  by_cases full : c.tail = c.bufSize
  · rw [isCommFree_full full]
    split
    case isTrue low =>
      have room : c.flushed.tail ≠ c.flushed.bufSize := by
        have size : c.flushed.bufSize = c.bufSize := by simp [flushed, parseErrorResetState, resetParser]
        rw [size]
        show 0 ≠ c.bufSize
        omega
      rw [isCommFree_of_room room]
    case isFalse high =>
      by_cases full' : c.shifted.tail = c.shifted.bufSize
      · change c.tail - c.head = c.bufSize at full'
        have small : ¬c.shifted.head < c.shifted.bufSize / 3 := by
          show ¬0 < c.bufSize / 3
          omega
        rw [isCommFree_full full', if_neg small, shifted_of_start rfl]
      · rw [isCommFree_of_room full']
  · rw [isCommFree_of_room full, isCommFree_of_room full]

theorem isCommFree_settled (settled : c.tail ≤ c.scan) :
    c.isCommFree.1.tail ≤ c.isCommFree.1.scan := by
  by_cases full : c.tail = c.bufSize
  · rw [isCommFree_full full]
    split
    · exact Nat.le_refl 0
    · exact Nat.sub_le_sub_right settled c.head
  · rw [isCommFree_of_room full]
    exact settled

/-! ### Reads and single bytes -/

/-- The stream is parsed byte by byte, each byte as if it were the last. -/
inductive Feeds : Instance → List UInt8 → List Report → Instance → Prop where
  | nil (c : Instance) : Feeds c [] [] c
  | cons {c next final : Instance} {byte : UInt8} {rest : List UInt8} {now later : List Report}
      (settles : Settles localStep (c.isCommFree.1.append [byte]) now next)
      (feeds : Feeds next rest later final) : Feeds c (byte :: rest) (now ++ later) final

namespace Feeds

variable {next final final' : Instance} {first second bytes : List UInt8}
  {reports reports' now later : List Report}

theorem append (feeds : Feeds c first now next) (rest : Feeds next second later final) :
    Feeds c (first ++ second) (now ++ later) final := by
  induction feeds with
  | nil => exact rest
  | cons settles _ ih => simpa using Feeds.cons settles (ih rest)

theorem unique (feeds : Feeds c bytes reports final) (feeds' : Feeds c bytes reports' final') :
    reports = reports' ∧ final = final' := by
  induction feeds generalizing reports' with
  | nil => cases feeds'; exact ⟨rfl, rfl⟩
  | cons settles _ ih =>
    cases feeds' with
    | cons settles' rest' =>
      obtain ⟨rfl, rfl⟩ := settles.unique settles'
      obtain ⟨rfl, rfl⟩ := ih rest'
      exact ⟨rfl, rfl⟩

theorem of_isCommFree (some : bytes ≠ []) (feeds : Feeds c.isCommFree.1 bytes reports final) :
    Feeds c bytes reports final := by
  cases feeds with
  | nil => exact absurd rfl some
  | cons settles rest =>
    rw [isCommFree_idem] at settles
    exact .cons settles rest

end Feeds

theorem append_append (c : Instance) (first second : List UInt8) :
    (c.append first).append second = c.append (first ++ second) := by
  unfold append
  rw [← store_append]
  simp [Nat.add_assoc]

private theorem localStep_frame {after : Instance} {reports : List Report}
    (path : Reaches localStep c reports after) :
    after.tail = c.tail ∧ after.bufSize = c.bufSize ∧ (c.head ≤ c.scan → after.head ≤ after.scan) := by
  induction path with
  | refl => exact ⟨rfl, rfl, id⟩
  | @head c next _ _ _ taken _ ih =>
    obtain ⟨tail, size, ordered⟩ := ih
    have progress := fun ordered => (localStep_progress (c := c) ordered taken).1
    unfold localStep at taken
    split at taken
    case isFalse => cases taken
    case isTrue =>
      obtain ⟨rfl, rfl⟩ : _ ∧ _ := by simpa using taken
      obtain ⟨-, same, -, -, -⟩ := c.isolated.turn_frame
      exact ⟨tail, size.trans same, fun before => ordered (progress before)⟩

theorem Feeds.of_block {bytes : List UInt8} {reports : List Report} {final : Instance}
    (ordered : c.isCommFree.1.head ≤ c.isCommFree.1.scan) (some : bytes ≠ [])
    (fits : bytes.length ≤ c.isCommFree.2)
    (settles : Settles localStep (c.isCommFree.1.append bytes) reports final) :
    Feeds c bytes reports final := by
  induction bytes generalizing c reports with
  | nil => exact absurd rfl some
  | cons byte rest ih =>
    by_cases last : rest = []
    · subst last
      simpa using Feeds.cons settles (.nil final)
    obtain ⟨now, next, early⟩ := exists_local_settles (c := c.isCommFree.1.append [byte]) ordered
    obtain ⟨tail, size, ordered'⟩ := localStep_frame early.1
    have more : 0 < rest.length := List.length_pos_iff.mpr last
    rw [isCommFree_snd, List.length_cons] at fits
    change next.tail = c.isCommFree.1.tail + 1 at tail
    change next.bufSize = c.isCommFree.1.bufSize at size
    -- The first byte does not fill the buffer, so no room is made after it.
    have room : next.isCommFree = (next, next.bufSize - next.tail) :=
      isCommFree_of_room (by omega)
    obtain ⟨later, final', late⟩ := exists_local_settles (c := next.append rest) (ordered' ordered)
    have path : Reaches localStep (c.isCommFree.1.append (byte :: rest)) now (next.append rest) := by
      have carried := early.1.map fun c after now => localStep_append (c := c) rest
      rwa [append_append] at carried
    obtain ⟨rfl, rfl⟩ := settles.unique (late.prepend path)
    refine .cons early (ih ?_ last ?_ ?_)
    · rw [room]
      exact ordered' ordered
    · rw [room]
      show rest.length ≤ next.bufSize - next.tail
      omega
    · rw [room]
      exact late

/-- The read brings at most the bytes that `is_comm_free` has room for. -/
def Fits (c : Instance) (bytes : List UInt8) : Prop := bytes.length ≤ c.isCommFree.2

/-- No pass of the loop during the read meets one of the excepted frames. -/
def CleanRead (c : Instance) (bytes : List UInt8) : Prop :=
  Visits step Clean (c.isCommFree.1.append bytes)

instance (c : Instance) (bytes : List UInt8) : Decidable (c.Fits bytes) :=
  inferInstanceAs (Decidable (_ ≤ _))

/-- A check of `CleanRead` that lets the loop make `fuel` passes. -/
def cleanReadWithin (fuel : Nat) (c : Instance) (bytes : List UInt8) : Bool :=
  visitsWithin step Clean fuel (c.isCommFree.1.append bytes)

theorem cleanRead_of_within {fuel : Nat} {bytes : List UInt8}
    (checked : cleanReadWithin fuel c bytes) : c.CleanRead bytes :=
  visits_of_within checked

/-- Between two reads the loop is at rest. -/
structure Resting (c : Instance) : Prop extends c.Sound where
  settled : c.tail ≤ c.scan

theorem read_settles (sound : c.Sound) (bytes : List UInt8) :
    Settles step (c.isCommFree.1.append bytes) (c.read bytes).2 (c.read bytes).1 :=
  drain_settles (sound.isCommFree.append bytes).toReady

theorem read_resting (sound : c.Sound) (bytes : List UInt8) : (c.read bytes).1.Resting := by
  obtain ⟨path, rest⟩ := read_settles sound bytes
  exact ⟨(sound.isCommFree.append bytes).reaches path, step_eq_none.mp rest⟩

theorem read_local (sound : c.Sound) {bytes : List UInt8} (clean : c.CleanRead bytes) :
    Settles localStep (c.isCommFree.1.append bytes) (c.read bytes).2 (c.read bytes).1 := by
  obtain ⟨path, rest⟩ := read_settles sound bytes
  have visits : Visits step (fun d => d.Tracked ∧ d.Clean) (c.isCommFree.1.append bytes) :=
    fun reports next path => ⟨((sound.isCommFree.append bytes).reaches path).tracked,
      clean reports next path⟩
  refine ⟨path.transfer (fun d both => localStep_eq_step both.1 both.2) visits, ?_⟩
  have last := visits _ _ path
  rw [localStep_eq_step last.1 last.2, rest]

theorem read_feeds (sound : c.Sound) {bytes : List UInt8} (some : bytes ≠ [])
    (fits : c.Fits bytes) (clean : c.CleanRead bytes) :
    Feeds c bytes (c.read bytes).2 (c.read bytes).1 :=
  .of_block sound.isCommFree.ordered some fits (read_local sound clean)

/-- A read without bytes only makes room. -/
theorem read_nil (resting : c.Resting) : c.read [] = (c.isCommFree.1, []) := by
  have settles := read_settles resting.toSound []
  have nothing : c.isCommFree.1.append [] = c.isCommFree.1 := by simp [append]
  have idle : c.isCommFree.1.step = none := step_eq_none.mpr (isCommFree_settled resting.settled)
  rw [nothing] at settles
  obtain ⟨reports, final⟩ := settles.unique (.rest idle)
  exact Prod.ext final reports

private theorem getLast?_of_flatten_nil {reads : List (List UInt8)}
    (nothing : ∀ bytes ∈ reads, bytes = []) : ([] :: reads).getLast? = some [] := by
  rw [List.getLast?_cons]
  cases last : reads.getLast? with
  | none => rfl
  | some bytes => simp [nothing bytes (List.mem_of_getLast? last)]

/-- A run of reads gives what its bytes give one after another; only a last read without
bytes makes room once more. -/
theorem reads_feed {reads : List (List UInt8)} (resting : c.Resting)
    (fits : Along read Fits c reads) (clean : Along read CleanRead c reads) :
    ∃ final, Feeds c reads.flatten (run read c reads).2.flatten final ∧
      ((run read c reads).1 = final ∨
        (run read c reads).1 = final.isCommFree.1 ∧ reads.getLast? = some []) := by
  induction reads generalizing c with
  | nil => exact ⟨c, .nil c, .inl rfl⟩
  | cons bytes rest ih =>
    obtain ⟨fitsNow, fitsLater⟩ := fits
    obtain ⟨cleanNow, cleanLater⟩ := clean
    obtain ⟨final, feeds, ends⟩ := ih (read_resting resting.toSound bytes) fitsLater cleanLater
    have last : rest.getLast? = some [] → (bytes :: rest).getLast? = some [] := by
      intro last
      simp [List.getLast?_cons, last]
    by_cases empty : bytes = []
    · subst empty
      simp only [run_cons, List.flatten_cons, List.nil_append]
      rw [read_nil resting] at feeds ends ⊢
      by_cases nothing : rest.flatten = []
      · rw [nothing] at feeds ⊢
        generalize (run read c.isCommFree.1 rest).2.flatten = reports at feeds
        cases feeds
        refine ⟨c, .nil c, .inr ⟨?_, getLast?_of_flatten_nil (by simpa using nothing)⟩⟩
        rcases ends with same | ⟨same, -⟩
        · exact same
        · rw [same, isCommFree_idem]
      · exact ⟨final, .of_isCommFree nothing feeds, ends.imp id (And.imp id last)⟩
    · refine ⟨final, ?_, ends.imp id (And.imp id last)⟩
      simpa using (read_feeds resting.toSound empty fitsNow cleanNow).append feeds

theorem feedByte_eq_read (sound : c.Sound) (byte : UInt8) : c.feedByte byte = c.read [byte] := by
  have ready := (sound.isCommFree.append [byte]).toReady
  have settles := read_settles sound [byte]
  obtain ⟨path, rests, -⟩ := @search_reaches _ _ ready.ordered (Nat.le_refl _)
  rw [← isCommParse_eq ready] at path rests
  have found : c.isCommParseByte byte = (c.isCommFree.1.append [byte]).isCommParse := rfl
  unfold feedByte
  rw [found]
  dsimp only
  split
  case isTrue silent =>
    have quiet : outputs (c.isCommFree.1.append [byte]).isCommParse = [] := if_pos silent
    obtain ⟨reports, final⟩ := settles.unique ⟨quiet ▸ path, rests silent⟩
    exact Prod.ext final.symm reports.symm
  case isFalse some =>
    have rest := drain_settles (ready.reaches path)
    obtain ⟨reports, final⟩ := settles.unique (rest.prepend path)
    refine Prod.ext final.symm (Eq.trans ?_ reports.symm)
    simp [outputs, some]

/-- Single bytes need no room check: their run gives what the stream gives. -/
theorem bytes_feed {bytes : List UInt8} (sound : c.Sound)
    (clean : Along feedByte (fun d byte => d.CleanRead [byte]) c bytes) :
    Feeds c bytes (run feedByte c bytes).2.flatten (run feedByte c bytes).1 := by
  induction bytes generalizing c with
  | nil => exact .nil c
  | cons byte rest ih =>
    obtain ⟨cleanNow, cleanLater⟩ := clean
    have after := (read_resting sound [byte]).toSound
    have now := read_local sound cleanNow
    rw [← feedByte_eq_read sound] at after now
    exact .cons now (ih after cleanLater)

end Instance

/-- A freshly initialised instance with the protocols of `enabledMask` enabled. -/
def started (mem : Nat → UInt8) (bufferSize : Nat) (enabledMask : UInt32) : Instance :=
  { isCommInit mem bufferSize with enabledMask }

theorem started_resting (mem : Nat → UInt8) (bufferSize : Nat) (enabledMask : UInt32) :
    (started mem bufferSize enabledMask).Resting :=
  ⟨⟨⟨Nat.le_refl 0, rfl⟩, .of_idle rfl, fun busy => by cases busy⟩, Nat.le_refl 0⟩

/-- Two ways of cutting a stream into reads give the same results and end in the same
instance, wherever the buffer is shifted or flushed on the way. A read of no bytes does not
end a cutting: it would only call `is_comm_free` once more. -/
theorem reads_chunking_independent (mem : Nat → UInt8) (bufferSize : Nat) (enabledMask : UInt32)
    {reads reads' : List (List UInt8)} (same : reads.flatten = reads'.flatten)
    (ends : reads.getLast? ≠ some []) (ends' : reads'.getLast? ≠ some [])
    (fits : Along Instance.read Instance.Fits (started mem bufferSize enabledMask) reads)
    (fits' : Along Instance.read Instance.Fits (started mem bufferSize enabledMask) reads')
    (clean : Along Instance.read Instance.CleanRead (started mem bufferSize enabledMask) reads)
    (clean' : Along Instance.read Instance.CleanRead (started mem bufferSize enabledMask) reads') :
    (run Instance.read (started mem bufferSize enabledMask) reads).2.flatten =
        (run Instance.read (started mem bufferSize enabledMask) reads').2.flatten ∧
      (run Instance.read (started mem bufferSize enabledMask) reads).1.rxPktCount =
        (run Instance.read (started mem bufferSize enabledMask) reads').1.rxPktCount ∧
      (run Instance.read (started mem bufferSize enabledMask) reads).1.rxErrorTypeCount =
        (run Instance.read (started mem bufferSize enabledMask) reads').1.rxErrorTypeCount := by
  have resting := started_resting mem bufferSize enabledMask
  obtain ⟨final, feeds, last⟩ := Instance.reads_feed resting fits clean
  obtain ⟨final', feeds', last'⟩ := Instance.reads_feed resting fits' clean'
  rw [← same] at feeds'
  obtain ⟨reports, rfl⟩ := feeds.unique feeds'
  have state := last.resolve_right fun trailing => ends trailing.2
  have state' := last'.resolve_right fun trailing => ends' trailing.2
  rw [state, state']
  exact ⟨reports, rfl, rfl⟩

/-- An acknowledge frame without payload. -/
def ackFrame : List UInt8 := [0xEF, 0x49, 0x01, 0x00, 0x00, 0x00, 0x39, 0x0B]

/-- Two frames in a buffer of twelve bytes: the second one straddles a shift. -/
theorem reads_chunking_independent_shift :
    (run Instance.read (started (fun _ => 0) 12 0x0F)
        [ackFrame ++ ackFrame.take 4, ackFrame.drop 4]).2.flatten =
      (run Instance.read (started (fun _ => 0) 12 0x0F)
        ((ackFrame ++ ackFrame).map fun byte => [byte])).2.flatten ∧
      (run Instance.read (started (fun _ => 0) 12 0x0F)
        [ackFrame ++ ackFrame.take 4, ackFrame.drop 4]).2.flatten.length = 2 :=
  ⟨(reads_chunking_independent (fun _ => 0) 12 0x0F (by decide) (by decide) (by decide)
    (by decide +kernel) (by decide +kernel)
    (Along.mono (fun _ _ => Instance.cleanRead_of_within)
      (show Along _ (fun c bytes => Instance.cleanReadWithin 40 c bytes) _ _ by decide +kernel))
    (Along.mono (fun _ _ => Instance.cleanRead_of_within)
      (show Along _ (fun c bytes => Instance.cleanReadWithin 40 c bytes) _ _ by decide +kernel))).1,
    by decide +kernel⟩

/-- The start of a frame that is longer than a buffer of twelve bytes. -/
def longFrame : List UInt8 :=
  [0xEF, 0x49, 0x04, 0x05, 0x20, 0x00, 0x01, 0x02, 0x03, 0x04, 0x05, 0x06]

/-- A last read of no bytes is not the same as no read: `is_comm_free` flushes the full buffer
and counts an error. -/
theorem reads_chunking_trailing :
    ¬∀ (mem : Nat → UInt8) (bufferSize : Nat) (enabledMask : UInt32)
      (reads reads' : List (List UInt8)), reads.flatten = reads'.flatten →
      Along Instance.read Instance.Fits (started mem bufferSize enabledMask) reads →
      Along Instance.read Instance.Fits (started mem bufferSize enabledMask) reads' →
      Along Instance.read Instance.CleanRead (started mem bufferSize enabledMask) reads →
      Along Instance.read Instance.CleanRead (started mem bufferSize enabledMask) reads' →
      (run Instance.read (started mem bufferSize enabledMask) reads).2.flatten =
          (run Instance.read (started mem bufferSize enabledMask) reads').2.flatten ∧
        (run Instance.read (started mem bufferSize enabledMask) reads).1.rxPktCount =
          (run Instance.read (started mem bufferSize enabledMask) reads').1.rxPktCount ∧
        (run Instance.read (started mem bufferSize enabledMask) reads).1.rxErrorTypeCount =
          (run Instance.read (started mem bufferSize enabledMask) reads').1.rxErrorTypeCount := by
  intro independent
  have clean : Along Instance.read Instance.CleanRead (started (fun _ => 0) 12 0x0F)
      [ackFrame ++ longFrame.take 4, longFrame.drop 4] :=
    Along.mono (fun _ _ => Instance.cleanRead_of_within)
      (show Along _ (fun c bytes => Instance.cleanReadWithin 40 c bytes) _ _ by decide +kernel)
  have clean' : Along Instance.read Instance.CleanRead (started (fun _ => 0) 12 0x0F)
      [ackFrame ++ longFrame.take 4, longFrame.drop 4, []] :=
    Along.mono (fun _ _ => Instance.cleanRead_of_within)
      (show Along _ (fun c bytes => Instance.cleanReadWithin 40 c bytes) _ _ by decide +kernel)
  -- the frame is longer than the buffer, which is full behind the second read
  obtain ⟨-, -, errors⟩ := independent (fun _ => 0) 12 0x0F
    [ackFrame ++ longFrame.take 4, longFrame.drop 4]
    [ackFrame ++ longFrame.take 4, longFrame.drop 4, []]
    (by decide) (by decide +kernel) (by decide +kernel) clean clean'
  exact absurd (congrFun errors .rxbufferFlushed) (by decide +kernel)

private theorem isCommBufferParseMessages_eq (callbacks : Callbacks) {c : Instance}
    {buf : List UInt8} (fits : c.Fits buf) :
    isCommBufferParseMessages callbacks c buf =
      ((c.read buf).1, (c.read buf).2.flatMap callbacks.dispatch) := by
  have all : min buf.length c.isCommFree.2 = buf.length := Nat.min_eq_left fits
  unfold isCommBufferParseMessages parseMessages
  dsimp only
  rw [all, List.take_length]
  rfl

private theorem buffer_calls_are_reads {callbacks : Callbacks} {c : Instance}
    {bufs : List (List UInt8)}
    (fits : Along (isCommBufferParseMessages callbacks) Instance.Fits c bufs)
    (clean : Along (isCommBufferParseMessages callbacks) Instance.CleanRead c bufs) :
    Along Instance.read Instance.Fits c bufs ∧ Along Instance.read Instance.CleanRead c bufs ∧
      (run (isCommBufferParseMessages callbacks) c bufs).1 = (run Instance.read c bufs).1 ∧
      (run (isCommBufferParseMessages callbacks) c bufs).2.flatten =
        (run Instance.read c bufs).2.flatten.flatMap callbacks.dispatch := by
  induction bufs generalizing c with
  | nil => exact ⟨trivial, trivial, rfl, rfl⟩
  | cons buf rest ih =>
    obtain ⟨fitsNow, fitsLater⟩ := fits
    obtain ⟨cleanNow, cleanLater⟩ := clean
    have call := isCommBufferParseMessages_eq callbacks fitsNow
    rw [call] at fitsLater cleanLater
    obtain ⟨fits, clean, state, reports⟩ := ih fitsLater cleanLater
    refine ⟨⟨fitsNow, fits⟩, ⟨cleanNow, clean⟩, ?_, ?_⟩
    · simp only [run_cons, call]
      exact state
    · simp only [run_cons, call, List.flatten_cons, reports, List.flatMap_append]

/-- Calls of `is_comm_buffer_parse_messages` that bring no more than `is_comm_free` has room
for dispatch what the single bytes of their buffers dispatch. -/
theorem buffer_parse_messages_complete (callbacks : Callbacks) (mem : Nat → UInt8)
    (bufferSize : Nat) (enabledMask : UInt32) {bufs : List (List UInt8)}
    (fits : Along (isCommBufferParseMessages callbacks) Instance.Fits
      (started mem bufferSize enabledMask) bufs)
    (clean : Along (isCommBufferParseMessages callbacks) Instance.CleanRead
      (started mem bufferSize enabledMask) bufs)
    (clean' : Along Instance.feedByte (fun c byte => c.CleanRead [byte])
      (started mem bufferSize enabledMask) bufs.flatten) :
    (run (isCommBufferParseMessages callbacks) (started mem bufferSize enabledMask) bufs).2.flatten =
      (run Instance.feedByte (started mem bufferSize enabledMask) bufs.flatten).2.flatten.flatMap
        callbacks.dispatch := by
  have resting := started_resting mem bufferSize enabledMask
  obtain ⟨fits, clean, state, calls⟩ := buffer_calls_are_reads fits clean
  obtain ⟨final, feeds, -⟩ := Instance.reads_feed resting fits clean
  obtain ⟨reports, -⟩ := feeds.unique (Instance.bytes_feed resting.toSound clean')
  rw [calls, reports]

/-- Handlers for ISB packets only. -/
def isbCallbacks : Callbacks :=
  { isb := true
    isbData := false
    nmea := false
    ublox := false
    rtcm3 := false
    sprtn := false
    sony := false
    error := false
    all := false }

theorem buffer_parse_messages_complete_two :
    (run (isCommBufferParseMessages isbCallbacks) (started (fun _ => 0) 16 0x0F)
        [ackFrame.take 5, ackFrame.drop 5 ++ ackFrame]).2.flatten =
      (run Instance.feedByte (started (fun _ => 0) 16 0x0F)
        (ackFrame ++ ackFrame)).2.flatten.flatMap isbCallbacks.dispatch ∧
      (run (isCommBufferParseMessages isbCallbacks) (started (fun _ => 0) 16 0x0F)
        [ackFrame.take 5, ackFrame.drop 5 ++ ackFrame]).2.flatten.length = 2 :=
  ⟨buffer_parse_messages_complete isbCallbacks (fun _ => 0) 16 0x0F
    (by decide +kernel)
    (Along.mono (fun _ _ => Instance.cleanRead_of_within)
      (show Along _ (fun c bytes => Instance.cleanReadWithin 40 c bytes) _ _ by decide +kernel))
    (Along.mono (fun _ _ => Instance.cleanRead_of_within)
      (show Along _ (fun c byte => Instance.cleanReadWithin 40 c [byte]) _ _ by decide +kernel)),
    by decide +kernel⟩

/-- Two calls with twelve bytes each, in a buffer of sixteen: the second one copies four bytes
only, and the third frame is lost. -/
theorem buffer_parse_messages_drops :
    (∀ buf ∈ [ackFrame ++ ackFrame.take 4, ackFrame.drop 4 ++ ackFrame], buf.length ≤ 16) ∧
      ackFrame.length ≤ 16 - 16 / 3 ∧
      (run (isCommBufferParseMessages isbCallbacks) (started (fun _ => 0) 16 0x0F)
          [ackFrame ++ ackFrame.take 4, ackFrame.drop 4 ++ ackFrame]).2.flatten ≠
        (run Instance.feedByte (started (fun _ => 0) 16 0x0F)
          (ackFrame ++ ackFrame ++ ackFrame)).2.flatten.flatMap isbCallbacks.dispatch := by
  refine ⟨by decide, by decide, by decide +kernel⟩

end InertialSense.Comm
