import InertialSense.FirmwareUpdate.Channel
import InertialSense.FirmwareUpdate.Coverage
import InertialSense.Md5.Standard

/-! An upload over a line that keeps the order and loses nothing: whatever the order of its steps, it
has finished once nothing is left to do. -/

namespace InertialSense.FirmwareUpdate

open Foundation

/-- A host, a device, what is under way between them, and what the device has done. -/
structure Line where
  host : Host
  device : Device
  toDevice : List Payload
  toHost : List Payload
  effects : List Effect

/-- `fwUpdate_step` of `ISFirmwareUpdater` asks again or sends the next chunk, or the message that is
under way the longest arrives. -/
inductive LineAction where
  | repeatRequest (answers : HostAnswers)
  | sendNext (answers : HostAnswers)
  | deliverToDevice (answers : Answers)
  | deliverToHost (answers : HostAnswers)

namespace Line

def step (l : Line) : LineAction → Line × Unit
  | .repeatRequest answers =>
    (if l.host.sessionStatus = .notStarted then
      { l with toDevice := l.toDevice ++ l.host.repeatRequest answers }
    else l, ())
  | .sendNext answers =>
    (if l.host.sessionStatus = .ready ∨ l.host.sessionStatus = .inProgress then
      { l with
        host := (l.host.sendNextChunk answers).1
        toDevice := l.toDevice ++ (l.host.sendNextChunk answers).2 }
    else l, ())
  | .deliverToDevice answers =>
    (match l.toDevice with
      | [] => l
      | payload :: rest =>
        { l with
          device := (l.device.step (answers, payload)).1
          toDevice := rest
          toHost := l.toHost ++ (l.device.step (answers, payload)).2.filterMap Effect.sent?
          effects := l.effects ++ (l.device.step (answers, payload)).2 }, ())
  | .deliverToHost answers =>
    (match l.toHost with
      | [] => l
      | payload :: rest =>
        { l with
          host := (l.host.processMessage answers payload).1
          toDevice := l.toDevice ++ (l.host.processMessage answers payload).2
          toHost := rest }, ())

def start (host : Host) (device : Device) (answers : HostAnswers) (arguments : RequestArguments) :
    Line :=
  { host := (host.requestUpdate answers arguments).1
    device
    toDevice := (host.requestUpdate answers arguments).2
    toHost := []
    effects := [] }

/-- The step delivers a message, or sends a chunk. -/
def Busy (l : Line) : LineAction → Prop
  | .repeatRequest _ => False
  | .sendNext answers => (l.step (.sendNext answers)).1.toDevice ≠ l.toDevice
  | .deliverToDevice _ => l.toDevice ≠ []
  | .deliverToHost _ => l.toHost ≠ []

/-- Nothing is under way, and the host has nothing to send. -/
def Quiet (l : Line) : Prop := ∀ action, ¬l.Busy action

end Line

/-- The device is ready, writes what it gets, and finishes. -/
structure Answers.Willing (answers : Answers) : Prop where
  ready : answers.startUpdate = .ready
  writes : 0 ≤ answers.writeImageChunk.value
  finishes : answers.finishUpdate = .finished

def LineAction.Willing : LineAction → Prop
  | .deliverToDevice answers => answers.Willing
  | _ => True

/-- The chunks that were written, without the status that the device gave. -/
def writesOf (effects : List Effect) : List ImageWrite :=
  (effects.filterMap Effect.acceptedWrite?).map fun write => { write with status := .inProgress }

/-- The calls of `fwUpdate_finishUpdate`. -/
def finishesOf (effects : List Effect) : List Effect :=
  effects.filter fun effect => match effect with
    | .finishUpdate .. => true
    | _ => false

/-- An image, and a request for it that a device can count. -/
structure Transfer where
  image : List UInt8
  request : UpdateRequest
  target : UInt32
  filled : 1 ≤ request.fileSize.toNat
  positive : 1 ≤ request.chunkSize.toNat
  countable : request.Countable
  size : request.fileSize.toNat = image.length
  hash : request.md5Hash = Md5.Standard.md5 image

namespace Transfer

variable (t : Transfer)

/-- The number of chunks. -/
def count : Nat := t.request.neededChunks

/-- A part of the image. -/
def piece (k : Nat) : List UInt8 :=
  (t.image.drop (k * t.request.chunkSize.toNat)).take t.request.chunkSize.toNat

theorem piece_short (k : Nat) : (t.piece k).length < 2 ^ 16 :=
  Nat.lt_of_le_of_lt (List.length_take_le ..) t.request.chunkSize.toNat_lt

def chunk (k : Nat) : Chunk :=
  { sessionId := t.request.sessionId, chunkId := UInt16.ofNat k, data := t.piece k
    fits := t.piece_short k }

/-- What the host sends. -/
def asks : Payload := { targetDevice := t.target, message := .reqUpdate t.request }

def sends (k : Nat) : Payload := { targetDevice := t.target, message := .updateChunk (t.chunk k) }

/-- What the device does with a part. -/
def writes (k : Nat) : ImageWrite :=
  { targetId := t.target
    slotId := t.request.imageSlot
    offset := UInt32.ofNat (k * t.request.chunkSize.toNat)
    data := t.piece k
    status := .inProgress }

/-- The upload has finished: every part of the image was written once, at its place and in order, the
device has finished once, and both sides know. -/
structure Finished (l : Line) : Prop where
  written : writesOf l.effects = (List.range t.count).map t.writes
  image : (writesOf l.effects).flatMap ImageWrite.data = t.image
  finished : finishesOf l.effects =
    [.finishUpdate t.target t.request.imageSlot t.request.imageFlags]
  device : l.device.sessionStatus = .finished
  host : l.host.sessionStatus = .finished

/-! ### What the host is told -/

/-- A message of the device: the status that the host has before it and behind it. -/
inductive Tells : UpdateStatus → Payload → UpdateStatus → Prop where
  | response : Tells .ready
      { targetDevice := targetHost
        message := .updateResp t.request.sessionId (UInt16.ofNat t.count) .ready } .ready
  | progress (before : UpdateStatus) {status : UpdateStatus} (going : 0 < status.value)
      (numChunks totlChunks : UInt16) : Tells before
      { targetDevice := targetHost
        message := .updateProgress t.request.sessionId status numChunks totlChunks 99 } status
  | done (before : UpdateStatus) : Tells before
      { targetDevice := targetHost, message := .updateDone t.request.sessionId .finished } .finished

/-- Messages, one after the other. -/
inductive Telling : UpdateStatus → List Payload → UpdateStatus → Prop where
  | nil (status : UpdateStatus) : Telling status [] status
  | cons {before status last : UpdateStatus} {payload : Payload} {rest : List Payload}
      (first : t.Tells before payload status) (later : Telling status rest last) :
      Telling before (payload :: rest) last

variable {t}

theorem Telling.append {before status last : UpdateStatus} {first second : List Payload}
    (told : t.Telling before first status) (later : t.Telling status second last) :
    t.Telling before (first ++ second) last := by
  induction told with
  | nil => exact later
  | cons tells _ ih => exact .cons tells (ih later)

/-! ### The parts of the image -/

theorem count_lt : t.count < 2 ^ 16 := t.countable.few

theorem count_pos : 0 < t.count := by
  obtain ⟨before, -, needed, -⟩ := t.request.needed t.filled t.positive
  exact Nat.lt_of_lt_of_eq (Nat.succ_pos before) needed.symm

theorem total_eq (outOfRange : UInt16) :
    Session.totalChunks t.request.fileSize t.request.chunkSize outOfRange = UInt16.ofNat t.count := by
  have nonzero : t.request.chunkSize ≠ 0 := by
    intro zero
    have positive := t.positive
    rw [zero] at positive
    cases positive
  have counted := (totalChunks_eq_iff nonzero).mpr ((countable_iff t.filled t.positive).mp t.countable)
  apply UInt16.toNat_inj.mp
  rw [counted outOfRange, UInt16.toNat_ofNat_of_lt' count_lt]
  rfl

/-- A part is as long as the host and the device think. -/
theorem piece_length {k : Nat} (inside : k < t.count) : (t.piece k).length =
    if k + 1 = t.count ∧ t.request.fileSize.toNat % t.request.chunkSize.toNat ≠ 0 then
      t.request.fileSize.toNat % t.request.chunkSize.toNat
    else t.request.chunkSize.toNat := by
  obtain ⟨before, last, needed, size, lastSize⟩ := t.request.needed t.filled t.positive
  change t.count = before + 1 at needed
  unfold piece
  rw [List.length_take, List.length_drop, ← t.size, needed]
  by_cases final : k = before
  · subst final
    have rest := Nat.mod_lt t.request.fileSize.toNat t.positive
    simp only [true_and]
    rw [← lastSize]
    have bound : last ≤ t.request.chunkSize.toNat := by
      rw [lastSize]
      split <;> omega
    omega
  · rw [if_neg (by omega)]
    have reach := Nat.mul_le_mul_right t.request.chunkSize.toNat (show k + 1 ≤ before by omega)
    rw [Nat.succ_mul] at reach
    omega

theorem pieces_image : (List.range t.count).flatMap t.piece = t.image := by
  obtain ⟨before, last, needed, size, lastSize⟩ := t.request.needed t.filled t.positive
  have covered : t.image.length ≤ t.count * t.request.chunkSize.toNat := by
    have rest := Nat.mod_lt t.request.fileSize.toNat t.positive
    have bound : last ≤ t.request.chunkSize.toNat := by
      rw [lastSize]
      split <;> omega
    change t.count = before + 1 at needed
    rw [← t.size, needed, Nat.succ_mul]
    omega
  exact (flatMap_pieces t.image t.request.chunkSize.toNat t.count).trans
    (List.take_of_length_le covered)

/-! ### The device -/

/-- The first `k` parts are written; behind the last one the device has finished. -/
structure At (t : Transfer) (k : Nat) (s : Session) : Prop where
  target : s.sessionTarget = t.target
  sessionId : s.sessionId = t.request.sessionId
  chunkSize : s.sessionChunkSize = t.request.chunkSize
  imageSize : s.sessionImageSize = t.request.fileSize
  total : s.sessionTotalChunks = UInt16.ofNat t.count
  slot : s.sessionImageSlot = t.request.imageSlot
  flags : s.sessionImageFlags = t.request.imageFlags
  md5 : s.sessionMd5 = t.request.md5Hash
  last : s.lastChunkId = (k : Int) - 1
  status : s.sessionStatus =
    if k = t.count then .finished else if k = 0 then .ready else .inProgress
  hash : k < t.count → ∃ context,
    s.md5Context = ((List.range k).map t.piece).foldl Md5.md5Update (Md5.md5Init context)

/-- What the device has done when the first `k` parts are written. -/
structure Did (t : Transfer) (k : Nat) (effects : List Effect) : Prop where
  written : writesOf effects = (List.range k).map t.writes
  finished : finishesOf effects =
    if k = t.count then [.finishUpdate t.target t.request.imageSlot t.request.imageFlags] else []

section Device

variable {d : Device} {answers : Answers} {k : Nat} {s : Session}

private def Reports (s : Session) (effects : List Effect) : Prop :=
  effects = [] ∨ ∃ numChunks totlChunks, effects =
    [.toHost (.updateProgress s.sessionId s.sessionStatus numChunks totlChunks 99)]

private theorem Reports.quiet {effects : List Effect} (reports : Reports s effects) :
    writesOf effects = [] ∧ finishesOf effects = [] := by
  obtain rfl | ⟨_, _, rfl⟩ := reports <;> exact ⟨rfl, rfl⟩

private theorem Reports.telling {effects : List Effect} (reports : Reports s effects)
    (id : s.sessionId = t.request.sessionId) (going : 0 < s.sessionStatus.value)
    (before : UpdateStatus) : ∃ last,
      t.Telling before (effects.filterMap Effect.sent?) last ∧
        (last = before ∨ last = s.sessionStatus) ∧
        (effects.filterMap Effect.sent?).length ≤ 1 := by
  obtain rfl | ⟨_, _, rfl⟩ := reports
  · exact ⟨before, .nil _, .inl rfl, Nat.zero_le 1⟩
  · refine ⟨s.sessionStatus, ?_, .inr rfl, Nat.le_refl 1⟩
    rw [id]
    exact .cons (.progress before going _ _) (.nil _)

theorem writesOf_append (first second : List Effect) :
    writesOf (first ++ second) = writesOf first ++ writesOf second := by
  unfold writesOf
  rw [List.filterMap_append, List.map_append]

theorem finishesOf_append (first second : List Effect) :
    finishesOf (first ++ second) = finishesOf first ++ finishesOf second :=
  List.filter_append ..

private theorem sendProgress_reports (d : Device) (answers : Answers) :
    Reports d.toSession (d.sendProgress answers).2 := by
  unfold Device.sendProgress
  dsimp only
  split
  · exact .inl rfl
  · exact .inr ⟨_, _, rfl⟩

private theorem step_dispatch (d : Device) (answers : Answers) (message : Message) : ∃ extra,
    (d.step (answers, ⟨d.sessionTarget, message⟩)).1.toSession =
        (Device.dispatch { d with lastMessage := answers.currentTimeMs } answers
          ⟨d.sessionTarget, message⟩).device.toSession ∧
      (d.step (answers, ⟨d.sessionTarget, message⟩)).2 =
        (Device.dispatch { d with lastMessage := answers.currentTimeMs } answers
          ⟨d.sessionTarget, message⟩).effects ++ extra ∧
      Reports (d.step (answers, ⟨d.sessionTarget, message⟩)).1.toSession extra := by
  unfold Device.step Device.processMessage
  rw [if_neg (not_not.mpr rfl)]
  dsimp only
  split
  · refine ⟨_, Device.sendProgress_toSession .., rfl, ?_⟩
    dsimp only
    rw [Device.sendProgress_toSession]
    exact sendProgress_reports _ answers
  · exact ⟨[], rfl, (List.append_nil _).symm, .inl rfl⟩

private theorem startSession_at (target : s.sessionTarget = t.target)
    (ready : answers.startUpdate = .ready) : t.At 0 (s.startSession answers t.request) := by
  unfold Session.startSession
  dsimp only
  rw [ready, if_pos (by decide)]
  have counted := count_pos (t := t)
  refine ⟨?_, rfl, rfl, rfl, total_eq _, rfl, rfl, rfl, rfl, ?_, fun _ => ⟨s.md5Context, ?_⟩⟩
  · split <;> exact target
  · rw [if_neg (show ¬0 = t.count by omega)]
    rfl
  · split <;> rfl

private theorem step_asks (target : d.sessionTarget = t.target)
    (ready : answers.startUpdate = .ready) : t.At 0 (d.step (answers, t.asks)).1.toSession ∧
      writesOf (d.step (answers, t.asks)).2 = [] ∧ finishesOf (d.step (answers, t.asks)).2 = [] ∧
      ∃ rest, (d.step (answers, t.asks)).2.filterMap Effect.sent? =
        ⟨targetHost, .updateResp t.request.sessionId (UInt16.ofNat t.count) .ready⟩ :: rest ∧
          t.Telling .ready rest .ready ∧ rest.length ≤ 1 := by
  unfold asks
  rw [← target]
  obtain ⟨extra, session, effects, reports⟩ := step_dispatch d answers
    (.reqUpdate t.request)
  have started := startSession_at (t := t) (s := d.toSession) target ready
  have counted := count_pos (t := t)
  have status := started.status
  rw [if_neg (by omega), if_pos rfl] at status
  change _ = d.toSession.startSession answers t.request at session
  obtain ⟨silent, quiet⟩ := reports.quiet
  rw [session] at reports
  obtain ⟨last, telling, same, short⟩ :=
    reports.telling started.sessionId (by rw [status]; decide) .ready
  rw [status, or_self] at same
  subst same
  have first : (Device.dispatch { d with lastMessage := answers.currentTimeMs } answers
      ⟨d.sessionTarget, .reqUpdate t.request⟩).effects =
      [.startUpdate t.request,
        .toHost (.updateResp t.request.sessionId (UInt16.ofNat t.count) .ready)] := by
    rw [← started.sessionId, ← started.total, ← status]
    rfl
  rw [effects, first]
  rw [session]
  refine ⟨started, ?_, ?_, extra.filterMap Effect.sent?, rfl, telling, short⟩
  · exact silent
  · exact quiet

/-- The next part has the id and the size that the device waits for, and belongs where it writes it. -/
private theorem At.awaits (before : t.At k s) (inside : k < t.count) :
    (t.chunk k).chunkId = UInt16.ofNat (s.lastChunkId + 1).toNat ∧ s.sessionChunkSize ≠ 0 ∧
      (t.chunk k).dataLen = s.expectedSize (t.chunk k).chunkId ∧
      s.chunkOffset (t.chunk k).chunkId = (t.writes k).offset := by
  have small : k < 2 ^ 16 := Nat.lt_trans inside count_lt
  have id : (UInt16.ofNat k).toNat = k := UInt16.toNat_ofNat_of_lt' small
  refine ⟨?_, ?_, ?_, ?_⟩
  · rw [before.last, show ((k : Int) - 1 + 1).toNat = k by omega]
    rfl
  · rw [before.chunkSize]
    intro zero
    have positive := t.positive
    rw [zero] at positive
    cases positive
  · have required := @expectedSize_atChunk Host.create t.request k s _ t.positive before.imageSize
      before.chunkSize before.total
    have length := nextDataLen_atChunk (h := Host.create) t.positive t.countable.few inside
    show (t.chunk k).dataLen = s.expectedSize (UInt16.ofNat k)
    apply UInt16.toNat_inj.mp
    rw [← required]
    refine Eq.trans ?_ length.symm
    rw [Chunk.dataLen_toNat]
    exact piece_length inside
  · apply UInt32.toNat_inj.mp
    have product : k * t.request.chunkSize.toNat ≤ (2 ^ 16 - 1) * (2 ^ 16 - 1) :=
      Nat.mul_le_mul (Nat.le_pred_of_lt small) (Nat.le_pred_of_lt (UInt16.toNat_lt _))
    rw [s.chunkOffset_toNat, before.chunkSize]
    show (UInt16.ofNat k).toNat * _ = (UInt32.ofNat (k * t.request.chunkSize.toNat)).toNat
    rw [id, UInt32.toNat_ofNat_of_lt' (by show _ < 2 ^ 32; omega)]

private theorem hash_whole (context : Md5.Context) :
    (Md5.md5Final (((List.range t.count).map t.piece).foldl Md5.md5Update
      (Md5.md5Init context))).2 = t.request.md5Hash := by
  have short : ∀ piece ∈ (List.range t.count).map t.piece, piece.length < 2 ^ 32 := by
    intro piece member
    obtain ⟨k, -, rfl⟩ := List.mem_map.mp member
    exact Nat.lt_trans (t.piece_short k) (by decide)
  have absorbed := Md5.foldl_md5Update_absorbed (Md5.md5Init_absorbed context) short
  rw [List.nil_append, ← List.flatMap_def, pieces_image] at absorbed
  rw [Md5.md5Final_absorbed absorbed, Md5.digest_eq_md5, t.hash]

private theorem storeChunk_at (before : t.At k s) (inside : k < t.count) {context : Md5.Context}
    (hash : s.md5Context = ((List.range k).map t.piece).foldl Md5.md5Update (Md5.md5Init context)) :
    (s.storeChunk (t.chunk k)).lastChunkId = k ∧
      ((s.storeChunk (t.chunk k)).Complete ↔ k + 1 = t.count) ∧
      (s.storeChunk (t.chunk k)).md5Context =
        ((List.range (k + 1)).map t.piece).foldl Md5.md5Update (Md5.md5Init context) := by
  have id : (UInt16.ofNat k).toNat = k := UInt16.toNat_ofNat_of_lt' (Nat.lt_trans inside count_lt)
  have total : (UInt16.ofNat t.count).toNat = t.count := UInt16.toNat_ofNat_of_lt' count_lt
  have last : (s.storeChunk (t.chunk k)).lastChunkId = k := congrArg Nat.cast id
  refine ⟨last, ?_, ?_⟩
  · unfold Session.Complete
    rw [last]
    show (s.sessionTotalChunks.toNat : Int) - 1 ≤ k ↔ _
    rw [before.total, total]
    omega
  · rw [List.range_succ, List.map_append, List.foldl_append, ← hash]
    rfl

/-- The end of the upload. -/
private theorem verifyImage_finishes' (before : t.At k s) (whole : k + 1 = t.count)
    (willing : answers.Willing) : t.At (k + 1) ((s.storeChunk (t.chunk k)).verifyImage answers).1 ∧
      ((s.storeChunk (t.chunk k)).verifyImage answers).2 =
        [.finishUpdate t.target t.request.imageSlot t.request.imageFlags,
          .toHost (.updateDone t.request.sessionId .finished)] := by
  obtain ⟨context, hash⟩ := before.hash (by omega)
  obtain ⟨last, -, hash⟩ := storeChunk_at before (by omega) hash
  rw [whole] at hash
  have same := hash_whole (t := t) context
  rw [← hash] at same
  have md5 : ¬(s.storeChunk (t.chunk k)).sessionMd5 ≠
      (Md5.md5Final (s.storeChunk (t.chunk k)).md5Context).2 := by
    rw [same]
    exact not_not.mpr before.md5
  unfold Session.verifyImage Session.sendDone
  dsimp only
  rw [if_neg md5, willing.finishes]
  refine ⟨⟨before.target, before.sessionId, before.chunkSize, before.imageSize, before.total,
    before.slot, before.flags, before.md5, ?_, (if_pos whole).symm, fun missing => ?_⟩, ?_⟩
  · show (s.storeChunk (t.chunk k)).lastChunkId = _
    rw [last]
    omega
  · omega
  · show [Effect.finishUpdate s.sessionTarget s.sessionImageSlot s.sessionImageFlags] ++
      [.toHost (.updateDone s.sessionId .finished)] = _
    rw [before.target, before.slot, before.flags, before.sessionId]
    rfl

/-- What is done with the next part: it is written, and after the last one progress is reported and
the checksum is confirmed. -/
private theorem handleChunk_at (before : t.At k d.toSession) (inside : k < t.count)
    (willing : answers.Willing) : ∃ progress write,
      Effect.acceptedWrite? (.writeImageChunk write) = some write ∧
      { write with status := .inProgress } = t.writes k ∧
      Reports (d.toSession.storeChunk (t.chunk k)) progress ∧
      (d.handleChunk answers d.sessionTarget (t.chunk k)).device.toSession =
        (if k + 1 = t.count then ((d.toSession.storeChunk (t.chunk k)).verifyImage answers).1
        else d.toSession.storeChunk (t.chunk k)) ∧
      (d.handleChunk answers d.sessionTarget (t.chunk k)).effects =
        .writeImageChunk write :: if k + 1 = t.count then
          progress ++ ((d.toSession.storeChunk (t.chunk k)).verifyImage answers).2 else [] := by
  obtain ⟨chunkId, positive, size, offset⟩ := before.awaits inside
  obtain ⟨context, hash⟩ := before.hash inside
  obtain ⟨-, complete, -⟩ := storeChunk_at before inside hash
  have own : (t.chunk k).sessionId = d.sessionId := before.sessionId.symm
  refine ⟨(Device.sendProgress { d with toSession := d.toSession.storeChunk (t.chunk k) } answers).2,
    d.toSession.imageWrite (t.chunk k) answers.writeImageChunk, if_pos willing.writes, ?_,
    sendProgress_reports _ answers, ?_⟩
  · unfold Session.imageWrite
    rw [before.target, before.slot, offset]
    rfl
  · unfold Device.handleChunk
    rw [if_neg (not_not.mpr own), if_neg (not_not.mpr chunkId), if_neg positive,
      if_neg (not_not.mpr size)]
    dsimp only
    rw [if_neg (show ¬answers.writeImageChunk.value < UpdateStatus.value .notStarted from
      Int.not_lt.mpr willing.writes)]
    change ((if (d.toSession.storeChunk (t.chunk k)).Complete then _
      else _ : Outcome).device.toSession = _ ∧ (if (d.toSession.storeChunk (t.chunk k)).Complete then _ else _ : Outcome).effects = _)
    by_cases whole : k + 1 = t.count
    · rw [if_pos (complete.mpr whole), if_pos whole, if_pos whole]
      dsimp only
      rw [Device.sendProgress_toSession]
      exact ⟨rfl, rfl⟩
    · rw [if_neg (mt complete.mp whole), if_neg whole, if_neg whole]
      exact ⟨rfl, rfl⟩

private theorem step_sends (before : t.At k d.toSession) (inside : k < t.count)
    (willing : answers.Willing) : t.At (k + 1) (d.step (answers, t.sends k)).1.toSession ∧
      writesOf (d.step (answers, t.sends k)).2 = [t.writes k] ∧
      finishesOf (d.step (answers, t.sends k)).2 =
        (if k + 1 = t.count then [.finishUpdate t.target t.request.imageSlot t.request.imageFlags]
        else []) ∧
      ∀ status, ∃ last, t.Telling status
          ((d.step (answers, t.sends k)).2.filterMap Effect.sent?) last ∧
        (if k + 1 = t.count then last = .finished else last = status ∨ last = .inProgress) ∧
        ((d.step (answers, t.sends k)).2.filterMap Effect.sent?).length ≤ 3 := by
  obtain ⟨context, hash⟩ := before.hash inside
  obtain ⟨last, -, hash⟩ := storeChunk_at before inside hash
  unfold sends
  rw [← before.target]
  obtain ⟨extra, session, effects, reports⟩ := step_dispatch d answers
    (.updateChunk (t.chunk k))
  obtain ⟨silent, quiet⟩ := reports.quiet
  obtain ⟨progress, write, accepted, same, reported, after, done⟩ := handleChunk_at
    (d := { d with lastMessage := answers.currentTimeMs }) before inside willing
  change (Device.dispatch { d with lastMessage := answers.currentTimeMs } answers
    ⟨d.sessionTarget, .updateChunk (t.chunk k)⟩).device.toSession = _ at after
  change (Device.dispatch { d with lastMessage := answers.currentTimeMs } answers
    ⟨d.sessionTarget, .updateChunk (t.chunk k)⟩).effects = _ at done
  rw [after] at session
  rw [done] at effects
  obtain ⟨silent', quiet'⟩ := reported.quiet
  have noted : writesOf [.writeImageChunk write] = [t.writes k] := by
    unfold writesOf
    rw [List.filterMap_cons_some accepted, ← same]
    rfl
  rw [effects]
  by_cases whole : k + 1 = t.count
  · obtain ⟨finished, final⟩ := verifyImage_finishes' before whole willing
    rw [if_pos whole] at session
    have status := finished.status
    rw [if_pos whole] at status
    rw [session] at reports ⊢
    rw [if_pos whole, if_pos whole, final, ← List.singleton_append]
    refine ⟨finished, ?_, ?_, fun before' => ?_⟩
    · rw [writesOf_append, writesOf_append, writesOf_append, noted, silent, silent']
      rfl
    · rw [finishesOf_append, finishesOf_append, finishesOf_append, quiet, quiet', before.target]
      rfl
    · obtain ⟨next, telling, -, short⟩ := reported.telling before.sessionId
        (show 0 < UpdateStatus.value .inProgress by decide) before'
      obtain ⟨last, telling', same, short'⟩ := reports.telling finished.sessionId
        (by rw [status]; decide) .finished
      rw [status, or_self] at same
      subst same
      rw [List.filterMap_append, List.filterMap_append, List.filterMap_append]
      refine ⟨.finished, (telling.append (.cons (.done next) (.nil _))).append telling',
        if_pos whole ▸ rfl, ?_⟩
      rw [List.length_append, List.length_append, List.length_append]
      exact Nat.add_le_add (Nat.add_le_add (Nat.add_le_add (Nat.zero_le 0) short) (Nat.le_refl 1))
        short'
  · rw [if_neg whole] at session
    rw [session] at reports ⊢
    rw [if_neg whole, if_neg whole]
    refine ⟨⟨before.target, before.sessionId, before.chunkSize, before.imageSize, before.total,
      before.slot, before.flags, before.md5, ?_, ?_, fun _ => ⟨context, hash⟩⟩, ?_, ?_,
      fun before' => ?_⟩
    · rw [last]
      omega
    · rw [if_neg whole, if_neg (Nat.succ_ne_zero k)]
      rfl
    · rw [writesOf_append, noted, silent]
      rfl
    · rw [finishesOf_append, quiet]
      rfl
    · obtain ⟨next, telling, same, short⟩ := reports.telling before.sessionId
        (show 0 < UpdateStatus.value .inProgress by decide) before'
      refine ⟨next, telling, ?_, Nat.le_trans short (by decide)⟩
      rw [if_neg whole]
      exact same

end Device

/-! ### The host -/

/-- The host of the upload. -/
structure Serves (t : Transfer) (h : Host) : Prop where
  request : h.request = t.asks
  image : h.image = t.image

section Hosting

variable {h : Host}

private theorem Serves.own (serves : t.Serves h) : h.sessionTarget = t.target ∧
    h.sessionId = t.request.sessionId ∧ h.sessionChunkSize = t.request.chunkSize ∧
    h.sessionImageSize = t.request.fileSize := by
  have same := Message.reqUpdate.inj (congrArg Payload.message serves.request)
  exact ⟨congrArg Payload.targetDevice serves.request, congrArg UpdateRequest.sessionId same,
    congrArg UpdateRequest.chunkSize same, congrArg UpdateRequest.fileSize same⟩

/-- The host knows the number of chunks and is at one of them. -/
structure Feeds (t : Transfer) (j : Nat) (h : Host) : Prop extends t.Serves h where
  total : h.sessionTotalChunks = UInt16.ofNat t.count
  next : h.nextChunkId = UInt16.ofNat j
  inside : j ≤ t.count
  going : 0 < h.sessionStatus.value

/-- A message of the device changes the status. -/
private theorem Feeds.hears {j : Nat} {payload : Payload} {status : UpdateStatus}
    (feeds : t.Feeds j h) (tells : t.Tells h.sessionStatus payload status) (answers : HostAnswers) :
    t.Feeds j (h.processMessage answers payload).1 ∧
      (h.processMessage answers payload).1.sessionStatus = status ∧
      (h.processMessage answers payload).2 = [] := by
  obtain ⟨-, id, -, -⟩ := feeds.own
  obtain ⟨⟨request, image⟩, total, next, inside, going⟩ := feeds
  generalize same : h.sessionStatus = before at tells
  unfold Host.processMessage
  cases tells with
  | response =>
    dsimp only
    rw [if_neg (not_not.mpr rfl), if_pos id.symm]
    unfold Host.handleUpdateResponse
    dsimp only
    rw [if_pos ⟨same, by rw [same]; decide⟩]
    exact ⟨⟨⟨request, image⟩, total, next, inside, going⟩, same, rfl⟩
  | progress _ later =>
    dsimp only
    rw [if_neg (not_not.mpr rfl), if_pos ⟨id.symm, le_of_lt going⟩]
    exact ⟨⟨⟨request, image⟩, total, next, inside, later⟩, rfl, rfl⟩
  | done =>
    dsimp only
    rw [if_neg (not_not.mpr rfl), if_pos id.symm]
    exact ⟨⟨⟨request, image⟩, total, next, inside,
      show 0 < UpdateStatus.value .finished by decide⟩, rfl, rfl⟩

private theorem Serves.starts (serves : t.Serves h) (asked : h.sessionStatus = .notStarted)
    (answers : HostAnswers) : t.Feeds 0 (h.processMessage answers ⟨targetHost,
        .updateResp t.request.sessionId (UInt16.ofNat t.count) .ready⟩).1 ∧
      (h.processMessage answers ⟨targetHost,
        .updateResp t.request.sessionId (UInt16.ofNat t.count) .ready⟩).1.sessionStatus = .ready ∧
      (h.processMessage answers ⟨targetHost,
        .updateResp t.request.sessionId (UInt16.ofNat t.count) .ready⟩).2 = [] := by
  obtain ⟨-, id, -, -⟩ := serves.own
  unfold Host.processMessage
  dsimp only
  rw [if_neg (not_not.mpr rfl), if_pos id.symm]
  unfold Host.handleUpdateResponse
  dsimp only
  rw [asked, if_neg fun both => absurd both.1 (by decide)]
  exact ⟨⟨⟨serves.request, serves.image⟩, rfl, rfl, Nat.zero_le _,
    show 0 < UpdateStatus.value .ready by decide⟩, rfl, rfl⟩

private theorem Feeds.data {j : Nat} (feeds : t.Feeds j h) (missing : j < t.count) :
    h.getImageChunk (h.nextChunkId.toNat * h.sessionChunkSize.toNat) h.nextDataLen.toNat =
        t.piece j ∧
      (t.piece j).length = h.nextDataLen.toNat := by
  obtain ⟨-, -, chunkSize, imageSize⟩ := feeds.own
  have small : j < 2 ^ 16 := Nat.lt_trans missing count_lt
  have length := nextDataLen_atChunk (h := h) t.positive t.countable.few missing
  have same : (h.atChunk t.request (UInt16.ofNat t.request.neededChunks) j).nextDataLen =
      h.nextDataLen := by
    unfold Host.nextDataLen Host.atChunk
    rw [chunkSize, imageSize, feeds.total, feeds.next]
    rfl
  rw [same] at length
  have size := (piece_length missing).trans length.symm
  refine ⟨?_, size⟩
  unfold Host.getImageChunk
  rw [feeds.next, UInt16.toNat_ofNat_of_lt' small, chunkSize, feeds.image, ← size]
  unfold piece
  rw [List.length_take, List.take_eq_take_iff]
  omega

/-- The next part is sent, if there is one and the wire takes it. -/
private theorem Feeds.sendNext {j : Nat} (feeds : t.Feeds j h) (answers : HostAnswers) : ∃ more,
    t.Feeds (j + more) (h.sendNextChunk answers).1 ∧
      (h.sendNextChunk answers).1.sessionStatus = h.sessionStatus ∧
      (h.sendNextChunk answers).2 = (List.range' j more).map t.sends ∧
      (answers.writeToWire = true → j < t.count → more ≠ 0) := by
  obtain ⟨target, id, -, -⟩ := feeds.own
  have total : h.sessionTotalChunks.toNat = t.count := by
    rw [feeds.total]
    exact UInt16.toNat_ofNat_of_lt' count_lt
  have next : h.nextChunkId.toNat = j := by
    rw [feeds.next]
    exact UInt16.toNat_ofNat_of_lt' (Nat.lt_of_le_of_lt feeds.inside count_lt)
  unfold Host.sendNextChunk
  by_cases all : h.sessionTotalChunks ≤ h.nextChunkId
  · rw [if_pos all]
    rw [UInt16.le_iff_toNat_le, total, next] at all
    exact ⟨0, feeds, rfl, rfl, fun _ missing => absurd missing (Nat.not_lt.mpr all)⟩
  · rw [if_neg all]
    rw [UInt16.le_iff_toNat_le, total, next, not_le] at all
    obtain ⟨data, size⟩ := feeds.data all
    dsimp only
    rw [dif_pos (data ▸ size)]
    dsimp only
    unfold Host.transmit
    obtain ⟨serves, feedTotal, feedNext, inside, going⟩ := feeds
    cases answers.writeToWire with
    | false =>
      exact ⟨0, ⟨⟨serves.request, serves.image⟩, feedTotal, feedNext, inside, going⟩, rfl, rfl,
        fun wired => absurd wired Bool.false_ne_true⟩
    | true =>
      refine ⟨1, ⟨⟨serves.request, serves.image⟩, feedTotal, ?_, all, going⟩, rfl, ?_,
        fun _ _ => Nat.one_ne_zero⟩
      · show h.nextChunkId + 1 = _
        rw [feedNext]
        exact (UInt16.ofNat_add j 1).symm
      · rw [if_pos rfl]
        simp only [data]
        simp only [target, id, feedNext]
        rfl

end Hosting

/-! ### The upload -/

/-- The device has not been heard of, and has only been asked. -/
structure Asking (t : Transfer) (l : Line) : Prop where
  serves : t.Serves l.host
  target : l.device.sessionTarget = t.target
  asked : l.host.sessionStatus = .notStarted
  only : ∀ payload ∈ l.toDevice, payload = t.asks
  answered : (l.toHost = [] ∧ l.toDevice ≠ []) ∨
    (t.At 0 l.device.toSession ∧ ∃ rest, l.toHost =
        ⟨targetHost, .updateResp t.request.sessionId (UInt16.ofNat t.count) .ready⟩ :: rest ∧
      t.Telling .ready rest .ready)
  did : t.Did 0 l.effects

/-- What a device that has the first `k` parts has told last. -/
def Last (t : Transfer) (k : Nat) (last : UpdateStatus) : Prop :=
  if k = t.count then last = .finished else last = .ready ∨ (k ≠ 0 ∧ last = .inProgress)

/-- The host has sent the first `j` parts, and the device has the first `k` of them. The others are
under way; a device that has none may be asked again before. -/
structure Sending (t : Transfer) (j k : Nat) (l : Line) : Prop where
  feeds : t.Feeds j l.host
  device : t.At k l.device.toSession
  reached : k ≤ j
  under : ∃ again, l.toDevice =
      List.replicate again t.asks ++ (List.range' k (j - k)).map t.sends ∧ (0 < again → k = 0)
  told : ∃ last, t.Telling l.host.sessionStatus l.toHost last ∧ t.Last k last
  did : t.Did k l.effects

/-- How far the upload is. -/
def Runs (t : Transfer) (l : Line) : Prop :=
  t.Asking l ∨ ∃ j k, t.Sending j k l

private theorem Did.append {k : Nat} {effects more : List Effect} (did : t.Did k effects)
    (written : writesOf more = []) (finished : finishesOf more = []) :
    t.Did k (effects ++ more) := by
  refine ⟨?_, ?_⟩
  · rw [writesOf_append, written, List.append_nil, did.written]
  · rw [finishesOf_append, finished, List.append_nil, did.finished]

private theorem Did.next {k : Nat} {effects more : List Effect} (did : t.Did k effects)
    (inside : k < t.count) (written : writesOf more = [t.writes k])
    (finished : finishesOf more =
      (if k + 1 = t.count then [.finishUpdate t.target t.request.imageSlot t.request.imageFlags]
      else [])) : t.Did (k + 1) (effects ++ more) := by
  refine ⟨?_, ?_⟩
  · rw [writesOf_append, written, did.written, List.range_succ, List.map_append]
    rfl
  · rw [finishesOf_append, finished, did.finished, if_neg (Nat.ne_of_lt inside), List.nil_append]

private theorem last_zero {last : UpdateStatus} (told : t.Last 0 last) : last = .ready := by
  unfold Last at told
  rw [if_neg (Nat.ne_of_lt count_pos)] at told
  obtain same | ⟨later, -⟩ := told
  · exact same
  · exact absurd rfl later

private theorem last_ready : t.Last 0 .ready := by
  unfold Last
  rw [if_neg (Nat.ne_of_lt count_pos)]
  exact .inl rfl

private theorem last_succ {k : Nat} {before last : UpdateStatus} (told : t.Last k before)
    (inside : k < t.count)
    (next : if k + 1 = t.count then last = .finished else last = before ∨ last = .inProgress) :
    t.Last (k + 1) last := by
  unfold Last at told ⊢
  rw [if_neg (Nat.ne_of_lt inside)] at told
  split
  · rename_i whole
    rwa [if_pos whole] at next
  · rename_i more
    rw [if_neg more] at next
    obtain rfl | rfl := next
    · exact told.imp id fun going => ⟨Nat.succ_ne_zero k, going.2⟩
    · exact .inr ⟨Nat.succ_ne_zero k, rfl⟩

/-- The device is asked: it starts over. -/
private theorem Asking.step {l : Line} (asking : t.Asking l) {action : LineAction}
    (willing : action.Willing) : t.Runs (l.step action).1 := by
  obtain ⟨host, device, toDevice, toHost, effects⟩ := l
  obtain ⟨serves, target, asked, only, answered, did⟩ := asking
  dsimp only at serves target asked only answered did
  cases action with
  | repeatRequest answers =>
    refine .inl ?_
    show t.Asking (if host.sessionStatus = .notStarted then _ else _)
    rw [if_pos asked]
    refine ⟨serves, target, asked, ?_, ?_, did⟩
    · intro payload member
      obtain before | again := List.mem_append.mp member
      · exact only payload before
      · unfold Host.repeatRequest at again
        split at again
        · cases again
        · rw [Host.mem_transmit again, serves.request]
    · refine answered.imp (fun waits => ⟨waits.1, fun none => ?_⟩) id
      exact waits.2 (List.append_eq_nil_iff.mp none).1
  | sendNext answers =>
    refine .inl ?_
    show t.Asking (if host.sessionStatus = .ready ∨ host.sessionStatus = .inProgress then _ else _)
    rw [if_neg (by rw [asked]; decide)]
    exact ⟨serves, target, asked, only, answered, did⟩
  | deliverToDevice answers =>
    refine .inl ?_
    cases toDevice with
    | nil => exact ⟨serves, target, asked, only, answered, did⟩
    | cons payload rest =>
      obtain rfl := only payload (List.mem_cons_self ..)
      obtain ⟨started, written, finished, said, sent, telling, -⟩ := step_asks target willing.ready
      refine ⟨serves, started.target, asked,
        fun payload member => only payload (List.mem_cons_of_mem _ member), .inr ⟨started, ?_⟩,
        did.append written finished⟩
      show ∃ rest, toHost ++ _ = _ ∧ _
      rw [sent]
      obtain ⟨rfl, -⟩ | ⟨-, before, rfl, told⟩ := answered
      · exact ⟨said, rfl, telling⟩
      · exact ⟨before ++ _ :: said, rfl, told.append (.cons .response telling)⟩
  | deliverToHost answers =>
    obtain ⟨rfl, waits⟩ | ⟨started, rest, rfl, told⟩ := answered
    · exact .inl ⟨serves, target, asked, only, .inl ⟨rfl, waits⟩, did⟩
    · obtain ⟨feeds, status, silent⟩ := serves.starts asked answers
      refine .inr ⟨0, 0, feeds, started, Nat.le_refl 0, ⟨toDevice.length, ?_, fun _ => rfl⟩,
        ⟨.ready, ?_, last_ready⟩, did⟩
      · show toDevice ++ _ = _
        rw [silent, List.append_nil, Nat.sub_zero, List.range'_zero, List.map_nil, List.append_nil]
        exact List.eq_replicate_iff.mpr ⟨rfl, only⟩
      · show t.Telling (host.processMessage answers _).1.sessionStatus rest .ready
        rw [status]
        exact told

/-- A part arrives at the device, or what it says at the host. -/
private theorem Sending.step {j k : Nat} {l : Line} (sending : t.Sending j k l) {action : LineAction}
    (willing : action.Willing) : ∃ j k, t.Sending j k (l.step action).1 := by
  obtain ⟨host, device, toDevice, toHost, effects⟩ := l
  obtain ⟨feeds, at', reached, ⟨again, under, fresh⟩, ⟨last, told, final⟩, did⟩ := sending
  dsimp only at feeds at' under told did
  cases action with
  | repeatRequest answers =>
    refine ⟨j, k, ?_⟩
    show t.Sending j k (if host.sessionStatus = .notStarted then _ else _)
    rw [if_neg fun asked => absurd (asked ▸ feeds.going) (by decide)]
    exact ⟨feeds, at', reached, ⟨again, under, fresh⟩, ⟨last, told, final⟩, did⟩
  | sendNext answers =>
    by_cases enabled : host.sessionStatus = .ready ∨ host.sessionStatus = .inProgress
    · obtain ⟨more, fed, status, sent, -⟩ := feeds.sendNext answers
      refine ⟨j + more, k, ?_⟩
      show t.Sending _ k (if host.sessionStatus = .ready ∨ host.sessionStatus = .inProgress then _
        else _)
      rw [if_pos enabled]
      refine ⟨fed, at', Nat.le_add_right_of_le reached, ⟨again, ?_, fresh⟩,
        ⟨last, status ▸ told, final⟩, did⟩
      show toDevice ++ (host.sendNextChunk answers).2 = _
      rw [sent, under, List.append_assoc, ← List.map_append, Nat.sub_add_comm reached,
        ← List.range'_append_1, Nat.add_sub_of_le reached]
    · refine ⟨j, k, ?_⟩
      show t.Sending j k (if host.sessionStatus = .ready ∨ host.sessionStatus = .inProgress then _
        else _)
      rw [if_neg enabled]
      exact ⟨feeds, at', reached, ⟨again, under, fresh⟩, ⟨last, told, final⟩, did⟩
  | deliverToDevice answers =>
    cases again with
    | succ again =>
      obtain rfl := fresh (Nat.succ_pos again)
      obtain rfl := last_zero final
      rw [List.replicate_succ, List.cons_append] at under
      subst under
      obtain ⟨started, written, finished, said, sent, telling, -⟩ :=
        step_asks at'.target willing.ready
      refine ⟨j, 0, feeds, started, reached, ⟨again, rfl, fun _ => rfl⟩, ⟨.ready, ?_, last_ready⟩,
        did.append written finished⟩
      show t.Telling host.sessionStatus (toHost ++ _) .ready
      rw [sent]
      exact told.append (.cons .response telling)
    | zero =>
      rw [List.replicate_zero, List.nil_append] at under
      obtain same | less := Nat.eq_or_lt_of_le reached
      · subst same
        rw [Nat.sub_self, List.range'_zero, List.map_nil] at under
        subst under
        exact ⟨k, k, feeds, at', reached, ⟨0, by rw [Nat.sub_self]; rfl, fresh⟩, ⟨last, told, final⟩,
          did⟩
      · have inside := Nat.lt_of_lt_of_le less feeds.inside
        obtain ⟨rest, more⟩ := Nat.exists_eq_add_of_lt less
        rw [show j - k = (j - (k + 1)) + 1 by omega, List.range'_succ, List.map_cons] at under
        subst under
        obtain ⟨stored, written, finished, tells⟩ := step_sends at' inside willing
        obtain ⟨next, telling, same, -⟩ := tells last
        refine ⟨j, k + 1, feeds, stored, less,
          ⟨0, (List.nil_append _).symm, fun some => absurd some (Nat.lt_irrefl 0)⟩,
          ⟨next, told.append telling, last_succ final inside same⟩,
          did.next inside written finished⟩
  | deliverToHost answers =>
    cases told with
    | nil => exact ⟨j, k, feeds, at', reached, ⟨again, under, fresh⟩, ⟨_, .nil _, final⟩, did⟩
    | cons first later =>
      obtain ⟨fed, status, silent⟩ := feeds.hears first answers
      refine ⟨j, k, fed, at', reached, ⟨again, ?_, fresh⟩, ⟨last, ?_, final⟩, did⟩
      · show toDevice ++ _ = _
        rw [silent, List.append_nil, under]
      · show t.Telling (host.processMessage answers _).1.sessionStatus _ last
        rw [status]
        exact later

theorem runs_step {l : Line} (runs : t.Runs l) {action : LineAction}
    (willing : action.Willing) : t.Runs (l.step action).1 := by
  obtain asking | ⟨j, k, sending⟩ := runs
  · exact asking.step willing
  · exact .inr (sending.step willing)

theorem start_runs {host : Host} {device : Device} {answers : HostAnswers}
    {arguments : RequestArguments} (wired : answers.writeToWire = true)
    (opened : host.image = t.image) (target : device.sessionTarget = t.target)
    (requested : (host.requestUpdate answers arguments).1.request = t.asks) :
    t.Runs (Line.start host device answers arguments) := by
  have sent : (host.requestUpdate answers arguments).2 = [t.asks] := by
    rw [← requested]
    exact if_pos wired
  refine .inl ⟨⟨requested, opened⟩, target, rfl, ?_, .inl ⟨rfl, ?_⟩, rfl, ?_⟩
  · show ∀ payload ∈ (host.requestUpdate answers arguments).2, payload = t.asks
    rw [sent]
    exact fun payload member => List.mem_singleton.mp member
  · show (host.requestUpdate answers arguments).2 ≠ []
    rw [sent]
    exact List.cons_ne_nil _ _
  · rw [if_neg (Nat.ne_of_lt count_pos)]
    rfl

/-- What an upload without another request can still take. -/
def work (t : Transfer) (l : Line) : Nat :=
  5 * (if l.host.sessionStatus = .notStarted then t.count else t.count - l.host.nextChunkId.toNat) +
    4 * l.toDevice.length + l.toHost.length

private theorem Feeds.work {j : Nat} {l : Line} (feeds : t.Feeds j l.host) :
    t.work l = 5 * (t.count - j) + 4 * l.toDevice.length + l.toHost.length := by
  unfold Transfer.work
  rw [if_neg fun asked => absurd (asked ▸ feeds.going) (by decide), feeds.next,
    UInt16.toNat_ofNat_of_lt' (Nat.lt_of_le_of_lt feeds.inside count_lt)]

/-- The device says at most three messages for one. -/
private theorem Asking.busy {l : Line} (asking : t.Asking l) {action : LineAction}
    (willing : action.Willing) (busy : l.Busy action) : t.work (l.step action).1 < t.work l := by
  obtain ⟨host, device, toDevice, toHost, effects⟩ := l
  obtain ⟨serves, target, asked, only, answered, -⟩ := asking
  dsimp only at serves target asked only answered
  have before : t.work ⟨host, device, toDevice, toHost, effects⟩ =
      5 * t.count + 4 * toDevice.length + toHost.length := by
    unfold work
    rw [if_pos asked]
  rw [before]
  cases action with
  | repeatRequest answers => exact busy.elim
  | sendNext answers =>
    refine absurd ?_ busy
    show (if host.sessionStatus = .ready ∨ host.sessionStatus = .inProgress then _
      else _ : Line).toDevice = _
    rw [if_neg (by rw [asked]; decide)]
  | deliverToDevice answers =>
    cases toDevice with
    | nil => exact absurd rfl busy
    | cons payload rest =>
      obtain rfl := only payload (List.mem_cons_self ..)
      obtain ⟨-, -, -, said, sent, -, short⟩ := step_asks target willing.ready
      show 5 * (if host.sessionStatus = .notStarted then _ else _) + 4 * rest.length +
        (toHost ++ _).length < _
      rw [if_pos asked, sent, List.length_append, List.length_cons, List.length_cons]
      omega
  | deliverToHost answers =>
    obtain ⟨rfl, -⟩ | ⟨-, rest, rfl, -⟩ := answered
    · exact absurd rfl busy
    · obtain ⟨feeds, -, silent⟩ := serves.starts asked answers
      rw [Feeds.work (j := 0) feeds]
      show 5 * (t.count - 0) + 4 * (toDevice ++ _).length + rest.length < _
      rw [silent, List.append_nil, List.length_cons]
      omega

private theorem Sending.busy {j k : Nat} {l : Line} (sending : t.Sending j k l) {action : LineAction}
    (willing : action.Willing) (busy : l.Busy action) : t.work (l.step action).1 < t.work l := by
  obtain ⟨host, device, toDevice, toHost, effects⟩ := l
  obtain ⟨feeds, at', reached, ⟨again, under, fresh⟩, ⟨last, told, final⟩, -⟩ := sending
  dsimp only at feeds at' under told
  have before : t.work ⟨host, device, toDevice, toHost, effects⟩ =
    5 * (t.count - j) + 4 * toDevice.length + toHost.length := Feeds.work (j := j) feeds
  rw [before]
  cases action with
  | repeatRequest answers => exact busy.elim
  | sendNext answers =>
    change (if host.sessionStatus = .ready ∨ host.sessionStatus = .inProgress then
      _ else _ : Line).toDevice ≠ toDevice at busy
    by_cases enabled : host.sessionStatus = .ready ∨ host.sessionStatus = .inProgress
    · obtain ⟨more, fed, -, sent, -⟩ := feeds.sendNext answers
      rw [if_pos enabled] at busy
      have some : more ≠ 0 := by
        rintro rfl
        refine busy ?_
        show toDevice ++ _ = _
        rw [sent, List.range'_zero, List.map_nil, List.append_nil]
      show t.work (if host.sessionStatus = .ready ∨ host.sessionStatus = .inProgress then _ else _) < _
      rw [if_pos enabled, Feeds.work (j := j + more) fed]
      show 5 * (t.count - (j + more)) + 4 * (toDevice ++ (host.sendNextChunk answers).2).length +
        toHost.length < _
      rw [sent, List.length_append, List.length_map, List.length_range']
      have inside := fed.inside
      omega
    · rw [if_neg enabled] at busy
      exact absurd rfl busy
  | deliverToDevice answers =>
    cases toDevice with
    | nil => exact absurd rfl busy
    | cons payload rest =>
      have short : ((device.step (answers, payload)).2.filterMap Effect.sent?).length ≤ 3 := by
        cases again with
        | succ again =>
          obtain ⟨rfl, -⟩ := List.cons.inj under
          obtain ⟨-, -, -, said, sent, -, short⟩ := step_asks at'.target willing.ready
          rw [sent, List.length_cons]
          omega
        | zero =>
          obtain same | less := Nat.eq_or_lt_of_le reached
          · subst same
            rw [Nat.sub_self] at under
            cases under
          · rw [show j - k = (j - (k + 1)) + 1 by omega, List.range'_succ] at under
            obtain ⟨rfl, -⟩ := List.cons.inj under
            obtain ⟨-, -, -, tells⟩ :=
              step_sends at' (Nat.lt_of_lt_of_le less feeds.inside) willing
            exact (tells last).choose_spec.2.2
      have after : t.work (Line.step ⟨host, device, payload :: rest, toHost, effects⟩
          (.deliverToDevice answers)).1 = _ := Feeds.work (j := j) feeds
      rw [after]
      show 5 * (t.count - j) + 4 * rest.length +
        (toHost ++ (device.step (answers, payload)).2.filterMap Effect.sent?).length < _
      rw [List.length_append, List.length_cons]
      omega
  | deliverToHost answers =>
    cases told with
    | nil => exact absurd rfl busy
    | cons first later =>
      obtain ⟨fed, -, silent⟩ := feeds.hears first answers
      rename_i payload rest
      have after : t.work (Line.step ⟨host, device, toDevice, payload :: rest, effects⟩
          (.deliverToHost answers)).1 = _ := Feeds.work (j := j) fed
      rw [after]
      show _ + 4 * (toDevice ++ _).length + rest.length < _
      rw [silent, List.append_nil, List.length_cons]
      exact Nat.lt_succ_self _

/-- Nothing is left to do only when all is done. -/
theorem quiet_finished {l : Line} (runs : t.Runs l) (quiet : l.Quiet) : t.Finished l := by
  obtain ⟨host, device, toDevice, toHost, effects⟩ := l
  obtain rfl : toDevice = [] := not_not.mp (quiet (.deliverToDevice .granting))
  obtain rfl : toHost = [] :=
    not_not.mp (quiet (.deliverToHost { currentTimeMs := 0, rand := 0, writeToWire := true }))
  have silent := quiet (.sendNext { currentTimeMs := 0, rand := 0, writeToWire := true })
  obtain asking | ⟨j, k, feeds, at', reached, ⟨again, under, -⟩, ⟨last, told, final⟩, did⟩ := runs
  · obtain ⟨-, waits⟩ | ⟨-, rest, answered, -⟩ := asking.answered
    · exact absurd rfl waits
    · cases answered
  · dsimp only at feeds at' under told did
    obtain ⟨-, none⟩ := List.append_eq_nil_iff.mp under.symm
    have same : j = k := by
      have length := congrArg List.length none
      rw [List.length_map, List.length_range', List.length_nil] at length
      omega
    subst same
    cases told
    have whole : j = t.count := by
      by_contra missing
      have missing := Nat.lt_of_le_of_ne feeds.inside missing
      unfold Last at final
      rw [if_neg (Nat.ne_of_lt missing)] at final
      obtain ⟨more, -, -, sent, some⟩ :=
        feeds.sendNext { currentTimeMs := 0, rand := 0, writeToWire := true }
      have waits := not_not.mp silent
      change (if host.sessionStatus = .ready ∨ host.sessionStatus = .inProgress then
        _ else _ : Line).toDevice = [] at waits
      rw [if_pos (final.imp id And.right)] at waits
      change [] ++ _ = [] at waits
      rw [sent, List.nil_append, List.map_eq_nil_iff, List.range'_eq_nil_iff] at waits
      exact some rfl missing waits
    have finished := did.finished
    have status := at'.status
    unfold Last at final
    rw [if_pos whole] at finished status final
    have written := did.written
    rw [whole] at written
    refine ⟨written, ?_, finished, status, final⟩
    show (writesOf effects).flatMap _ = _
    rw [written, List.flatMap_map]
    exact pieces_image

private theorem runs_busy {l : Line} (runs : t.Runs l) {action : LineAction}
    (willing : action.Willing) (busy : l.Busy action) : t.work (l.step action).1 < t.work l := by
  obtain asking | ⟨j, k, sending⟩ := runs
  · exact asking.busy willing busy
  · exact sending.busy willing busy

/-- In every run of an upload over a line that keeps the order and loses nothing, the device writes
parts of the image in order, each once. Without another request something is left to do only so often,
and when nothing is, the upload has finished. -/
theorem upload_completes (t : Transfer) (host : Host) (device : Device) (answers : HostAnswers)
    (arguments : RequestArguments) (wired : answers.writeToWire = true)
    (opened : host.image = t.image) (target : device.sessionTarget = t.target)
    (requested : (host.requestUpdate answers arguments).1.request = t.asks)
    (actions : List LineAction) (willing : ∀ action ∈ actions, action.Willing) :
    (∃ k ≤ t.count, t.Did k
        (run Line.step (Line.start host device answers arguments) actions).1.effects) ∧
      (∀ more, (∀ action ∈ more, action.Willing) →
        Along Line.step Line.Busy
          (run Line.step (Line.start host device answers arguments) actions).1 more →
        more.length ≤ t.work (run Line.step (Line.start host device answers arguments) actions).1) ∧
      ((run Line.step (Line.start host device answers arguments) actions).1.Quiet →
        t.Finished (run Line.step (Line.start host device answers arguments) actions).1) := by
  have runs := @run_invariant _ _ _ Line.step (fun _ action => action.Willing) t.Runs
    (fun _ _ runs willing => runs_step runs willing) _ _
    (start_runs wired opened target requested) (Along.of_forall willing)
  refine ⟨?_, fun more agreed busy => ?_, quiet_finished runs⟩
  · obtain asking | ⟨j, k, sending⟩ := runs
    · exact ⟨0, Nat.zero_le _, asking.did⟩
    · exact ⟨k, Nat.le_trans sending.reached sending.feeds.inside, sending.did⟩
  · exact Along.length_le
      (fun _ _ runs now => ⟨runs_step runs now.1, runs_busy runs now.1 now.2⟩) runs
      ((Along.of_forall agreed).and busy)

/-- Three bytes in chunks of two. -/
def small : Transfer :=
  { image := [1, 2, 3]
    request :=
      { sessionId := 7, imageSlot := 0, imageFlags := 0, fileSize := 3, chunkSize := 2
        progressRate := 250, md5Hash := Md5.Standard.md5 [1, 2, 3] }
    target := 0x10
    filled := by decide
    positive := by decide
    countable := countable_of_small (by decide) (by decide) (by decide) (by decide)
    size := rfl
    hash := rfl }

/-- They are requested, and the device has been asked. -/
def smallLine : Line :=
  (run Line.step (Line.start { Host.create with image := [1, 2, 3] } (Device.create 0x10)
    { currentTimeMs := 0, rand := 7, writeToWire := true }
    { target := 0x10, imageSlot := 0, imageFlags := 0, chunkSize := 2, imageSize := 3
      imageMd5 := Md5.Standard.md5 [1, 2, 3], progressRate := 250 })
    [.deliverToDevice .granting]).1

theorem upload_completes_small : (∃ k ≤ small.count, small.Did k smallLine.effects) ∧
    (∀ more, (∀ action ∈ more, action.Willing) → Along Line.step Line.Busy smallLine more →
      more.length ≤ small.work smallLine) ∧
    (smallLine.Quiet → small.Finished smallLine) :=
  upload_completes small { Host.create with image := [1, 2, 3] } (Device.create 0x10) _ _ rfl rfl rfl
    rfl _ fun _ member => by
      obtain rfl := List.mem_singleton.mp member
      exact ⟨rfl, by decide, rfl⟩

end Transfer

end InertialSense.FirmwareUpdate
