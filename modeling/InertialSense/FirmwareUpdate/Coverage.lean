import InertialSense.FirmwareUpdate.Host
import InertialSense.FirmwareUpdate.Transition
import InertialSense.Foundation.Rounding

/-! Whether the chunks of a session cover its image: the number of chunks that a device counts in
single precision, and what the host sends for it. -/

namespace InertialSense.FirmwareUpdate

open Foundation
open Foundation.Binary32 (QuotientAtMost)

/-- The number of chunks that the image takes. -/
def UpdateRequest.neededChunks (request : UpdateRequest) : Nat :=
  (request.fileSize.toNat + request.chunkSize.toNat - 1) / request.chunkSize.toNat

/-- The host in the session of a request, once it was told the number of chunks, at one of them. -/
def Host.atChunk (h : Host) (request : UpdateRequest) (totlChunks : UInt16) (id : Nat) : Host :=
  { h with
    sessionId := request.sessionId
    sessionImageSize := request.fileSize
    sessionChunkSize := request.chunkSize
    sessionTotalChunks := totlChunks
    nextChunkId := UInt16.ofNat id }

def Payload.chunkData (payload : Payload) : List UInt8 :=
  match payload.message with
  | .updateChunk chunk => chunk.data
  | _ => []

/-- The device reports the number of chunks that the image takes. For the chunks with the ids
below it the host has the sizes that the device requires, which add up to the image size, and
what it sends is the image. -/
structure Covers (d : Device) (h : Host) (answers : Answers) (request : UpdateRequest) : Prop where
  reported : .toHost (.updateResp request.sessionId
      (UInt16.ofNat request.neededChunks) answers.startUpdate) ∈
    (d.step (answers, ⟨d.sessionTarget, .reqUpdate request⟩)).2
  count : (d.step (answers, ⟨d.sessionTarget, .reqUpdate request⟩)).1.sessionTotalChunks.toNat =
    request.neededChunks
  required : ∀ id < request.neededChunks,
    (h.atChunk request (UInt16.ofNat request.neededChunks) id).nextDataLen =
      (d.step (answers, ⟨d.sessionTarget, .reqUpdate request⟩)).1.expectedSize (UInt16.ofNat id)
  sum : ((List.range request.neededChunks).map fun id =>
      (h.atChunk request (UInt16.ofNat request.neededChunks) id).nextDataLen.toNat).sum =
    request.fileSize.toNat
  whole : h.image.length = request.fileSize.toNat →
    ∀ hostAnswers : HostAnswers, hostAnswers.writeToWire = true →
      ((List.range request.neededChunks).flatMap fun id =>
        ((h.atChunk request (UInt16.ofNat request.neededChunks) id).sendNextChunk
          hostAnswers).2.flatMap Payload.chunkData) = h.image

/-- The image takes at most 65535 chunks, and in single precision its size divided by that of a
chunk is at most their number and more than the number before. -/
structure UpdateRequest.Countable (request : UpdateRequest) : Prop where
  few : request.neededChunks < 2 ^ 16
  atMost : QuotientAtMost request.fileSize.toNat request.chunkSize.toNat request.neededChunks
  moreThan : request.neededChunks = 1 ∨
    ¬QuotientAtMost request.fileSize.toNat request.chunkSize.toNat (request.neededChunks - 1)

section Sizes

variable {image chunk : Nat}

/-- One chunk more than the whole ones before it: the rest of the image, or a whole one. -/
private theorem needed_eq (some : 0 < image) (positive : 0 < chunk) :
    ∃ before last, (image + chunk - 1) / chunk = before + 1 ∧ image = before * chunk + last ∧
      last = (if image % chunk ≠ 0 then image % chunk else chunk) := by
  have parts := Nat.div_add_mod image chunk
  split
  case isTrue rest =>
    refine ⟨image / chunk, image % chunk, ?_, by rw [Nat.mul_comm]; exact parts.symm, rfl⟩
    have small := Nat.mod_lt image positive
    have sum : image + chunk - 1 = image % chunk - 1 + chunk * (image / chunk + 1) := by
      rw [Nat.mul_succ]
      omega
    rw [sum, Nat.add_mul_div_left _ _ positive, Nat.div_eq_of_lt (by omega), Nat.zero_add]
  case isFalse whole =>
    have divides : image % chunk = 0 := not_not.mp whole
    obtain ⟨before, size⟩ : ∃ before, image / chunk = before + 1 :=
      Nat.exists_eq_succ_of_ne_zero fun none => by
        rw [none, divides] at parts
        omega
    refine ⟨before, chunk, ?_, ?_, rfl⟩
    · have sum : image + chunk - 1 = chunk - 1 + chunk * (image / chunk) := by omega
      rw [sum, Nat.add_mul_div_left _ _ positive, Nat.div_eq_of_lt (by omega), Nat.zero_add, size]
    · rw [size, Nat.mul_succ] at parts
      rw [Nat.mul_comm]
      omega

theorem flatMap_pieces {α : Type*} (bytes : List α) (size count : Nat) :
    ((List.range count).flatMap fun k => (bytes.drop (k * size)).take size) =
      bytes.take (count * size) := by
  induction count with
  | zero => rw [Nat.zero_mul]; rfl
  | succ count ih =>
    rw [List.range_succ, List.flatMap_append, ih, List.flatMap_singleton, Nat.succ_mul,
      List.take_add]

end Sizes

section Session

variable {h : Host} {request : UpdateRequest} {id : Nat}

theorem UpdateRequest.needed (some : 0 < request.fileSize.toNat)
    (positive : 0 < request.chunkSize.toNat) :
    ∃ before last, request.neededChunks = before + 1 ∧
      request.fileSize.toNat = before * request.chunkSize.toNat + last ∧
      last = (if request.fileSize.toNat % request.chunkSize.toNat ≠ 0 then
        request.fileSize.toNat % request.chunkSize.toNat else request.chunkSize.toNat) :=
  needed_eq some positive

/-- The size of a chunk, of those that the image takes. -/
theorem nextDataLen_atChunk (positive : 0 < request.chunkSize.toNat)
    (few : request.neededChunks < 2 ^ 16) (inside : id < request.neededChunks) :
    ((h.atChunk request (UInt16.ofNat request.neededChunks) id).nextDataLen).toNat =
      if id + 1 = request.neededChunks ∧ request.fileSize.toNat % request.chunkSize.toNat ≠ 0 then
        request.fileSize.toNat % request.chunkSize.toNat
      else request.chunkSize.toNat := by
  have rest := Nat.mod_lt request.fileSize.toNat positive
  have wide := request.chunkSize.toNat_lt
  have small : id < 2 ^ 16 := Nat.lt_trans inside few
  unfold Host.nextDataLen Host.atChunk
  dsimp only
  rw [UInt16.toNat_ofNat_of_lt' small, UInt16.toNat_ofNat_of_lt' few]
  have last : (id : Int) = (request.neededChunks : Int) - 1 ↔ id + 1 = request.neededChunks := by
    omega
  simp only [last]
  split
  · exact UInt16.toNat_ofNat_of_lt' (Nat.lt_trans rest wide)
  · rfl

/-- The device requires what the host sends. -/
theorem expectedSize_atChunk {s : Session} {totlChunks : UInt16}
    (positive : 0 < request.chunkSize.toNat) (image : s.sessionImageSize = request.fileSize)
    (chunk : s.sessionChunkSize = request.chunkSize) (total : s.sessionTotalChunks = totlChunks) :
    (h.atChunk request totlChunks id).nextDataLen = s.expectedSize (UInt16.ofNat id) := by
  have small : request.fileSize.toNat % request.chunkSize.toNat < 2 ^ 16 :=
    Nat.lt_trans (Nat.mod_lt _ positive) request.chunkSize.toNat_lt
  have rest : UInt16.ofNat (request.fileSize.toNat % request.chunkSize.toNat) ≠ 0 ↔
      request.fileSize.toNat % request.chunkSize.toNat ≠ 0 := by
    rw [ne_eq, ← UInt16.toNat_inj, UInt16.toNat_ofNat_of_lt' small]
    exact Iff.rfl
  unfold Host.nextDataLen Session.expectedSize
  rw [image, chunk, total]
  dsimp only
  simp only [rest]
  rfl

private theorem nextDataLen_before (positive : 0 < request.chunkSize.toNat)
    (few : request.neededChunks < 2 ^ 16) (before : id + 1 < request.neededChunks) :
    ((h.atChunk request (UInt16.ofNat request.neededChunks) id).nextDataLen).toNat =
      request.chunkSize.toNat := by
  rw [nextDataLen_atChunk positive few (Nat.lt_of_succ_lt before)]
  exact if_neg fun last => absurd last.1 (Nat.ne_of_lt before)

private theorem sizes_sum (positive : 0 < request.chunkSize.toNat)
    (few : request.neededChunks < 2 ^ 16) {count : Nat} (before : count < request.neededChunks) :
    ((List.range count).map fun id =>
      (h.atChunk request (UInt16.ofNat request.neededChunks) id).nextDataLen.toNat).sum =
        count * request.chunkSize.toNat := by
  induction count with
  | zero => exact (Nat.zero_mul _).symm
  | succ count ih =>
    rw [List.range_succ, List.map_append, List.sum_append, ih (Nat.lt_of_succ_lt before),
      List.map_singleton, List.sum_singleton, nextDataLen_before positive few before, Nat.succ_mul]

private theorem sendNextChunk_data {hostAnswers : HostAnswers}
    (wired : hostAnswers.writeToWire = true) (missing : h.nextChunkId < h.sessionTotalChunks)
    (full : h.nextChunkId.toNat * h.sessionChunkSize.toNat + h.nextDataLen.toNat ≤ h.image.length) :
    (h.sendNextChunk hostAnswers).2.flatMap Payload.chunkData =
      (h.image.drop (h.nextChunkId.toNat * h.sessionChunkSize.toNat)).take h.nextDataLen.toNat := by
  have length : (h.getImageChunk (h.nextChunkId.toNat * h.sessionChunkSize.toNat)
      h.nextDataLen.toNat).length = h.nextDataLen.toNat := by
    unfold Host.getImageChunk
    rw [List.length_take, List.length_drop]
    omega
  unfold Host.sendNextChunk
  rw [if_neg (UInt16.not_le.mpr missing)]
  dsimp only
  rw [dif_pos length]
  dsimp only
  unfold Host.transmit
  rw [if_pos wired, List.flatMap_singleton]
  rfl

private theorem sent_atChunk {hostAnswers : HostAnswers} (wired : hostAnswers.writeToWire = true)
    (few : request.neededChunks < 2 ^ 16) (inside : id < request.neededChunks) {size : Nat}
    (sized : (h.atChunk request (UInt16.ofNat request.neededChunks) id).nextDataLen.toNat = size)
    (full : id * request.chunkSize.toNat + size ≤ h.image.length) :
    ((h.atChunk request (UInt16.ofNat request.neededChunks) id).sendNextChunk
        hostAnswers).2.flatMap Payload.chunkData =
      (h.image.drop (id * request.chunkSize.toNat)).take size := by
  subst sized
  have next : (UInt16.ofNat id).toNat = id := UInt16.toNat_ofNat_of_lt' (Nat.lt_trans inside few)
  have missing : UInt16.ofNat id < UInt16.ofNat request.neededChunks := by
    rw [UInt16.lt_iff_toNat_lt, next, UInt16.toNat_ofNat_of_lt' few]
    exact inside
  have data := @sendNextChunk_data (h.atChunk request (UInt16.ofNat request.neededChunks) id) _ wired
    missing
  have place : (h.atChunk request (UInt16.ofNat request.neededChunks) id).nextChunkId.toNat *
      (h.atChunk request (UInt16.ofNat request.neededChunks) id).sessionChunkSize.toNat =
        id * request.chunkSize.toNat := congrArg (· * request.chunkSize.toNat) next
  rw [place] at data
  exact data full

/-- The chunks of the right number cover the image. -/
private theorem pieces_cover (some : 0 < request.fileSize.toNat)
    (positive : 0 < request.chunkSize.toNat) (few : request.neededChunks < 2 ^ 16) :
    ((List.range request.neededChunks).map fun id =>
        (h.atChunk request (UInt16.ofNat request.neededChunks) id).nextDataLen.toNat).sum =
      request.fileSize.toNat ∧
    (h.image.length = request.fileSize.toNat →
      ∀ hostAnswers : HostAnswers, hostAnswers.writeToWire = true →
        ((List.range request.neededChunks).flatMap fun id =>
          ((h.atChunk request (UInt16.ofNat request.neededChunks) id).sendNextChunk
            hostAnswers).2.flatMap Payload.chunkData) = h.image) := by
  obtain ⟨before, last, needed, size, lastSize⟩ := request.needed some positive
  have inside : before < request.neededChunks := needed ▸ Nat.lt_succ_self before
  have lastLen : (h.atChunk request (UInt16.ofNat request.neededChunks) before).nextDataLen.toNat =
      last := by
    rw [nextDataLen_atChunk positive few inside, lastSize]
    simp only [needed, true_and]
  have range : List.range request.neededChunks = List.range before ++ [before] := by
    rw [needed, List.range_succ]
  refine ⟨?_, fun length hostAnswers wired => ?_⟩
  · rw [range, List.map_append, List.sum_append, sizes_sum positive few inside, List.map_singleton,
      List.sum_singleton, lastLen, size]
  · have pieces : ∀ id ∈ List.range before,
        ((h.atChunk request (UInt16.ofNat request.neededChunks) id).sendNextChunk
          hostAnswers).2.flatMap Payload.chunkData =
            (h.image.drop (id * request.chunkSize.toNat)).take request.chunkSize.toNat := by
      intro id member
      have early : id < before := List.mem_range.mp member
      have reach := Nat.mul_le_mul_right request.chunkSize.toNat (Nat.succ_le_of_lt early)
      rw [Nat.succ_mul] at reach
      exact sent_atChunk wired few (Nat.lt_trans early inside)
        (nextDataLen_before positive few (by omega)) (by omega)
    rw [range, List.flatMap_append, List.flatMap_congr pieces, flatMap_pieces, List.flatMap_singleton,
      sent_atChunk wired few inside lastLen (by omega), ← List.take_add]
    exact List.take_of_length_le (by omega)

end Session

section Count

variable {d : Device} {h : Host} {request : UpdateRequest} {answers : Answers}

/-- The conversion to 16 bits gives a number, whatever it gives out of range, just if that is the
rounded quotient and fits. -/
theorem totalChunks_eq_iff {imageSize : UInt32} {chunkSize : UInt16} {count : Nat}
    (positive : chunkSize ≠ 0) :
    (∀ outOfRange, (Session.totalChunks imageSize chunkSize outOfRange).toNat = count) ↔
      count < 2 ^ 16 ∧
        ((Binary32.ofNat imageSize.toNat).div (Binary32.ofNat chunkSize.toNat)).ceil = count := by
  have counted (outOfRange : UInt16) : Session.totalChunks imageSize chunkSize outOfRange = _ :=
    if_neg positive
  simp only [counted]
  split
  case isTrue fits =>
    rw [UInt16.toNat_ofNat_of_lt' fits]
    exact ⟨fun same => ⟨same 0 ▸ fits, same 0⟩, fun same _ => same.2⟩
  case isFalse exceeds =>
    refine iff_of_false (fun same => ?_) fun same => exceeds (same.2 ▸ same.1)
    have zero := same 0
    have one := same 1
    rw [← zero] at one
    cases one

theorem countable_iff (some : 0 < request.fileSize.toNat)
    (positive : 0 < request.chunkSize.toNat) : request.Countable ↔
      request.neededChunks < 2 ^ 16 ∧
        ((Binary32.ofNat request.fileSize.toNat).div
          (Binary32.ofNat request.chunkSize.toNat)).ceil = request.neededChunks := by
  obtain ⟨before, last, needed, -⟩ := request.needed some positive
  have least := Binary32.ceil_div_pos some positive
  have bound (count : Nat) (above : 0 < count) (few : count < 2 ^ 16) :=
    Binary32.ceil_div_le_iff some positive above (Nat.lt_trans few (by decide))
  constructor
  · rintro ⟨few, atMost, moreThan⟩
    refine ⟨few, Nat.le_antisymm ((bound _ (by omega) few).mpr atMost) ?_⟩
    rcases moreThan with one | moreThan
    · omega
    · rcases Nat.eq_zero_or_pos before with none | below
      · omega
      · rw [← bound _ (by omega) (by omega)] at moreThan
        omega
  · rintro ⟨few, same⟩
    refine ⟨few, (bound _ (by omega) few).mp (Nat.le_of_eq same), ?_⟩
    rcases Nat.eq_zero_or_pos before with none | below
    · exact .inl (by omega)
    · right
      rw [← bound _ (by omega) (by omega)]
      omega

/-- Below 16 MiB, it is enough that the image does not take too many chunks. -/
theorem countable_of_small (some : 1 ≤ request.fileSize.toNat)
    (positive : 1 ≤ request.chunkSize.toNat) (small : request.fileSize.toNat < 2 ^ 24)
    (few : request.neededChunks < 2 ^ 16) : request.Countable := by
  obtain ⟨before, last, needed, size, lastSize⟩ := request.needed some positive
  have lastBounds : 1 ≤ last ∧ last ≤ request.chunkSize.toNat := by
    have rest := Nat.mod_lt request.fileSize.toNat positive
    rw [lastSize]
    split <;> omega
  have exact := Binary32.significant_of_small small
  have exact' := Binary32.significant_of_small
    (Nat.lt_trans request.chunkSize.toNat_lt (show 2 ^ 16 < 2 ^ 24 by decide))
  refine ⟨few, ?_, ?_⟩
  · unfold QuotientAtMost
    rw [exact, exact', needed]
    have fits : request.fileSize.toNat ≤ request.chunkSize.toNat * (before + 1) := by
      rw [Nat.mul_succ, Nat.mul_comm]
      omega
    have scaled := Nat.mul_le_mul_right (2 ^ (24 - (before + 1).log2)) fits
    rw [Nat.mul_add, ← Nat.mul_assoc]
    exact Nat.le_add_right_of_le scaled
  · rcases Nat.eq_zero_or_pos before with none | below
    · exact .inl (by omega)
    right
    unfold QuotientAtMost
    rw [exact, exact', needed, Nat.add_sub_cancel]
    have power : 2 ^ before.log2 ≤ before := Nat.log2_self_le (Nat.ne_of_gt below)
    have few' : before.log2 < 24 := (Nat.log2_lt (Nat.ne_of_gt below)).mpr (by omega)
    -- a byte more is more than half of the distance to the next value
    have wide : request.chunkSize.toNat < 2 ^ (24 - before.log2) := by
      apply Nat.lt_of_mul_lt_mul_right
      calc request.chunkSize.toNat * 2 ^ before.log2
          ≤ before * request.chunkSize.toNat := by
            rw [Nat.mul_comm]
            exact Nat.mul_le_mul_right _ power
        _ < 2 ^ 24 := by omega
        _ = 2 ^ (24 - before.log2) * 2 ^ before.log2 := by
            rw [← Nat.pow_add, Nat.sub_add_cancel (Nat.le_of_lt few')]
    rw [size]
    nlinarith

private theorem granted_count (granted : UpdateStatus.value .notStarted < answers.startUpdate.value) :
    (d.step (answers, ⟨d.sessionTarget, .reqUpdate request⟩)).1.sessionTotalChunks =
      Session.totalChunks request.fileSize request.chunkSize answers.outOfRange := by
  have opened := d.processMessage_requested answers request
  have count := congrArg Session.sessionTotalChunks opened
  refine count.trans ?_
  unfold Session.startSession
  dsimp only
  rw [if_pos granted]

private theorem granted_response (d : Device) (answers : Answers) (request : UpdateRequest) :
    .toHost (.updateResp request.sessionId
        (d.step (answers, ⟨d.sessionTarget, .reqUpdate request⟩)).1.sessionTotalChunks
        answers.startUpdate) ∈
      (d.step (answers, ⟨d.sessionTarget, .reqUpdate request⟩)).2 := by
  obtain ⟨-, status, sessionId, -⟩ := d.toSession.startSession_fields answers request
  obtain ⟨session, notable⟩ :=
    (d.processMessage_transition answers ⟨d.sessionTarget, .reqUpdate request⟩).of_request
  have sent := List.mem_of_mem_filter (notable ▸ List.mem_singleton.mpr rfl)
  rw [session, status, sessionId, ← session] at sent
  exact sent

/-- Exactly when the chunks that a device counts cover the image. -/
theorem chunks_cover_iff (some : 1 ≤ request.fileSize.toNat) (positive : 1 ≤ request.chunkSize.toNat) :
    (∀ answers : Answers, UpdateStatus.value .notStarted < answers.startUpdate.value →
      Covers d h answers request) ↔ request.Countable := by
  have nonzero : request.chunkSize ≠ 0 := by
    intro zero
    rw [zero] at positive
    cases positive
  rw [countable_iff some positive, ← totalChunks_eq_iff nonzero]
  constructor
  · intro covers outOfRange
    have granted : UpdateStatus.value .notStarted < UpdateStatus.value .ready := by decide
    have count := (covers { Answers.granting with outOfRange } granted).count
    rw [granted_count granted] at count
    exact count
  · intro counts answers granted
    have total := @granted_count d request answers granted
    have count : (Session.totalChunks request.fileSize request.chunkSize answers.outOfRange).toNat =
        request.neededChunks := counts answers.outOfRange
    have few : request.neededChunks < 2 ^ 16 := count ▸ UInt16.toNat_lt _
    have total' : (d.step (answers, ⟨d.sessionTarget, .reqUpdate request⟩)).1.sessionTotalChunks =
        UInt16.ofNat request.neededChunks := by
      rw [total, ← count, UInt16.ofNat_toNat]
    obtain ⟨sum, whole⟩ := @pieces_cover h request some positive few
    have session := d.processMessage_requested answers request
    obtain ⟨-, -, -, chunkSize, imageSize, -⟩ := d.toSession.startSession_fields answers request
    refine ⟨total' ▸ granted_response d answers request, total ▸ count, fun id _ => ?_, sum, whole⟩
    exact expectedSize_atChunk positive ((congrArg Session.sessionImageSize session).trans imageSize)
      ((congrArg Session.sessionChunkSize session).trans chunkSize) total'

end Count

def imageRequest (fileSize : UInt32) (chunkSize : UInt16) : UpdateRequest :=
  { sessionId := 1, imageSlot := 0, imageFlags := 0, fileSize, chunkSize, progressRate := 0,
    md5Hash := Md5.initialState }

theorem chunks_cover_iff_three : (imageRequest 5 2).neededChunks = 3 ∧
    ∀ answers : Answers, UpdateStatus.value .notStarted < answers.startUpdate.value →
      Covers (Device.create 0x10) Host.create answers (imageRequest 5 2) :=
  ⟨by decide, (chunks_cover_iff (by decide) (by decide)).mpr
    ⟨by decide, by decide, .inr (by decide)⟩⟩

/-- One byte more than 16 MiB is rounded off, and with it the last chunk. -/
theorem last_chunk_rounded_off : (imageRequest 0x1000001 4096).neededChunks = 4097 ∧
    ¬Covers (Device.create 0x10) Host.create .granting (imageRequest 0x1000001 4096) := by
  refine ⟨by decide, fun covers => ?_⟩
  have count := covers.count
  rw [granted_count (by decide)] at count
  revert count
  decide +kernel

end InertialSense.FirmwareUpdate
