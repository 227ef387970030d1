import InertialSense.FirmwareUpdate.Channel
import InertialSense.Md5.Streaming
import Mathlib.Algebra.Order.BigOperators.Group.List
import Mathlib.Algebra.Group.Action.Defs

/-! What reaches the image over an unreliable channel: every write of the device is the
piece of the host's image that belongs there, and the update is finished only on the hash
of what was accepted, provided no chunk is taken after the last one. -/

namespace InertialSense.FirmwareUpdate

open Foundation

/-- A message to the device belongs to an offer: a request has its chunk size, a chunk is
a piece of its image. -/
def Backed (offers : UInt16 → Option Offer) (payload : Payload) : Prop :=
  match payload.message with
  | .reqUpdate request =>
    ∃ offer, offers request.sessionId = some offer ∧ request.chunkSize = offer.chunkSize
  | .updateChunk chunk =>
    ∃ offer, offers chunk.sessionId = some offer ∧
      chunk.data = (offer.image.drop (chunk.chunkId.toNat * offer.chunkSize.toNat)).take
        chunk.data.length
  | _ => True

/-- The parties and the channel agree on the offers. -/
structure System.Consistent (s : System) : Prop where
  zero : s.offers 0 = none
  host : (s.host.sessionId = 0 ∧ s.host.sessionTotalChunks = 0) ∨
    s.offers s.host.sessionId = some ⟨s.host.image, s.host.sessionChunkSize⟩
  sent : ∀ payload ∈ s.toDevice, Backed s.offers payload
  answered : ∀ payload ∈ s.toHost, ∀ sessionId totlChunks status,
    payload.message = .updateResp sessionId totlChunks status → sessionId ≠ 0
  device : s.device.sessionId = 0 ∨
    ∃ offer, s.offers s.device.sessionId = some offer ∧
      s.device.sessionChunkSize = offer.chunkSize

private theorem Backed.mono {offers offers' : UInt16 → Option Offer} {payload : Payload}
    (grows : ∀ sessionId offer, offers sessionId = some offer → offers' sessionId = some offer)
    (backed : Backed offers payload) : Backed offers' payload := by
  unfold Backed at backed ⊢
  split at backed
  · obtain ⟨offer, found, size⟩ := backed
    exact ⟨offer, grows _ _ found, size⟩
  · obtain ⟨offer, found, data⟩ := backed
    exact ⟨offer, grows _ _ found, data⟩
  · trivial

private theorem Host.Sends.backed {offers : UInt16 → Option Offer} {h : Host} {payload : Payload}
    (offered : offers h.sessionId = some ⟨h.image, h.sessionChunkSize⟩)
    (sends : h.Sends payload) : Backed offers payload := by
  obtain ⟨target, message⟩ := payload
  cases message with
  | reqUpdate request =>
    obtain ⟨id, size⟩ := sends
    exact ⟨_, id ▸ offered, size⟩
  | updateChunk chunk =>
    obtain ⟨id, data⟩ := sends
    exact ⟨⟨h.image, h.sessionChunkSize⟩, id ▸ offered, data⟩
  | _ => exact sends.elim

private theorem hostActed_continues {s : System} {acted : Host × List Payload}
    (consistent : s.Consistent) (continues : s.host.Continues acted) :
    (s.hostActed acted).Consistent := by
  obtain ⟨zero, host, sent, answered, device⟩ := consistent
  obtain ⟨sessionId, chunkSize, image, sends, silent⟩ := continues
  have offers : (s.hostActed acted).offers = s.offers := by
    funext id
    simp only [System.hostActed, sessionId]
    exact if_neg fun both => both.2 both.1
  refine ⟨by rw [offers, zero], ?_, ?_, answered, by rw [offers]; exact device⟩
  · rw [offers]
    rcases host with ⟨none, total⟩ | offered
    · exact .inl ⟨sessionId.trans none, (silent none total).1⟩
    · refine .inr ?_
      simp only [System.hostActed, sessionId, image, chunkSize, offered]
  · intro payload member
    rw [offers]
    rcases List.mem_append.mp member with earlier | latest
    · exact sent payload earlier
    · rcases host with ⟨none, total⟩ | offered
      · rw [(silent none total).2] at latest
        cases latest
      · exact (sends payload latest).backed offered

private theorem hostActed_starts {s : System} {acted : Host × List Payload} {h : Host}
    {answers : HostAnswers} {chunkSize : UInt16} (consistent : s.Consistent)
    (nonzero : answers.rand ≠ 0) (fresh : s.offers answers.rand = none)
    (starts : h.Starts answers chunkSize acted) : (s.hostActed acted).Consistent := by
  obtain ⟨zero, host, sent, answered, device⟩ := consistent
  obtain ⟨sessionId, _, _, sends⟩ := starts
  have new : answers.rand ≠ s.host.sessionId := by
    intro same
    rcases host with ⟨none, _⟩ | offered
    · exact nonzero (same.trans none)
    · rw [← same, fresh] at offered
      cases offered
  have offered : (s.hostActed acted).offers acted.1.sessionId =
      some ⟨acted.1.image, acted.1.sessionChunkSize⟩ :=
    if_pos ⟨rfl, sessionId ▸ new⟩
  have grows (id : UInt16) (offer : Offer) (found : s.offers id = some offer) :
      (s.hostActed acted).offers id = some offer := by
    have other : id ≠ answers.rand := by
      rintro rfl
      rw [fresh] at found
      cases found
    simp only [System.hostActed, sessionId]
    rw [if_neg fun both => other both.1, found]
  refine ⟨?_, .inr offered, ?_, answered, ?_⟩
  · simp only [System.hostActed, sessionId]
    rw [if_neg fun both => nonzero both.1.symm, zero]
  · intro payload member
    rcases List.mem_append.mp member with earlier | latest
    · exact (sent payload earlier).mono grows
    · exact (sends payload latest).backed offered
  · rcases device with none | ⟨offer, found, size⟩
    · exact .inl none
    · exact .inr ⟨offer, grows _ _ found, size⟩

/-- The session an `MSG_UPDATE_RESP` answers. -/
private def responseId? : Effect → Option UInt16
  | .send { message := .updateResp sessionId _ _, .. } => some sessionId
  | _ => none

private theorem mem_responseId {effects : List Effect} {payload : Payload}
    {sessionId totlChunks : UInt16} {status : UpdateStatus}
    (member : payload ∈ effects.filterMap Effect.sent?)
    (message : payload.message = .updateResp sessionId totlChunks status) :
    sessionId ∈ (effects.filter Effect.notable).filterMap responseId? := by
  obtain ⟨effect, present, sent⟩ := List.mem_filterMap.mp member
  obtain ⟨target, _⟩ := payload
  obtain rfl := message
  cases effect with
  | send other =>
    obtain rfl : other = _ := by simpa [Effect.sent?] using sent
    exact List.mem_filterMap.mpr ⟨_, List.mem_filter.mpr ⟨present, rfl⟩, rfl⟩
  | _ => simp [Effect.sent?] at sent

private theorem verifyImage_responseId (s : Session) (answers : Answers) :
    (s.verifyImage answers).2.filterMap responseId? = [] := by
  unfold Session.verifyImage
  dsimp only
  split <;> split <;> rfl

private theorem deviceActed_consistent {s : System} {answers : Answers} {payload : Payload}
    (consistent : s.Consistent) (sent : payload ∈ s.toDevice) :
    (s.deviceActed (answers, payload)).1.Consistent := by
  have backed := consistent.sent payload sent
  obtain ⟨zero, host, others, answered, device⟩ := consistent
  have moved := s.device.processMessage_transition answers payload
  suffices result :
      (∀ sessionId ∈ ((s.device.processMessage answers payload).effects.filter
        Effect.notable).filterMap responseId?, sessionId ≠ 0) ∧
      ((s.device.processMessage answers payload).device.sessionId = 0 ∨
        ∃ offer, s.offers (s.device.processMessage answers payload).device.sessionId =
          some offer ∧
          (s.device.processMessage answers payload).device.sessionChunkSize =
            offer.chunkSize) by
    refine ⟨zero, host, others, ?_, result.2⟩
    intro answer member sessionId totlChunks status message
    rcases List.mem_append.mp member with earlier | latest
    · exact answered answer earlier sessionId totlChunks status message
    · exact result.1 sessionId (mem_responseId latest message)
  generalize (s.device.processMessage answers payload).effects.filter Effect.notable = notable
    at moved ⊢
  generalize (s.device.processMessage answers payload).device.toSession = after at moved ⊢
  cases moved with
  | kept => exact ⟨by simp, device⟩
  | failed => exact ⟨by simp [responseId?], device⟩
  | stored => exact ⟨by simp [responseId?], device⟩
  | completed chunk =>
    have none := verifyImage_responseId (s.device.toSession.storeChunk chunk) answers
    rw [List.filterMap_cons, none, Session.verifyImage_fields]
    exact ⟨by simp [responseId?], device⟩
  | requested request addressed =>
    subst addressed
    obtain ⟨offer, found, size⟩ := backed
    obtain ⟨_, _, id, chunkSize, _⟩ := s.device.toSession.startSession_fields answers request
    refine ⟨?_, .inr ⟨offer, by rw [id, found], by rw [chunkSize, size]⟩⟩
    rw [id]
    simp only [Effect.toHost, responseId?, List.filterMap_cons, List.filterMap_nil,
      List.mem_singleton, forall_eq]
    rintro none
    rw [none, zero] at found
    cases found

theorem step_consistent (s : System) (action : Action) (consistent : s.Consistent)
    (fresh : s.Fresh action) : (s.step action).1.Consistent := by
  cases action with
  | request image arguments answers =>
    exact hostActed_starts consistent fresh.1 fresh.2.1 (Host.requestUpdate_starts ..)
  | repeatRequest answers =>
    exact hostActed_continues consistent (Host.repeatRequest_continues ..)
  | sendNext answers => exact hostActed_continues consistent (Host.sendNextChunk_continues ..)
  | deliverToHost index answers =>
    unfold System.step
    dsimp only
    split
    · rename_i payload found
      have answered := consistent.answered payload (List.mem_of_getElem? found)
      rcases s.host.processMessage_acts answers payload answered with continues | ⟨again, starts⟩
      · exact hostActed_continues consistent continues
      · have offer := fresh payload found again
        exact hostActed_starts consistent offer.1 offer.2.1 starts
    · exact consistent
  | deliverToDevice index answers =>
    unfold System.step
    dsimp only
    split
    · rename_i payload found
      exact deviceActed_consistent consistent (List.mem_of_getElem? found)
    · exact consistent

/-- The data written is the piece of the image offered for the device's session at the
place where it is written. -/
def WritesOffered (s : System) (effects : List Effect) : Prop :=
  ∀ write ∈ effects.filterMap Effect.write?, UpdateStatus.value .notStarted ≤ write.status.value →
    ∃ offer, s.offers s.device.sessionId = some offer ∧
      write.data = (offer.image.drop write.offset.toNat).take write.data.length

private theorem imageWrite_offered {s : System} {payload : Payload} {chunk : Chunk}
    (consistent : s.Consistent) (sent : payload ∈ s.toDevice)
    (addressed : payload = ⟨s.device.sessionTarget, .updateChunk chunk⟩)
    (awaited : s.device.toSession.Awaits chunk) (status : UpdateStatus) :
    ∃ offer, s.offers s.device.sessionId = some offer ∧
      (s.device.toSession.imageWrite chunk status).data =
        (offer.image.drop (s.device.toSession.imageWrite chunk status).offset.toNat).take
          (s.device.toSession.imageWrite chunk status).data.length := by
  subst addressed
  obtain ⟨offer, found, data⟩ := consistent.sent _ sent
  rw [awaited.1] at found
  have size : s.device.sessionChunkSize = offer.chunkSize := by
    rcases consistent.device with none | ⟨other, own, size⟩
    · rw [none, consistent.zero] at found
      cases found
    · rw [found] at own
      cases own
      exact size
  refine ⟨offer, found, ?_⟩
  simp only [Session.imageWrite, s.device.toSession.chunkOffset_toNat, size]
  exact data

private theorem deviceActed_writes {s : System} {answers : Answers} {payload : Payload}
    (consistent : s.Consistent) (sent : payload ∈ s.toDevice) :
    WritesOffered s (s.deviceActed (answers, payload)).2 := by
  intro write member _
  have moved := s.device.processMessage_transition answers payload
  have seen : write ∈ ((s.device.processMessage answers payload).effects.filter
      Effect.notable).filterMap Effect.write? := by
    rw [← write_notable]
    exact member
  generalize (s.device.processMessage answers payload).effects.filter Effect.notable = notable
    at moved seen
  generalize (s.device.processMessage answers payload).device.toSession = after at moved
  cases moved with
  | kept => cases seen
  | requested => cases seen
  | failed chunk addressed awaited =>
    obtain rfl : write = _ := by simpa [Effect.write?] using seen
    exact imageWrite_offered consistent sent addressed awaited _
  | stored chunk addressed awaited =>
    obtain rfl : write = _ := by simpa [Effect.write?] using seen
    exact imageWrite_offered consistent sent addressed awaited _
  | completed chunk addressed awaited =>
    have none := verifyImage_write (s.device.toSession.storeChunk chunk) answers
    rw [List.filterMap_cons, none] at seen
    obtain rfl : write = _ := by simpa [Effect.write?] using seen
    exact imageWrite_offered consistent sent addressed awaited _

/-- The update is finished only on the hash of the chunks accepted since the last request. -/
def FinishesOnHash (s : System) (action : Action) : Prop :=
  Finishes (s.step action).2 → ∀ scratch,
    Md5.md5Hash scratch ((s.step action).1.accepted.map fun entry => entry.write.data).flatten =
      s.device.sessionMd5

/-- No chunk in sequence reaches a device that has received the whole image. -/
def System.MissingOnly (s : System) : Action → Prop
  | .deliverToDevice index _ => ∀ chunk,
    s.toDevice[index]? = some ⟨s.device.sessionTarget, .updateChunk chunk⟩ →
    s.device.toSession.Awaits chunk → ¬ s.device.toSession.Received
  | _ => True

/-- Until the image has been received, the device is in step with the accepted chunks. -/
def System.Tracked (s : System) : Prop :=
  ¬ s.device.toSession.Received →
    ∃ context, Holds s.device.sessionChunkSize context s.device.toSession s.accepted

private theorem deviceActed_tracked {s : System} {answers : Answers} {payload : Payload}
    (tracked : s.Tracked)
    (missing : ∀ chunk, payload = ⟨s.device.sessionTarget, .updateChunk chunk⟩ →
      s.device.toSession.Awaits chunk → ¬ s.device.toSession.Received) :
    (s.deviceActed (answers, payload)).1.Tracked := by
  by_cases requested : s.device.toSession.Requested payload
  · have none : (s.deviceActed (answers, payload)).1.accepted = [] := if_pos requested
    obtain ⟨request, rfl⟩ := requested
    have holds := startSession_holds s.device answers request
    intro _
    rw [none]
    exact ⟨_, holds.size ▸ holds⟩
  · have more : (s.deviceActed (answers, payload)).1.accepted = s.accepted ++ acceptedChunk
        (answers, payload) (s.device.step (answers, payload)).2 := if_neg requested
    have unrequested (request : UpdateRequest) :
        payload ≠ ⟨s.device.sessionTarget, .reqUpdate request⟩ :=
      fun same => requested ⟨request, same⟩
    by_cases received : s.device.toSession.Received
    · rcases step_accepted s.device (answers, payload) unrequested with ⟨_, same, _⟩ |
          ⟨chunk, addressed, awaited, _⟩
      · intro pending
        have still : (s.device.step (answers, payload)).1.toSession.Received := same ▸ received
        exact absurd still pending
      · exact absurd received (missing chunk addressed awaited)
    · obtain ⟨context, holds⟩ := tracked received
      obtain ⟨next, _, unfinished⟩ := step_holds holds
        (show Receiving s.device (answers, payload) from ⟨received, unrequested⟩)
      intro pending
      rw [← unfinished pending] at next
      rw [more]
      exact ⟨context, next.size ▸ next⟩

theorem step_tracked (s : System) (action : Action) (tracked : s.Tracked)
    (missing : s.MissingOnly action) : (s.step action).1.Tracked := by
  cases action with
  | request => exact tracked
  | repeatRequest => exact tracked
  | sendNext => exact tracked
  | deliverToHost =>
    unfold System.step
    dsimp only
    split <;> exact tracked
  | deliverToDevice index answers =>
    unfold System.step
    dsimp only
    split
    · rename_i payload found
      exact deviceActed_tracked tracked fun chunk addressed => missing chunk (addressed ▸ found)
    · exact tracked

/-- The finished hash of accepted chunks is that of their concatenation. -/
private theorem Holds.md5Final_eq {chunkSize : UInt16} {context : Md5.Context} {s : Session}
    {accepted : List Accepted} (holds : Holds chunkSize context s accepted)
    (bounded : s.lastChunkId < 2 ^ 16) (scratch : Md5.Context) :
    Md5.md5Hash scratch (accepted.map fun entry => entry.write.data).flatten =
      (Md5.md5Final s.md5Context).2 := by
  obtain ⟨_, _, short, ids, _, hash⟩ := holds
  have pieces : ∀ piece ∈ accepted.map fun entry => entry.write.data,
      piece.length ≤ 2 ^ 16 - 1 := by
    intro piece member
    obtain ⟨entry, present, rfl⟩ := List.mem_map.mp member
    exact Nat.le_pred_of_lt (short entry present)
  have count : accepted.length ≤ 2 ^ 16 := by
    have length := congrArg List.length ids
    simp only [List.length_map, List.length_range] at length
    omega
  have total : (accepted.map fun entry => entry.write.data).flatten.length < 2 ^ 32 := by
    have most := List.sum_le_card_nsmul
      ((accepted.map fun entry => entry.write.data).map List.length) (2 ^ 16 - 1)
      (by simpa using pieces)
    rw [List.length_flatten]
    simp only [List.length_map, smul_eq_mul] at most
    omega
  have absorbed := Md5.foldl_md5Update_absorbed (Md5.md5Init_absorbed context)
    fun piece member => Nat.lt_of_le_of_lt (pieces piece member) (by decide : 2 ^ 16 - 1 < 2 ^ 32)
  rw [Md5.md5Hash_eq_digest scratch total, hash, hashed, Md5.md5Final_absorbed absorbed,
    List.nil_append]

private theorem deviceActed_finishes {s : System} {answers : Answers} {payload : Payload}
    (tracked : s.Tracked)
    (missing : ∀ chunk, payload = ⟨s.device.sessionTarget, .updateChunk chunk⟩ →
      s.device.toSession.Awaits chunk → ¬ s.device.toSession.Received)
    (finishes : Finishes (s.deviceActed (answers, payload)).2) (scratch : Md5.Context) :
    Md5.md5Hash scratch ((s.deviceActed (answers, payload)).1.accepted.map
      fun entry => entry.write.data).flatten = s.device.sessionMd5 := by
  have unrequested (request : UpdateRequest) :
      payload ≠ ⟨s.device.sessionTarget, .reqUpdate request⟩ := by
    rintro rfl
    exact step_requested_not_finishes s.device answers request finishes
  have more : (s.deviceActed (answers, payload)).1.accepted = s.accepted ++ acceptedChunk
      (answers, payload) (s.device.step (answers, payload)).2 :=
    if_neg fun ⟨request, same⟩ => unrequested request same
  rcases step_accepted s.device (answers, payload) unrequested with ⟨_, _, never⟩ |
      ⟨chunk, addressed, awaited, _, entry, _, agrees⟩
  · exact absurd finishes never
  · have pending := missing chunk addressed awaited
    obtain ⟨context, holds⟩ := tracked pending
    have stored := holds.store pending awaited answers.writeImageChunk
    have bounded : (s.device.toSession.storeChunk chunk).lastChunkId < 2 ^ 16 := by
      have := chunk.chunkId.toNat_lt
      simp only [Session.storeChunk]
      omega
    rw [more, entry, stored.md5Final_eq bounded, agrees finishes]

private theorem create_consistent : (System.create target).Consistent :=
  ⟨rfl, .inl ⟨rfl, rfl⟩, by simp [System.create], by simp [System.create], .inl rfl⟩

private theorem create_tracked (target : UInt32) : (System.create target).Tracked :=
  fun _ => ⟨_, rfl, Int.le_refl _, nofun, rfl, nofun, rfl⟩

/-- Over a channel that loses, duplicates, delays and reorders, with distinct session ids:
every successful write is the piece of the offered image at its place; and while no chunk
in sequence reaches a device that has the whole image, the update is finished only on the
hash of the accepted chunks. -/
theorem transfer_integrity (target : UInt32) (actions : List Action) (action : Action)
    (fresh : Along System.step System.Fresh (System.create target) (actions ++ [action])) :
    let before := (run System.step (System.create target) actions).1
    WritesOffered before (before.step action).2 ∧
      (Along System.step System.MissingOnly (System.create target) (actions ++ [action]) →
        FinishesOnHash before action) := by
  intro before
  have consistent : before.Consistent :=
    run_invariant step_consistent create_consistent (Along.append.mp fresh).1
  constructor
  · cases action with
    | deliverToDevice index answers =>
      intro write member
      unfold System.step at member
      dsimp only at member
      split at member
      · rename_i payload found
        exact deviceActed_writes consistent (List.mem_of_getElem? found) write member
      · cases member
    | deliverToHost index answers =>
      intro write member
      unfold System.step at member
      dsimp only at member
      split at member <;> cases member
    | _ => exact fun write member => nomatch member
  · intro missing
    obtain ⟨earlier, last⟩ := Along.append.mp missing
    have tracked : before.Tracked := run_invariant step_tracked (create_tracked target) earlier
    have now : before.MissingOnly action := last.1
    intro finishes scratch
    cases action with
    | deliverToDevice index answers =>
      unfold System.step at finishes ⊢
      dsimp only at finishes ⊢
      split at finishes
      · rename_i payload found
        exact deviceActed_finishes tracked
          (fun chunk addressed => now chunk (addressed ▸ found)) finishes scratch
      · obtain ⟨_, _, _, member⟩ := finishes
        cases member
    | deliverToHost index answers =>
      obtain ⟨_, _, _, member⟩ := finishes
      unfold System.step at member
      dsimp only at member
      split at member <;> cases member
    | _ =>
      obtain ⟨_, _, _, member⟩ := finishes
      cases member

def HostAnswers.drawing (rand : UInt16) : HostAnswers :=
  { currentTimeMs := 0, rand, writeToWire := true }

/-- The host requests an update of one-byte chunks under the id it draws. -/
def sampleOffer (sessionId : UInt16) (image : List UInt8) (imageMd5 : Md5.Hash) : Action :=
  .request image
    { target := 0x10, imageSlot := 0, imageFlags := 0, chunkSize := 1
      imageSize := UInt32.ofNat image.length, imageMd5, progressRate := 0 }
    (.drawing sessionId)

/-- An image of one byte, its request granted, its chunk sent. -/
def sampleTransfer : List Action :=
  [
    sampleOffer 1 [10]
      { a := 3660165992, b := 1088656280, c := 2916665241, d := 1086962012 },
    .deliverToDevice 0 .granting, .deliverToHost 0 (.drawing 0), .sendNext (.drawing 0)]

private theorem not_renegotiates_ready {h : Host} {sessionId totlChunks : UInt16} :
    ¬ h.Renegotiates ⟨targetHost, .updateResp sessionId totlChunks .ready⟩ := by
  rintro ⟨_, _, _, message⟩
  cases message

theorem transfer_integrity_one :
    FinishesOnHash (run System.step (System.create 0x10) sampleTransfer).1
        (.deliverToDevice 1 .granting) ∧
      Finishes ((run System.step (System.create 0x10) sampleTransfer).1.step
        (.deliverToDevice 1 .granting)).2 := by
  have fresh : Along System.step System.Fresh (System.create 0x10)
      (sampleTransfer ++ [.deliverToDevice 1 .granting]) := by
    refine ⟨⟨by decide, rfl, by decide, by decide⟩, trivial, ?_, trivial, trivial, trivial⟩
    intro payload found again
    cases found.symm.trans (by decide +kernel : _ = some ⟨targetHost, .updateResp 1 1 .ready⟩)
    exact absurd again not_renegotiates_ready
  have missing : Along System.step System.MissingOnly (System.create 0x10)
      (sampleTransfer ++ [.deliverToDevice 1 .granting]) :=
    ⟨trivial, fun _ _ _ => by decide +kernel, trivial, trivial, fun _ _ _ => by decide +kernel,
      trivial⟩
  exact ⟨(transfer_integrity 0x10 _ _ fresh).2 missing, 0x10, 0, 0, by decide +kernel⟩

/-- Session 1 offers two chunks, both sent; session 2 offers one chunk and a hash of its own
choosing. The device takes the request of session 2, refuses a late copy of the first
request, and keeps count and hash of session 2 for session 1. The first chunk completes
the image and is finished into the hash; the second is taken on top of that. -/
def staleTransfer : List Action :=
  [
    sampleOffer 1 [10, 20] { a := 0, b := 0, c := 0, d := 0 },
    .deliverToDevice 0 .granting, .deliverToHost 0 (.drawing 0),
    .sendNext (.drawing 0), .sendNext (.drawing 0),
    sampleOffer 2 [30] { a := 3349089076, b := 3936935748, c := 2911457729, d := 3368927024 },
    .deliverToDevice 3 .granting,
    .deliverToDevice 0 { Answers.granting with startUpdate := .errNotAllowed },
    .deliverToDevice 1 .granting]

/-- The update is finished although the accepted chunks do not have the session's hash. -/
theorem finished_on_stale_hash :
    Along System.step System.Fresh (System.create 0x10)
        (staleTransfer ++ [.deliverToDevice 2 .granting]) ∧
      ¬ FinishesOnHash (run System.step (System.create 0x10) staleTransfer).1
        (.deliverToDevice 2 .granting) := by
  constructor
  · refine ⟨⟨by decide, rfl, by decide, by decide⟩, trivial, ?_, trivial, trivial,
      ⟨by decide, by decide +kernel, by decide, by decide⟩, trivial, trivial, trivial, trivial,
      trivial⟩
    intro payload found again
    cases found.symm.trans (by decide +kernel : _ = some ⟨targetHost, .updateResp 1 2 .ready⟩)
    exact absurd again not_renegotiates_ready
  · intro finishes
    have same := finishes ⟨0x10, 0, 0, by decide +kernel⟩ (Device.create 0x10).md5Context
    exact absurd same (by decide +kernel)

end InertialSense.FirmwareUpdate
