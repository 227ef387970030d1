import InertialSense.ComManager.Remote
import InertialSense.FlashConfig.Uploading

/-! A device whose flash configuration is set over a link. What `SetFlashConfig` sends arrives as calls
of the com manager, and the registered structure of the device follows the local copy. -/

namespace InertialSense.FlashConfig

open Foundation
open InertialSense.ComManager (Call Node Own Site Remote RemoteAction)
open InertialSense.DataLog (DataHdr)

/-- `DID_FLASH_CONFIG` as the argument of a call. -/
def flashConfigId : UInt16 := didFlashConfig.toUInt16

def Request.call : Request → Call
  | .getData => .getData { id := flashConfigId, size := 0, offset := 0, period := 0 }
  | .sendData offset data => .sendData flashConfigId (UInt16.ofNat offset) data

def segment? : Call → Option Segment
  | .sendData did offset data => if did = flashConfigId then some ⟨offset.toNat, data⟩ else none
  | _ => none

/-- A host with its local copy, and the link to the com manager of the device. -/
structure Mirror where
  sync : Sync
  remote : Remote

/-- Something happens to the local copy, or a call for another purpose, a read or what the application
does at the device. -/
inductive MirrorAction where
  | host (event : Event) (txPkt : Nat → Comm.PortPacket)
  | remote (action : RemoteAction)

/-- Requests are sent, one after the other. -/
def sends (txPkt : Nat → Comm.PortPacket) (requests : List Request) : List RemoteAction :=
  requests.mapIdx fun k request => .call (txPkt k) request.call

/-- The port takes a request that is made, unless the call for it fails. -/
def Event.takes : Event → Request → Bool
  | .setFlashConfig upload _, .sendData offset _ => !upload.fails (offset / 4)
  | _, _ => true

namespace Mirror

def step (site : Site) (m : Mirror) : MirrorAction → Mirror × Unit
  | .host event txPkt =>
    let taken := (m.sync.step event).2.filter event.takes
    ({ sync := (m.sync.step event).1
       remote := (run site.step m.remote (sends txPkt taken)).1 }, ())
  | .remote action => ({ m with remote := (site.step m.remote action).1 }, ())

/-- The configuration in the memory of the device. -/
def device (base : Nat) (m : Mirror) : Struct := fun k => m.remote.link.node.mem (base + k)

end Mirror

/-- The device registers its configuration at this address, behind or before everything else. -/
structure Registered (base : Nat) (site : Site) : Prop where
  rxPtr : (site.rx.regData didFlashConfig).rxPtr = some base
  size : (site.rx.regData didFlashConfig).size.toNat = flashCfgSize
  apart : ∀ id ptr, id ≠ didFlashConfig → (site.rx.regData id).rxPtr = some ptr →
    ptr + (site.rx.regData id).size.toNat ≤ base + 8 ∨ base + flashCfgSize ≤ ptr

def Elsewhere : Call → Prop
  | .sendData did .. | .sendDataNoAck did .. => did ≠ flashConfigId
  | _ => True

/-- Configurations are set without a request for an update of `ioConfig` and with no part that cannot be
sent, none is received, and nothing else writes to the configuration of the device but for its first two
words. -/
def MirrorAction.Good (base : Nat) : MirrorAction → Prop
  | .host (.setFlashConfig upload flashCfg) _ =>
    ¬UpdateRequested flashCfg ∧ ∀ head, upload.fails head = false
  | .host (.syncFlashConfig _) _ => True
  | .host (.processRxData data) _ => data.hdr.id ≠ didFlashConfig
  | .remote (.call _ call) => call.Valid ∧ Elsewhere call
  | .remote (.own (.update place bytes)) =>
    place + bytes.length ≤ base + 8 ∨ base + flashCfgSize ≤ place
  | .remote (.own (.stepTx _)) | .remote (.read _) => True

def MirrorAction.sets (actions : List MirrorAction) : List Struct :=
  actions.filterMap fun action => match action with
    | .host (.setFlashConfig _ flashCfg) _ => some flashCfg
    | _ => none

/-- The same words from `key` on. -/
def SameWords (struct other : Struct) : Prop :=
  ∀ index, 2 ≤ index → index < flashCfgWords → wordAt struct (4 * index) = wordAt other (4 * index)

def Between (older newer struct : Struct) : Prop :=
  ∃ place, ∀ index, 2 ≤ index → index < flashCfgWords →
    wordAt struct (4 * index) = wordAt (if index < place then newer else older) (4 * index)

/-- What is sent for each configuration of a list but the first. -/
def uploads : List Struct → List Segment
  | older :: newer :: later =>
    (stretches (Differs older newer) flashCfgWords 2).map (segmentOf newer) ++ uploads (newer :: later)
  | _ => []

/-- The device has one of the configurations, or is between it and the next one. Once everything is
read it has the last one, as the local copy does all the time. -/
structure Follows (base : Nat) (configs : List Struct) (m : Mirror) : Prop where
  between : ∃ before older after, configs = before ++ older :: after ∧
    Between older (after.headD older) (m.device base)
  copy : ∀ last ∈ configs.getLast?, SameWords m.sync.flashCfg last
  settled : m.remote.link.pipe = [] → ∀ last ∈ configs.getLast?,
    window (m.device base) 8 (flashCfgSize - 8) = window last 8 (flashCfgSize - 8)

/-! ### Configurations one after the other -/

section Words

variable {struct other third : Struct}

theorem SameWords.refl (struct : Struct) : SameWords struct struct := fun _ _ _ => rfl

theorem SameWords.symm (same : SameWords struct other) : SameWords other struct :=
  fun index behind inside => (same index behind inside).symm

theorem SameWords.trans (first : SameWords struct other) (second : SameWords other third) :
    SameWords struct third :=
  fun index behind inside => (first index behind inside).trans (second index behind inside)

theorem SameWords.store (same : SameWords struct other) (place : Nat) (data : List UInt8) :
    SameWords (store struct place data) (store other place data) :=
  fun index behind inside =>
    wordAt_inj.mpr (window_store_congr (wordAt_inj.mp (same index behind inside)) place data)

theorem SameWords.writeAll (same : SameWords struct other) (segments : List Segment) :
    SameWords (writeAll struct segments) (writeAll other segments) := by
  induction segments generalizing struct other with
  | nil => exact same
  | cons segment segments ih => exact ih (same.store segment.offset segment.data)

theorem SameWords.of_cells
    (same : ∀ place, 8 ≤ place → place < flashCfgSize → struct place = other place) :
    SameWords struct other := by
  intro index behind inside
  refine wordAt_inj.mpr (window_congr fun k small => same _ ?_ ?_)
  · omega
  · unfold flashCfgWords flashCfgSize at *
    omega

end Words

section Uploads

variable {struct older newer : Struct}

private theorem held_iff (plain : ¬UpdateRequested newer) {index : Nat} (behind : 2 ≤ index)
    (inside : index < flashCfgWords) :
    (∃ stretch ∈ stretches (Differs older newer) flashCfgWords 2, stretch.Has index) ↔
      wordAt newer (4 * index) ≠ wordAt older (4 * index) := by
  rw [stretches_cover behind, and_iff_right inside]
  unfold Differs
  rw [saved_of_not_requested plain]

private theorem exists_cut {found later : List Stretch}
    (split : stretches (Differs older newer) flashCfgWords 2 = found ++ later) :
    ∃ place, (∀ stretch ∈ found, stretch.tail ≤ place) ∧ ∀ stretch ∈ later, place ≤ stretch.head := by
  have apart := @stretches_apart (Differs older newer) _ flashCfgWords 2
  rw [split] at apart
  obtain ⟨-, behind, across⟩ := List.pairwise_append.mp apart
  cases later with
  | nil =>
    refine ⟨flashCfgWords, fun stretch member => ?_, List.forall_mem_nil _⟩
    rw [List.append_nil] at split
    rw [← split] at member
    exact (stretches_inside member).2.2
  | cons next later =>
    refine ⟨next.head, fun stretch member => ?_, List.forall_mem_cons.mpr ⟨Nat.le_refl _, ?_⟩⟩
    · exact Nat.le_of_lt (across stretch member next (.head _))
    · intro stretch member
      have first : next ∈ stretches (Differs older newer) flashCfgWords 2 := by
        rw [split]
        exact List.mem_append_right _ (.head _)
      have wide := (stretches_inside first).2.1
      have sorted := (List.pairwise_cons.mp behind).1 stretch member
      omega

/-- A device that is sent the first stretches is between the two configurations. -/
private theorem between_stretches (same : SameWords struct older) (plain : ¬UpdateRequested newer)
    {found later : List Stretch}
    (split : stretches (Differs older newer) flashCfgWords 2 = found ++ later) :
    Between older newer (writeAll struct (found.map (segmentOf newer))) := by
  obtain ⟨place, before, after⟩ := exists_cut split
  refine ⟨place, fun index behind inside => ?_⟩
  by_cases held : ∃ stretch ∈ found, stretch.Has index
  · obtain ⟨stretch, member, has⟩ := held
    rw [if_pos (Nat.lt_of_lt_of_le has.2 (before stretch member))]
    exact wordAt_writeAll ⟨stretch, member, has⟩
  · rw [wordAt_writeAll_apart fun stretch member has => held ⟨stretch, member, has⟩,
      same index behind inside]
    split
    case isFalse => rfl
    case isTrue small =>
      -- the word is in no stretch, so it does not differ
      refine Eq.symm (Classical.not_not.mp fun differs => held ?_)
      obtain ⟨stretch, member, has⟩ := (held_iff plain behind inside).mpr differs
      rw [split] at member
      obtain first | last := List.mem_append.mp member
      · exact ⟨stretch, first, has⟩
      · have late := after stretch last
        have begins := has.1
        omega

private theorem writeAll_stretches (same : SameWords struct older) (plain : ¬UpdateRequested newer) :
    SameWords
      (writeAll struct
        ((stretches (Differs older newer) flashCfgWords 2).map (segmentOf newer))) newer := by
  intro index behind inside
  by_cases held : ∃ stretch ∈ stretches (Differs older newer) flashCfgWords 2, stretch.Has index
  · exact wordAt_writeAll held
  · have equal := Classical.not_not.mp ((held_iff plain behind inside).not.mp held)
    rw [equal]
    exact (wordAt_writeAll_apart fun stretch member has => held ⟨stretch, member, has⟩).trans
      (same index behind inside)

private theorem writeAll_append (struct : Struct) (first second : List Segment) :
    writeAll struct (first ++ second) = writeAll (writeAll struct first) second := List.foldl_append

private theorem between_uploads {later : List Struct} (plain : ∀ config ∈ later, ¬UpdateRequested config)
    (same : SameWords struct older) {taken : List Segment} (first : taken <+: uploads (older :: later)) :
    ∃ before config after, older :: later = before ++ config :: after ∧
      Between config (after.headD config) (writeAll struct taken) := by
  induction later generalizing struct older taken with
  | nil =>
    obtain rfl := List.prefix_nil.mp first
    refine ⟨[], older, [], rfl, 0, fun index behind inside => ?_⟩
    rw [if_neg (Nat.not_lt_zero _)]
    exact same index behind inside
  | cons newer later ih =>
    obtain ⟨here, later'⟩ := List.forall_mem_cons.mp plain
    obtain part | whole := List.prefix_or_prefix_of_prefix first (List.prefix_append _ _)
    · obtain ⟨rest, split⟩ := part
      obtain ⟨found, left, cut, rfl, -⟩ := List.map_eq_append_iff.mp split.symm
      exact ⟨[], older, newer :: later, rfl, between_stretches same here cut⟩
    · obtain ⟨rest, rfl⟩ := whole
      obtain ⟨before, config, after, split, between⟩ :=
        ih later' (writeAll_stretches same here) ((List.prefix_append_right_inj _).mp first)
      rw [← writeAll_append] at between
      exact ⟨older :: before, config, after, congrArg (older :: ·) split, between⟩

private theorem writeAll_uploads {later : List Struct} (plain : ∀ config ∈ later, ¬UpdateRequested config)
    (same : SameWords struct older) {last : Struct} (ends : (older :: later).getLast? = some last) :
    SameWords (writeAll struct (uploads (older :: later))) last := by
  induction later generalizing struct older with
  | nil =>
    obtain rfl := Option.some.inj ends
    exact same
  | cons newer later ih =>
    obtain ⟨here, later'⟩ := List.forall_mem_cons.mp plain
    rw [List.getLast?_cons_cons] at ends
    show SameWords (writeAll struct (_ ++ _)) last
    rw [writeAll_append]
    exact ih later' (writeAll_stretches same here) ends

private theorem uploads_concat {configs : List Struct} {last : Struct}
    (ends : configs.getLast? = some last) (newer : Struct) :
    uploads (configs ++ [newer]) = uploads configs ++
      (stretches (Differs last newer) flashCfgWords 2).map (segmentOf newer) := by
  induction configs with
  | nil => cases ends
  | cons first configs ih =>
    cases configs with
    | nil =>
      obtain rfl := Option.some.inj ends
      exact List.append_nil _
    | cons second configs =>
      rw [List.getLast?_cons_cons] at ends
      have later := ih ends
      show _ ++ uploads (second :: configs ++ [newer]) = _
      rw [later, ← List.append_assoc]
      rfl

end Uploads

/-! ### The calls at the device -/

/-- A call that writes within the configuration or elsewhere. -/
def Proper : Call → Prop
  | .sendData did offset data => did = flashConfigId → offset.toNat + data.length ≤ flashCfgSize
  | .sendDataNoAck did .. => did ≠ flashConfigId
  | _ => True

section Delivering

variable {base : Nat} {site : Site} {node : Node} {did offset : UInt16} {data : List UInt8}

theorem Proper.of_elsewhere {call : Call} (elsewhere : Elsewhere call) :
    Proper call ∧ segment? call = none := by
  cases call with
  | sendData did => exact ⟨fun same => absurd same elsewhere, if_neg elsewhere⟩
  | sendDataNoAck did => exact ⟨elsewhere, rfl⟩
  | getData => exact ⟨trivial, rfl⟩
  | disableData => exact ⟨trivial, rfl⟩

private theorem takeData_config (registered : Registered base site)
    (short : data.length ≤ Comm.maxDatasetSize) (inside : offset.toNat + data.length ≤ flashCfgSize)
    (acked : Bool) :
    (site.takeData node flashConfigId offset data acked).mem =
      store node.mem (base + offset.toNat) data := by
  refine Site.takeData_registered registered.rxPtr (by decide) short ?_ acked
  exact inside.trans_eq registered.size.symm

private theorem takeData_other (registered : Registered base site) (small : did.toNat < 256)
    (other : did ≠ flashConfigId) (acked : Bool) {place : Nat} (behind : 8 ≤ place)
    (inside : place < flashCfgSize) :
    (site.takeData node did offset data acked).mem (base + place) = node.mem (base + place) := by
  have different : did.toUInt8 ≠ didFlashConfig := by
    intro same
    refine other (UInt16.toNat_inj.mp ?_)
    have number := congrArg UInt8.toNat same
    rw [UInt16.toNat_toUInt8, Nat.mod_eq_of_lt small] at number
    exact number
  refine Site.takeData_apart (fun ptr pointed => ?_) acked
  have apart := registered.apart _ ptr different pointed
  omega

/-- What a call does to the configuration of the device. -/
private theorem deliver_device (registered : Registered base site) {call : Call} (valid : call.Valid)
    (proper : Proper call) (node : Node) :
    SameWords (fun k => (site.deliver node call).mem (base + k))
      (writeAll (fun k => node.mem (base + k)) (segment? call).toList) := by
  cases call with
  | getData => exact SameWords.refl _
  | disableData => exact SameWords.refl _
  | sendDataNoAck did offset data =>
    exact SameWords.of_cells fun place behind inside =>
      takeData_other registered valid.1 proper false behind inside
  | sendData did offset data =>
    show SameWords _
      (writeAll _ (if did = flashConfigId then some (Segment.mk offset.toNat data) else none).toList)
    by_cases config : did = flashConfigId
    · subst config
      rw [if_pos rfl]
      have taken : (site.takeData node flashConfigId offset data true).mem =
          store node.mem (base + offset.toNat) data :=
        takeData_config registered valid.2.1 (proper rfl) true
      refine SameWords.of_cells fun place _ _ => ?_
      show (site.takeData node flashConfigId offset data true).mem (base + place) =
        store (fun k => node.mem (base + k)) offset.toNat data place
      rw [taken]
      unfold store
      rw [Nat.add_sub_add_left]
      simp only [Nat.add_le_add_iff_left]
    · rw [if_neg config]
      exact SameWords.of_cells fun place behind inside =>
        takeData_other registered valid.1 config true behind inside

private theorem deliver_all (registered : Registered base site) {calls : List Call}
    (valid : ∀ call ∈ calls, call.Valid ∧ Proper call) (node : Node) :
    SameWords (fun k => (calls.foldl site.deliver node).mem (base + k))
      (writeAll (fun k => node.mem (base + k)) (calls.filterMap segment?)) := by
  induction calls generalizing node with
  | nil => exact SameWords.refl _
  | cons call calls ih =>
    obtain ⟨here, later⟩ := List.forall_mem_cons.mp valid
    have now := deliver_device registered here.1 here.2 node
    have written : writeAll (fun k => node.mem (base + k)) ((call :: calls).filterMap segment?) =
        writeAll (writeAll (fun k => node.mem (base + k)) (segment? call).toList)
          (calls.filterMap segment?) := by
      rw [← writeAll_append, List.filterMap_cons]
      cases segment? call <;> rfl
    rw [written]
    exact (ih later _).trans (now.writeAll _)

end Delivering

/-! ### The calls of the host -/

section Sending

variable {site : Site} {requests : List Request}

private theorem run_sends (valid : ∀ request ∈ requests, request.call.Valid)
    (txPkt : Nat → Comm.PortPacket) (r : Remote) :
    (run site.step r (sends txPkt requests)).1.link =
      { r.link with
        pipe := r.link.pipe ++ Comm.stream ((requests.map Request.call).map Call.written) } := by
  induction requests generalizing txPkt r with
  | nil =>
    show r.link = { r.link with pipe := r.link.pipe ++ [] }
    rw [List.append_nil]
  | cons request requests ih =>
    obtain ⟨here, later⟩ := List.forall_mem_cons.mp valid
    have sent := ComManager.comManagerSend_eq here r.link.pipe r.sender (txPkt 0)
    have rest := ih later (fun k => txPkt (k + 1)) (site.step r (.call (txPkt 0) request.call)).1
    unfold sends at rest ⊢
    rw [List.mapIdx_cons]
    refine rest.trans ?_
    show ({ r.link with
      pipe := (ComManager.comManagerSend r.link.pipe r.sender (txPkt 0) request.call).1 ++ _ } :
        Comm.Link Node) = _
    rw [sent, List.append_assoc]
    rfl

variable {current last newer : Struct} {sync : Sync}

/-- The part of a configuration is sent as it is. -/
private theorem segmentOf_call {stretch : Stretch}
    (found : stretch ∈ stretches (Differs last newer) flashCfgWords 2) :
    (segmentOf newer stretch).request.call.Valid ∧ Proper (segmentOf newer stretch).request.call ∧
      segment? (segmentOf newer stretch).request.call = some (segmentOf newer stretch) := by
  obtain ⟨first, wide, inside⟩ := stretches_inside found
  have length := segmentOf_length newer stretch
  have small : 4 * stretch.head + (segmentOf newer stretch).data.length ≤ flashCfgSize := by
    rw [length]
    unfold flashCfgWords at inside
    omega
  have offset : (UInt16.ofNat (4 * stretch.head)).toNat = 4 * stretch.head := by
    refine UInt16.toNat_ofNat_of_lt' ?_
    unfold flashCfgSize at small
    show _ < 65536
    omega
  refine ⟨⟨(show flashConfigId.toNat < 256 by decide), ?_, trivial⟩, fun _ => ?_, ?_⟩
  · unfold flashCfgSize at small
    show (segmentOf newer stretch).data.length ≤ 1024
    omega
  · show (UInt16.ofNat (4 * stretch.head)).toNat + _ ≤ _
    rw [offset]
    exact small
  · show some (Segment.mk (UInt16.ofNat (4 * stretch.head)).toNat _) = _
    rw [offset]
    rfl

/-- What `SetFlashConfig` sends, and the local copy that it leaves. -/
private theorem setFlashConfig_sends (copy : SameWords sync.flashCfg last)
    (plain : ¬UpdateRequested newer) (upload : Upload) :
    (sync.setFlashConfig upload newer).2.2.2 =
        (stretches (Differs last newer) flashCfgWords 2).map (fun stretch =>
          (segmentOf newer stretch).request) ∧
      SameWords (sync.setFlashConfig upload newer).1.flashCfg newer := by
  let current := setWord sync.flashCfg checksumOffset (flashChecksum32 sync.flashCfg flashCfgSize)
  obtain ⟨sent, left, -⟩ := @uploadMismatches_eq current newer 2
    { flashCfg := saved newer, uploadTimeMs := sync.flashCfgUploadTimeMs, failure := false, sent := [] }
    upload (.inl rfl)
  have words : stretches (Differs current newer) flashCfgWords 2 =
      stretches (Differs last newer) flashCfgWords 2 := by
    refine stretches_congr fun index behind inside => ?_
    have apart : wordAt current (4 * index) = wordAt sync.flashCfg (4 * index) :=
      wordAt_setWord_disjoint _ _ (.inr (by unfold checksumOffset; omega))
    unfold Differs
    rw [apart, copy index behind inside]
  have kept := left.elim (fun same => same.trans (saved_of_not_requested plain)) id
  refine ⟨sent.trans ?_, ?_⟩
  · rw [words]
    rfl
  · have copied : (sync.setFlashConfig upload newer).1.flashCfg = setWord newer checksumOffset _ :=
      (congrArg updateFlashConfigChecksum kept).trans (updateFlashConfigChecksum_eq plain)
    intro index behind inside
    rw [copied]
    exact wordAt_setWord_disjoint _ _ (.inr (by unfold checksumOffset; omega))

end Sending

private theorem filter_takes {upload : Upload} (sends : ∀ head, upload.fails head = false)
    (flashCfg : Struct) (requests : List Request) :
    requests.filter (Event.setFlashConfig upload flashCfg).takes = requests := by
  refine List.filter_eq_self.mpr fun request _ => ?_
  cases request with
  | getData => rfl
  | sendData offset data => exact congrArg not (sends (offset / 4))

private theorem Sync.syncFlashConfig_asks (sync : Sync) (timeMs : UInt32) :
    (sync.syncFlashConfig timeMs).1.flashCfg = sync.flashCfg ∧
      ∀ request ∈ (sync.syncFlashConfig timeMs).2, request = .getData := by
  have paused (s : Sync) : (s.pauseSync timeMs).flashCfg = s.flashCfg := by
    unfold Sync.pauseSync
    split <;> rfl
  unfold Sync.syncFlashConfig
  split
  · exact ⟨rfl, List.forall_mem_nil _⟩
  dsimp only
  split
  · split
    · exact ⟨paused _, List.forall_mem_nil _⟩
    · exact ⟨paused _, List.forall_mem_singleton.mpr rfl⟩
  · exact ⟨paused _, List.forall_mem_nil _⟩

private theorem Sync.processRxData_flashCfg (sync : Sync) {data : DataLog.Record}
    (other : data.hdr.id ≠ didFlashConfig) : (sync.processRxData data).flashCfg = sync.flashCfg := by
  unfold Sync.processRxData
  rw [if_neg other]
  split
  · rfl
  split
  · rfl
  · rfl

/-! ### Runs -/

/-- What is between the two copies: some parts have been written at the device, and the others are among
the calls that are under way. -/
structure Mirror.Sent (base : Nat) (first : Struct) (later : List Struct) (m : Mirror)
    (taken : List Segment) (calls : List Call) : Prop where
  plain : ∀ config ∈ later, ¬UpdateRequested config
  queues : m.remote.link.Queues Comm.pktBufSize 0x0F (calls.map Call.written)
  valid : ∀ call ∈ calls, call.Valid ∧ Proper call
  sent : uploads (first :: later) = taken ++ calls.filterMap segment?
  device : SameWords (m.device base) (writeAll first taken)
  copy : ∃ last, (first :: later).getLast? = some last ∧ SameWords m.sync.flashCfg last

namespace Mirror

variable {base : Nat} {site : Site} {first : Struct} {later : List Struct} {m : Mirror}
  {taken : List Segment} {calls : List Call}

private theorem Sent.send (sent : m.Sent base first later taken calls) (more : List Call)
    (valid : ∀ call ∈ more, call.Valid ∧ Proper call) {sync : Sync} {r : Remote}
    (link : r.link =
      { m.remote.link with pipe := m.remote.link.pipe ++ Comm.stream (more.map Call.written) })
    {added : List Struct} (plain : ∀ config ∈ added, ¬UpdateRequested config)
    (uploaded : uploads (first :: later ++ added) = uploads (first :: later) ++ more.filterMap segment?)
    (copy : ∃ last, (first :: (later ++ added)).getLast? = some last ∧ SameWords sync.flashCfg last) :
    (Mirror.mk sync r).Sent base first (later ++ added) taken (calls ++ more) := by
  refine ⟨?_, ?_, ?_, ?_, ?_, copy⟩
  · exact fun config member => (List.mem_append.mp member).elim (sent.plain config) (plain config)
  · have accepted : ∀ w ∈ more.map Call.written, w.Accepted Comm.pktBufSize 0x0F := by
      intro w member
      obtain ⟨call, inside, rfl⟩ := List.mem_map.mp member
      exact Call.accepted (valid call inside).1
    show r.link.Queues _ _ _
    rw [link, List.map_append]
    exact sent.queues.write accepted
  · exact fun call member => (List.mem_append.mp member).elim (sent.valid call) (valid call)
  · rw [List.filterMap_append, ← List.append_assoc, ← sent.sent]
    exact uploaded
  · show SameWords (fun k => r.link.node.mem (base + k)) _
    rw [link]
    exact sent.device

private theorem Sent.event (sent : m.Sent base first later taken calls) {event : Event}
    {txPkt : Nat → Comm.PortPacket} (good : (MirrorAction.host event txPkt).Good base) :
    ∃ calls', (m.step site (.host event txPkt)).1.Sent base first
      (later ++ MirrorAction.sets [.host event txPkt]) taken calls' := by
  obtain ⟨last, ends, copy⟩ := sent.copy
  -- requests that write nothing, and a copy that stays
  have quiet (sync : Sync) {requests : List Request} (same : sync.flashCfg = m.sync.flashCfg)
      (asks : ∀ request ∈ requests, request = .getData) :
      ∃ calls', (Mirror.mk sync (run site.step m.remote (sends txPkt requests)).1).Sent base first
        (later ++ []) taken calls' := by
    have getData {request : Request} (member : request ∈ requests) :
        request.call.Valid ∧ Proper request.call ∧ segment? request.call = none := by
      rw [asks request member]
      exact ⟨⟨by decide, by decide, show (0 : UInt16).toNat ≤ 1024 by decide⟩, trivial, rfl⟩
    refine ⟨_, sent.send (requests.map Request.call) ?_
      (run_sends (fun request member => (getData member).1) txPkt m.remote)
      (List.forall_mem_nil _) ?_ ?_⟩
    · refine List.forall_mem_map.mpr fun request member => ?_
      exact ⟨(getData member).1, (getData member).2.1⟩
    · have nothing : (requests.map Request.call).filterMap segment? = [] :=
        List.filterMap_eq_nil_iff.mpr (List.forall_mem_map.mpr fun request member => (getData member).2.2)
      rw [nothing, List.append_nil, List.append_nil]
    · rw [List.append_nil, same]
      exact ⟨last, ends, copy⟩
  cases event with
  | syncFlashConfig timeMs =>
    obtain ⟨same, asks⟩ := m.sync.syncFlashConfig_asks timeMs
    exact quiet _ same fun request member => asks request (List.mem_of_mem_filter member)
  | processRxData data => exact quiet _ (m.sync.processRxData_flashCfg good) (List.forall_mem_nil _)
  | setFlashConfig upload newer =>
    obtain ⟨plain, sends⟩ := good
    obtain ⟨requests, copied⟩ := setFlashConfig_sends copy plain upload
    have all := filter_takes sends newer (m.sync.setFlashConfig upload newer).2.2.2
    have parts {call : Call}
        (member : call ∈ (m.sync.setFlashConfig upload newer).2.2.2.map Request.call) :
        call.Valid ∧ Proper call := by
      rw [requests, List.map_map] at member
      obtain ⟨stretch, found, rfl⟩ := List.mem_map.mp member
      exact ⟨(segmentOf_call found).1, (segmentOf_call found).2.1⟩
    refine ⟨_, sent.send ((m.sync.setFlashConfig upload newer).2.2.2.map Request.call)
      (fun call member => parts member)
      ((congrArg (fun taken => (run site.step m.remote (FlashConfig.sends txPkt taken)).1.link)
        all).trans
        (run_sends (fun request member => (parts (List.mem_map_of_mem member)).1) txPkt m.remote))
      (List.forall_mem_singleton.mpr plain) ?_ ⟨newer, ?_, copied⟩⟩
    · have written : ((m.sync.setFlashConfig upload newer).2.2.2.map Request.call).filterMap segment? =
          (stretches (Differs last newer) flashCfgWords 2).map (segmentOf newer) := by
        rw [requests, List.map_map, List.filterMap_map, ← List.filterMap_eq_map]
        exact List.filterMap_congr fun stretch found => (segmentOf_call found).2.2
      rw [written]
      exact uploads_concat ends newer
    · show (first :: later ++ [newer]).getLast? = some newer
      exact List.getLast?_concat

private theorem Sent.remote (registered : Registered base site)
    (sent : m.Sent base first later taken calls) {action : RemoteAction}
    (good : (MirrorAction.remote action).Good base) :
    ∃ taken' calls', (m.step site (.remote action)).1.Sent base first later taken' calls' := by
  cases action with
  | call txPkt call =>
    obtain ⟨valid, elsewhere⟩ := good
    obtain ⟨proper, nothing⟩ := Proper.of_elsewhere elsewhere
    have link : (site.step m.remote (.call txPkt call)).1.link =
        { m.remote.link with
          pipe := m.remote.link.pipe ++ Comm.stream ([call].map Call.written) } := by
      show ({ m.remote.link with
        pipe := (ComManager.comManagerSend m.remote.link.pipe m.remote.sender txPkt call).1 } :
          Comm.Link Node) = _
      rw [ComManager.comManagerSend_eq valid]
      exact congrArg (fun frame => { m.remote.link with pipe := m.remote.link.pipe ++ frame })
        (List.append_nil call.written.frame).symm
    have more : (m.step site (.remote (.call txPkt call))).1.Sent base first (later ++ []) taken
        (calls ++ [call]) := by
      refine sent.send [call] (List.forall_mem_singleton.mpr ⟨valid, proper⟩) link
        (List.forall_mem_nil _) ?_ ?_
      · rw [List.append_nil, List.filterMap_cons_none nothing]
        exact (List.append_nil _).symm
      · rw [List.append_nil]
        exact sent.copy
    rw [List.append_nil] at more
    exact ⟨taken, _, more⟩
  | read count =>
    have accepted : ∀ w ∈ calls.map Call.written, w.Accepted Comm.pktBufSize 0x0F := by
      intro w member
      obtain ⟨call, inside, rfl⟩ := List.mem_map.mp member
      exact Call.accepted (sent.valid call inside).1
    obtain ⟨found, left, split, passes, queues⟩ :=
      sent.queues.read site.handle Node.own (by decide) accepted count
    obtain ⟨now, rest, rfl, rfl, rfl⟩ := List.map_eq_append_iff.mp split
    have valid : ∀ call ∈ now, call.Valid ∧ Proper call := fun call member =>
      sent.valid call (List.mem_append_left rest member)
    have passed : (m.remote.link.step site.handle Node.own (.read count)).1.node =
        (now.map Sum.inl).foldl site.advance m.remote.link.node := by
      refine ComManager.passes_advance ?_ ?_
      · rw [List.filterMap_map]
        intro call member
        obtain ⟨same, inside, found⟩ := List.mem_filterMap.mp member
        obtain rfl := Option.some.inj found
        exact (valid same inside).1
      · rw [List.map_map] at passes ⊢
        exact passes
    rw [List.foldl_map] at passed
    refine ⟨taken ++ now.filterMap segment?, rest, sent.plain, queues, ?_, ?_, ?_, sent.copy⟩
    · exact fun call member => sent.valid call (List.mem_append_right now member)
    · rw [sent.sent, List.filterMap_append, List.append_assoc]
    · show SameWords (fun k => (m.remote.link.step site.handle Node.own (.read count)).1.node.mem _) _
      rw [passed, writeAll_append]
      exact (deliver_all registered valid _).trans (sent.device.writeAll _)
  | own done =>
    refine ⟨taken, calls, sent.plain, sent.queues, sent.valid, sent.sent, ?_, sent.copy⟩
    refine SameWords.trans (SameWords.of_cells fun place behind inside => ?_) sent.device
    cases done with
    | stepTx answers => rfl
    | update start bytes =>
      refine store_outside _ ?_
      have apart : start + bytes.length ≤ base + 8 ∨ base + flashCfgSize ≤ start := good
      omega

private theorem Sent.step (registered : Registered base site)
    (sent : m.Sent base first later taken calls) {action : MirrorAction} (good : action.Good base) :
    ∃ taken' calls', (m.step site action).1.Sent base first (later ++ MirrorAction.sets [action])
      taken' calls' := by
  cases action with
  | host event txPkt => exact ⟨taken, sent.event good⟩
  | remote action =>
    show ∃ taken' calls', (m.step site (.remote action)).1.Sent base first (later ++ []) taken' calls'
    rw [List.append_nil]
    exact sent.remote registered good

private theorem Sent.run (registered : Registered base site)
    (sent : m.Sent base first later taken calls) {actions : List MirrorAction}
    (good : ∀ action ∈ actions, action.Good base) :
    ∃ taken' calls', (run (Mirror.step site) m actions).1.Sent base first
      (later ++ MirrorAction.sets actions) taken' calls' := by
  induction actions generalizing m later taken calls with
  | nil =>
    show ∃ taken' calls', m.Sent base first (later ++ []) taken' calls'
    rw [List.append_nil]
    exact ⟨taken, calls, sent⟩
  | cons action actions ih =>
    obtain ⟨here, later'⟩ := List.forall_mem_cons.mp good
    obtain ⟨taken', calls', next⟩ := sent.step registered here
    have all := ih next later'
    have split : MirrorAction.sets (action :: actions) =
        MirrorAction.sets [action] ++ MirrorAction.sets actions := List.filterMap_append (l := [action])
    rw [List.append_assoc, ← split] at all
    exact all

private theorem Sent.follows (sent : m.Sent base first later taken calls) :
    Follows base (first :: later) m := by
  refine ⟨?_, ?_, ?_⟩
  · obtain ⟨before, older, after, split, place, words⟩ :=
      between_uploads sent.plain (SameWords.refl first) ⟨_, sent.sent.symm⟩
    refine ⟨before, older, after, split, place, fun index behind inside => ?_⟩
    exact (sent.device index behind inside).trans (words index behind inside)
  · intro last ends
    obtain ⟨last', ends', copy⟩ := sent.copy
    obtain rfl := Option.some.inj (ends'.symm.trans ends)
    exact copy
  · intro empty last ends
    have none := List.map_eq_nil_iff.mp (sent.queues.none empty)
    have all := sent.sent
    rw [none, List.filterMap_nil, List.append_nil] at all
    have written := sent.device
    rw [← all] at written
    exact window_eq_of_words (written.trans (writeAll_uploads sent.plain (SameWords.refl first) ends))

end Mirror

/-- Whatever is set and whatever is read at a time, the configuration of the device goes from each one
that is set to the next, word by word and in order, and is the last one once everything is read. -/
theorem device_follows {base : Nat} {site : Site} (registered : Registered base site)
    (sender : Comm.Instance) (mem : Nat → UInt8) (node : Node) (sync : Sync)
    (same : SameWords (fun k => node.mem (base + k)) sync.flashCfg) {actions : List MirrorAction}
    (good : ∀ action ∈ actions, action.Good base) :
    Follows base (sync.flashCfg :: MirrorAction.sets actions)
      (run (Mirror.step site) ⟨sync, .start sender mem node⟩ actions).1 := by
  have start : (Mirror.mk sync (.start sender mem node)).Sent base sync.flashCfg [] [] [] := by
    refine ⟨List.forall_mem_nil _, ?_, List.forall_mem_nil _, rfl, same, sync.flashCfg, rfl, ?_⟩
    · exact Comm.Link.Queues.start mem Comm.pktBufSize 0x0F node
    · exact SameWords.refl _
  obtain ⟨taken, calls, sent⟩ := start.run registered good
  exact sent.follows

/-- A device whose configuration is at address 100. -/
def configSite : Site where
  rx :=
    { regData := fun id =>
        if id = didFlashConfig then { rxPtr := some 100, size := 288, pstRxFnc := false }
        else { rxPtr := none, size := 0, pstRxFnc := false }
      pstRxFnc := false }
  pHandle := 0
  answers := fun _ => { txFree := fun _ _ => 0, preTx := fun _ _ _ => true, rmc := false }

/-- Two configurations are set; the reads do not end where the frames do. -/
def keyActions : List MirrorAction :=
  [.host (.setFlashConfig calmUpload keyConfig) fun _ => ComManager.blankPkt, .remote (.read 7),
    .host (.setFlashConfig calmUpload (setWord keyConfig 12 3)) fun _ => ComManager.blankPkt,
    .remote (.own (.update 104 [1, 2, 3, 4])), .remote (.read 100)]

theorem device_follows_keys : ¬UpdateRequested keyConfig ∧ Registered 100 configSite ∧
    Follows 100 (freshDevice.flashCfg :: MirrorAction.sets keyActions)
      (run (Mirror.step configSite)
        ⟨freshDevice, .start (Comm.isCommInit (fun _ => 0) 0) (fun _ => 0) ComManager.smallNode⟩
        keyActions).1 := by
  have first : ¬UpdateRequested keyConfig := by decide
  have second : ¬UpdateRequested (setWord keyConfig 12 3) := by decide
  have registered : Registered 100 configSite := by
    refine ⟨rfl, rfl, fun id ptr other pointed => ?_⟩
    have none : (configSite.rx.regData id).rxPtr = .none :=
      congrArg ComManager.ReceivedData.rxPtr (if_neg other)
    rw [none] at pointed
    cases pointed
  refine ⟨first, registered, device_follows registered _ _ _ _ (SameWords.refl _) ?_⟩
  have sends : ∀ head, calmUpload.fails head = false := fun _ => rfl
  refine List.forall_mem_cons.mpr ⟨⟨first, sends⟩, List.forall_mem_cons.mpr ⟨trivial, ?_⟩⟩
  refine List.forall_mem_cons.mpr ⟨⟨second, sends⟩, List.forall_mem_cons.mpr ⟨?_, ?_⟩⟩
  · exact .inl (by decide)
  · exact List.forall_mem_singleton.mpr trivial

end InertialSense.FlashConfig
