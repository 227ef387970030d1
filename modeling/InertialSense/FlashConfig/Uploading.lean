import InertialSense.Foundation.Stretches
import InertialSense.FlashConfig.Synced

/-! What `SetFlashConfig` sends: the stretches of words in which the new configuration differs from
the local copy. -/

namespace InertialSense.FlashConfig

open Foundation DataLog

/-- A part of the configuration. -/
structure Segment where
  offset : Nat
  data : List UInt8

def Segment.request (segment : Segment) : Request := .sendData segment.offset segment.data

/-- The word at this index begins in the segment. -/
def Segment.Holds (segment : Segment) (index : Nat) : Prop :=
  segment.offset ≤ 4 * index ∧ 4 * index < segment.offset + segment.data.length

def Segment.word (segment : Segment) (index : Nat) : UInt32 :=
  wordAt (fun k => segment.data.getD k 0) (4 * index - segment.offset)

def writeAll (struct : Struct) (segments : List Segment) : Struct :=
  segments.foldl (fun mem segment => store mem segment.offset segment.data) struct

/-- The index of `platformConfig` among the words. -/
def platformConfigIndex : Nat := 34

/-- The configuration asks for an update of `ioConfig`. -/
def UpdateRequested (flashCfg : Struct) : Prop :=
  wordAt flashCfg platformConfigOffset &&& platformCfgUpdateIoConfig ≠ 0

instance (flashCfg : Struct) : Decidable (UpdateRequested flashCfg) := inferInstanceAs (Decidable (_ ≠ _))

/-- The configuration without the bit that is not saved. -/
def saved (flashCfg : Struct) : Struct :=
  setWord flashCfg platformConfigOffset
    (wordAt flashCfg platformConfigOffset &&& ~~~platformCfgUpdateIoConfig)

/-- The segments are those words in which a new configuration differs from the current one. -/
structure Covers (current new : Struct) (segments : List Segment) : Prop where
  nonempty : ∀ segment ∈ segments, segment.data ≠ []
  aligned : ∀ segment ∈ segments, 4 ∣ segment.offset ∧ 4 ∣ segment.data.length
  inside : ∀ segment ∈ segments, 8 ≤ segment.offset ∧ segment.offset + segment.data.length ≤ flashCfgSize
  disjoint : segments.Pairwise fun first second => first.offset + first.data.length ≤ second.offset
  exact : ∀ index, 2 ≤ index → index < flashCfgWords →
    ((∃ segment ∈ segments, segment.Holds index) ↔
      wordAt (saved new) (4 * index) ≠ wordAt (saved current) (4 * index))
  written : window (saved (writeAll current segments)) 8 (flashCfgSize - 8) =
    window (saved new) 8 (flashCfgSize - 8)
  updateIoConfig : ∀ segment ∈ segments, segment.Holds platformConfigIndex →
    (segment.word platformConfigIndex &&& platformCfgUpdateIoConfig ≠ 0 ↔ UpdateRequested new)

/-! ### The bit -/

theorem and_or_not (value bit : UInt32) : value &&& ~~~bit ||| value &&& bit = value := by
  apply UInt32.toBitVec_inj.mp
  rw [UInt32.toBitVec_or, UInt32.toBitVec_and, UInt32.toBitVec_and, UInt32.toBitVec_not,
    ← BitVec.and_or_distrib_left, BitVec.or_comm, BitVec.or_not_self, BitVec.and_allOnes]

/-- The mask is a single bit. -/
theorem and_updateIoConfig (value : UInt32) : value &&& platformCfgUpdateIoConfig = 0 ∨
    value &&& platformCfgUpdateIoConfig = platformCfgUpdateIoConfig := by
  have bit : platformCfgUpdateIoConfig.toBitVec = BitVec.twoPow 32 24 := by decide
  have cases := BitVec.and_twoPow value.toBitVec 24
  split at cases
  · right
    apply UInt32.toBitVec_inj.mp
    rw [UInt32.toBitVec_and, bit, cases]
  · left
    apply UInt32.toBitVec_inj.mp
    rw [UInt32.toBitVec_and, bit, cases]
    rfl

section Saved

variable {flashCfg : Struct} {place index : Nat}

theorem setWord_outside (struct : Struct) {start : Nat} (value : UInt32)
    (outside : place < start ∨ start + 4 ≤ place) : setWord struct start value place = struct place :=
  store_outside struct (by rwa [toBytes_length])

theorem setWord_self (struct : Struct) (start : Nat) : setWord struct start (wordAt struct start) = struct := by
  unfold setWord
  rw [toBytes_wordAt, store_window_self]

theorem setWord_back (struct : Struct) (start : Nat) (value : UInt32) :
    setWord (setWord struct start value) start (wordAt struct start) = struct := by
  funext place
  by_cases inside : start ≤ place ∧ place < start + 4
  · have self := congrFun (setWord_self struct start) place
    unfold setWord store at self ⊢
    rw [if_pos inside.1] at self ⊢
    rw [List.getElem?_eq_getElem (by rw [toBytes_length]; omega)] at self ⊢
    exact self
  · rw [setWord_outside _ _ (by omega), setWord_outside _ _ (by omega)]

theorem saved_of_not_requested (plain : ¬UpdateRequested flashCfg) : saved flashCfg = flashCfg := by
  unfold saved
  have whole := and_or_not (wordAt flashCfg platformConfigOffset) platformCfgUpdateIoConfig
  rw [Classical.not_not.mp plain, UInt32.or_zero] at whole
  rw [whole, setWord_self]

/-- The bit is applied again. -/
theorem reapplied (requested : UpdateRequested flashCfg) :
    setWord (saved flashCfg) platformConfigOffset
      (wordAt (saved flashCfg) platformConfigOffset ||| platformCfgUpdateIoConfig) = flashCfg := by
  have whole := and_or_not (wordAt flashCfg platformConfigOffset) platformCfgUpdateIoConfig
  rw [(and_updateIoConfig _).resolve_left requested] at whole
  unfold saved
  rw [wordAt_setWord, whole, setWord_back]

theorem saved_outside (flashCfg : Struct)
    (outside : place < platformConfigOffset ∨ platformConfigOffset + 4 ≤ place) :
    saved flashCfg place = flashCfg place := setWord_outside _ _ outside

theorem wordAt_saved (flashCfg : Struct) (index : Nat) : wordAt (saved flashCfg) (4 * index) =
    if index = platformConfigIndex then wordAt flashCfg (4 * index) &&& ~~~platformCfgUpdateIoConfig
    else wordAt flashCfg (4 * index) := by
  split
  case isTrue here =>
    subst here
    exact wordAt_setWord ..
  case isFalse other =>
    refine wordAt_setWord_disjoint flashCfg _ ?_
    unfold platformConfigIndex platformConfigOffset at *
    omega

/-- What is saved of two configurations is the same where they have the same word. -/
theorem wordAt_saved_congr {other : Struct} (same : wordAt flashCfg (4 * index) = wordAt other (4 * index)) :
    wordAt (saved flashCfg) (4 * index) = wordAt (saved other) (4 * index) := by
  rw [wordAt_saved, wordAt_saved, same]

end Saved

/-! ### The scan -/

/-- `SetFlashConfig` compares the words so. -/
def Differs (current new : Struct) (index : Nat) : Prop :=
  wordAt (saved new) (4 * index) ≠ wordAt current (4 * index)

instance (current new : Struct) : DecidablePred (Differs current new) :=
  fun _ => inferInstanceAs (Decidable (_ ≠ _))

/-- The part of a configuration with these words. -/
def segmentOf (flashCfg : Struct) (stretch : Stretch) : Segment :=
  ⟨4 * stretch.head, window flashCfg (4 * stretch.head) (4 * stretch.tail - 4 * stretch.head)⟩

/-- The configuration is what is saved of the new one, or the bit is applied again because the platform
configuration has been sent. -/
def Ahead (new : Struct) (index : Nat) (flashCfg : Struct) : Prop :=
  flashCfg = saved new ∨ flashCfg = new ∧ platformConfigIndex < index

section Scan

variable {current new flashCfg : Struct} {index : Nat}

theorem Ahead.mono (ahead : Ahead new index flashCfg) {later : Nat} (le : index ≤ later) :
    Ahead new later flashCfg :=
  ahead.imp_right fun ⟨same, behind⟩ => ⟨same, Nat.lt_of_lt_of_le behind le⟩

/-- The words that are still to be compared have no bit. -/
theorem Ahead.word (ahead : Ahead new index flashCfg) {later : Nat} (le : index ≤ later) :
    wordAt flashCfg (4 * later) = wordAt (saved new) (4 * later) := by
  obtain rfl | ⟨rfl, behind⟩ := ahead
  · rfl
  · rw [wordAt_saved, if_neg (by omega)]

theorem mismatchEnd_eq (ahead : Ahead new index flashCfg) :
    mismatchEnd flashCfg current index = stretchEnd (Differs current new) flashCfgWords index := by
  induction index using mismatchEnd.induct flashCfg current with
  | case1 index here ih =>
    have differs : Differs current new index := by
      unfold Differs
      rw [← ahead.word (Nat.le_refl index)]
      exact here.2
    rw [mismatchEnd, if_pos here, stretchEnd, if_pos ⟨here.1, differs⟩]
    exact ih (ahead.mono (Nat.le_succ index))
  | case2 index other =>
    rw [mismatchEnd, if_neg other, stretchEnd, if_neg]
    unfold Differs
    rwa [← ahead.word (Nat.le_refl index)]

theorem send_eq (u : Uploading) (upload : Upload) {stretch : Stretch}
    (wide : stretch.head < stretch.tail) (ahead : Ahead new stretch.head u.flashCfg) :
    let after := u.send upload (UpdateRequested new) stretch.head stretch.tail
    after.sent = u.sent ++ [(segmentOf new stretch).request] ∧ Ahead new stretch.tail after.flashCfg ∧
      after.uploadTimeMs = upload.currentTimeMs stretch.head := by
  have begins : 4 * stretch.head ≤ platformConfigOffset ↔ stretch.head ≤ platformConfigIndex := by
    unfold platformConfigOffset platformConfigIndex
    omega
  have ends : platformConfigOffset < 4 * stretch.tail ↔ platformConfigIndex < stretch.tail := by
    unfold platformConfigOffset platformConfigIndex
    omega
  unfold Uploading.send
  dsimp only
  by_cases reapply : UpdateRequested new ∧ stretch.head ≤ platformConfigIndex ∧
      platformConfigIndex < stretch.tail
  · have plain : u.flashCfg = saved new :=
      ahead.resolve_right fun ⟨_, behind⟩ => by omega
    rw [if_pos ⟨decide_eq_true reapply.1, begins.mpr reapply.2.1, ends.mpr reapply.2.2⟩, plain, reapplied reapply.1]
    exact ⟨rfl, .inr ⟨rfl, reapply.2.2⟩, rfl⟩
  · rw [if_neg fun ⟨requested, before, after⟩ =>
      reapply ⟨of_decide_eq_true requested, begins.mp before, ends.mp after⟩]
    have same : window u.flashCfg (4 * stretch.head) (4 * stretch.tail - 4 * stretch.head) =
        (segmentOf new stretch).data := by
      obtain plain | ⟨rfl, -⟩ := ahead
      · rw [plain]
        by_cases requested : UpdateRequested new
        · have apart : ¬(stretch.head ≤ platformConfigIndex ∧ platformConfigIndex < stretch.tail) :=
            fun both => reapply ⟨requested, both⟩
          refine window_congr fun k small => saved_outside new ?_
          unfold platformConfigIndex platformConfigOffset at *
          omega
        · rw [saved_of_not_requested requested]
          rfl
      · rfl
    rw [same]
    refine ⟨rfl, ?_, rfl⟩
    obtain plain | ⟨rfl, behind⟩ := ahead
    · exact .inl plain
    · exact .inr ⟨rfl, behind.trans wide⟩

theorem uploadMismatches_eq (u : Uploading) (upload : Upload) (ahead : Ahead new index u.flashCfg) :
    let after := uploadMismatches upload (UpdateRequested new) current u index
    let found := stretches (Differs current new) flashCfgWords index
    after.sent = u.sent ++ found.map (fun stretch => (segmentOf new stretch).request) ∧
      (after.flashCfg = saved new ∨ after.flashCfg = new) ∧
      ((∀ k, upload.currentTimeMs k ≠ 0) → u.uploadTimeMs ≠ 0 ∨ found ≠ [] → after.uploadTimeMs ≠ 0) := by
  induction index using stretches.induct (Differs current new) flashCfgWords generalizing u with
  | case1 index inside here ih =>
    have differs : wordAt u.flashCfg (4 * index) ≠ wordAt current (4 * index) := by
      rw [ahead.word (Nat.le_refl index)]
      exact here
    obtain ⟨sent, further, time⟩ := @send_eq new u upload ⟨index, _⟩ (lt_stretchEnd inside here) ahead
    rw [uploadMismatches, if_pos inside, if_pos differs, stretches, if_pos inside, if_pos here,
      mismatchEnd_eq ahead]
    obtain ⟨all, left, busy⟩ := ih _ (further.mono (Nat.le_succ _))
    refine ⟨?_, left, fun clock _ => busy clock (.inl ?_)⟩
    · rw [all, sent, List.append_assoc]
      rfl
    · rw [time]
      exact clock index
  | case2 index inside other ih =>
    have same : ¬wordAt u.flashCfg (4 * index) ≠ wordAt current (4 * index) := by
      rw [ahead.word (Nat.le_refl index)]
      exact other
    rw [uploadMismatches, if_pos inside, if_neg same, stretches, if_pos inside, if_neg other]
    exact ih u (ahead.mono (Nat.le_succ index))
  | case3 index outside =>
    rw [uploadMismatches, if_neg outside, stretches, if_neg outside]
    refine ⟨(List.append_nil _).symm, ahead.imp_right And.left, fun _ busy => ?_⟩
    exact busy.resolve_right fun none => none rfl

end Scan

/-! ### What is sent -/

section Segments

variable {current scanned new : Struct} {stretch : Stretch} {index : Nat}

theorem segmentOf_length (new : Struct) (stretch : Stretch) :
    (segmentOf new stretch).data.length = 4 * stretch.tail - 4 * stretch.head := window_length ..

theorem segmentOf_holds : (segmentOf new stretch).Holds index ↔ stretch.Has index := by
  unfold Segment.Holds Stretch.Has
  rw [segmentOf_length]
  show 4 * stretch.head ≤ _ ∧ _ < 4 * stretch.head + _ ↔ _
  omega

theorem segmentOf_word (has : stretch.Has index) : (segmentOf new stretch).word index = wordAt new (4 * index) := by
  obtain ⟨begins, ends⟩ := has
  unfold Segment.word wordAt
  congr 2
  refine window_congr fun k small => ?_
  show (window new (4 * stretch.head) _).getD (4 * index - 4 * stretch.head + k) 0 = _
  rw [List.getD_eq_getElem?_getD, getElem?_window _ (by omega), Option.getD_some]
  congr 1
  omega

theorem wordAt_writeAll_apart {found : List Stretch} (apart : ∀ stretch ∈ found, ¬stretch.Has index) :
    wordAt (writeAll current (found.map (segmentOf new))) (4 * index) = wordAt current (4 * index) := by
  induction found generalizing current with
  | nil => rfl
  | cons stretch rest ih =>
    obtain ⟨here, later⟩ := List.forall_mem_cons.mp apart
    refine (ih later).trans ?_
    unfold wordAt
    rw [window_store_disjoint]
    rw [segmentOf_length]
    show _ ≤ 4 * stretch.head ∨ 4 * stretch.head + _ ≤ _
    unfold Stretch.Has at here
    omega

theorem wordAt_writeAll {found : List Stretch} (held : ∃ stretch ∈ found, stretch.Has index) :
    wordAt (writeAll current (found.map (segmentOf new))) (4 * index) = wordAt new (4 * index) := by
  induction found generalizing current with
  | nil => exact absurd held nofun
  | cons stretch rest ih =>
    by_cases later : ∃ stretch ∈ rest, stretch.Has index
    · exact ih later
    · have here := ((List.exists_mem_cons_iff ..).mp held).resolve_right later
      refine (wordAt_writeAll_apart fun other member has => later ⟨other, member, has⟩).trans ?_
      obtain ⟨begins, ends⟩ := here
      unfold wordAt
      congr 2
      refine window_congr fun k small => (store_window current new (4 * stretch.head) _ _).trans (if_pos ?_)
      omega

theorem window_eq_of_words {struct other : Struct}
    (same : ∀ index, 2 ≤ index → index < flashCfgWords → wordAt struct (4 * index) = wordAt other (4 * index)) :
    window struct 8 (flashCfgSize - 8) = window other 8 (flashCfgSize - 8) := by
  refine window_eq_iff.mpr fun place inside => ?_
  have words := same (place / 4) (by omega) (by unfold flashCfgWords flashCfgSize at *; omega)
  have cells := cell_of_window_eq (wordAt_inj.mp words) (Nat.mod_lt place (by decide : 0 < 4))
  rwa [Nat.div_add_mod] at cells

theorem covers_stretches (clear : ¬UpdateRequested current)
    (same : ∀ index, 2 ≤ index → wordAt scanned (4 * index) = wordAt current (4 * index)) :
    Covers current new ((stretches (Differs scanned new) flashCfgWords 2).map (segmentOf new)) := by
  have cover (index : Nat) (behind : 2 ≤ index) (inside : index < flashCfgWords) :
      (∃ stretch ∈ stretches (Differs scanned new) flashCfgWords 2, stretch.Has index) ↔
        wordAt (saved new) (4 * index) ≠ wordAt (saved current) (4 * index) := by
    rw [stretches_cover behind, and_iff_right inside, saved_of_not_requested clear, ← same index behind]
    rfl
  refine ⟨?nonempty, ?aligned, ?inside, ?disjoint, ?exact, ?written, ?updateIoConfig⟩
  case nonempty =>
    refine List.forall_mem_map.mpr fun stretch found => ?_
    have wide := (stretches_inside found).2.1
    refine List.ne_nil_of_length_pos ?_
    rw [segmentOf_length]
    omega
  case aligned =>
    refine List.forall_mem_map.mpr fun stretch found => ?_
    rw [segmentOf_length, ← Nat.mul_sub]
    exact ⟨Nat.dvd_mul_right .., Nat.dvd_mul_right ..⟩
  case inside =>
    refine List.forall_mem_map.mpr fun stretch found => ?_
    obtain ⟨first, wide, last⟩ := stretches_inside found
    rw [segmentOf_length]
    show 8 ≤ 4 * stretch.head ∧ 4 * stretch.head + _ ≤ _
    unfold flashCfgWords at last
    omega
  case disjoint =>
    refine List.pairwise_map.mpr ((stretches_apart 2).imp_of_mem fun found _ apart => ?_)
    have wide := (stretches_inside found).2.1
    rw [segmentOf_length]
    show 4 * _ + _ ≤ 4 * _
    omega
  case exact =>
    intro index behind inside
    rw [← cover index behind inside]
    simp only [List.mem_map, exists_exists_and_eq_and, segmentOf_holds]
  case written =>
    refine window_eq_of_words fun index behind inside => ?_
    by_cases held : ∃ stretch ∈ stretches (Differs scanned new) flashCfgWords 2, stretch.Has index
    · exact wordAt_saved_congr (wordAt_writeAll held)
    · have equal := Classical.not_not.mp ((cover index behind inside).not.mp held)
      rw [equal]
      exact wordAt_saved_congr (wordAt_writeAll_apart fun stretch found has => held ⟨stretch, found, has⟩)
  case updateIoConfig =>
    refine List.forall_mem_map.mpr fun stretch found holds => ?_
    rw [segmentOf_word (segmentOf_holds.mp holds)]
    rfl

end Segments

theorem updateFlashConfigChecksum_eq {flashCfg : Struct} (plain : ¬UpdateRequested flashCfg) :
    updateFlashConfigChecksum flashCfg =
      setWord flashCfg checksumOffset (flashChecksum32 flashCfg flashCfgSize) := by
  have same := saved_of_not_requested plain
  unfold saved at same
  have kept : ¬(wordAt flashCfg platformConfigOffset &&& platformCfgUpdateIoConfig ≠ 0) := plain
  unfold updateFlashConfigChecksum
  dsimp only
  rw [if_neg kept, same]

/-- What is sent covers exactly the differences, and the local copy is what the device is to have. -/
theorem setFlashConfig_covers (s : Sync) (upload : Upload) (new : Struct)
    (clear : ¬UpdateRequested s.flashCfg) :
    ∃ segments, (s.setFlashConfig upload new).2.2.2 = segments.map Segment.request ∧
      Covers s.flashCfg new segments ∧
      (¬UpdateRequested new → (s.setFlashConfig upload new).1.flashCfg =
        setWord new checksumOffset (flashChecksum32 new flashCfgSize)) ∧
      ((∀ head, upload.currentTimeMs head ≠ 0) → segments ≠ [] →
        (s.setFlashConfig upload new).1.flashCfgUploadChecksum =
          (s.setFlashConfig upload new).1.checksum) := by
  let current := setWord s.flashCfg checksumOffset (flashChecksum32 s.flashCfg flashCfgSize)
  have same (index : Nat) (behind : 2 ≤ index) :
      wordAt current (4 * index) = wordAt s.flashCfg (4 * index) :=
    wordAt_setWord_disjoint _ _ (.inr (by unfold checksumOffset; omega))
  obtain ⟨sent, left, busy⟩ := @uploadMismatches_eq current new 2
    { flashCfg := saved new, uploadTimeMs := s.flashCfgUploadTimeMs, failure := false, sent := [] } upload
    (.inl rfl)
  refine ⟨(stretches (Differs current new) flashCfgWords 2).map (segmentOf new), ?_,
    covers_stretches clear same, fun plain => ?_, fun clock some => ?_⟩
  · rw [List.map_map]
    exact sent
  · have kept := left.elim (fun saved => saved.trans (saved_of_not_requested plain)) id
    exact (congrArg updateFlashConfigChecksum kept).trans (updateFlashConfigChecksum_eq plain)
  · exact if_pos (busy clock (.inr fun none => some (by rw [none]; rfl)))

def keyConfig : Struct := setWord (fun _ => 0) 8 7

/-- A clock that stands still and a port that takes everything. -/
def calmUpload : Upload := ⟨fun _ => 1, fun _ => false⟩

theorem setFlashConfig_covers_key :
    ¬UpdateRequested freshDevice.flashCfg ∧ ¬UpdateRequested keyConfig ∧
      ∃ segments, (freshDevice.setFlashConfig calmUpload keyConfig).2.2.2 = segments.map Segment.request ∧
        Covers freshDevice.flashCfg keyConfig segments ∧
        (freshDevice.setFlashConfig calmUpload keyConfig).1.flashCfg =
          setWord keyConfig checksumOffset (flashChecksum32 keyConfig flashCfgSize) := by
  have clear : ¬UpdateRequested freshDevice.flashCfg := by decide
  have plain : ¬UpdateRequested keyConfig := by decide
  obtain ⟨segments, sent, covers, copy, -⟩ := setFlashConfig_covers freshDevice calmUpload keyConfig clear
  exact ⟨clear, plain, segments, sent, covers, copy plain⟩

end InertialSense.FlashConfig
