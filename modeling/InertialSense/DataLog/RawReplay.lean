import InertialSense.DataLog.Raw

/-! What a RAW log is read as: the packets of its bytes, one after another, with the data that
lies in the parser's buffer where `ReadDataFromChunk` looks for it. -/

namespace InertialSense.DataLog.Raw

open Foundation

/-- The bytes, given to the parser one by one, are packets of data and nothing else; the states
are those right behind a packet, the last one is the state behind all bytes. -/
inductive Receives : Comm.Instance → List UInt8 → List Comm.Instance → Comm.Instance → Prop where
  | nil (c : Comm.Instance) : Receives c [] [] c
  | silent {c final : Comm.Instance} {byte : UInt8} {bytes : List UInt8}
      {states : List Comm.Instance} (quiet : (c.isCommParseByte byte).2 = .none)
      (rest : Receives (c.isCommParseByte byte).1 bytes states final) :
      Receives c (byte :: bytes) states final
  | packet {c final : Comm.Instance} {byte : UInt8} {bytes : List UInt8}
      {states : List Comm.Instance} (found : (c.isCommParseByte byte).2 = .inertialSenseData)
      (rest : Receives (c.isCommParseByte byte).1 bytes states final) :
      Receives c (byte :: bytes) ((c.isCommParseByte byte).1 :: states) final

namespace Receives

variable {c middle final : Comm.Instance} {first second : List UInt8}
  {states more : List Comm.Instance}

theorem append (before : Receives c first states middle)
    (behind : Receives middle second more final) :
    Receives c (first ++ second) (states ++ more) final := by
  induction before with
  | nil => exact behind
  | silent quiet rest ih => exact silent quiet (ih behind)
  | packet found rest ih => exact packet found (ih behind)

end Receives

/-- A `DATA` packet with this header and this data, as the encoder builds it. -/
def Encodes (packet : Record) (bytes : List UInt8) : Prop :=
  ∃ flags : UInt8, flags &&& Comm.pktTypeMask = Comm.pktTypeData ∧
    flags &&& Comm.isbFlagsPayloadWOffset = 0 ∧
    (Comm.Request.write flags packet.hdr.id.toUInt16 packet.hdr.offset packet.data).Builds bytes

/-- The parser right behind each of these packets. -/
def receivers : Comm.Instance → List (List UInt8) → List Comm.Instance
  | _, [] => []
  | c, encoding :: rest =>
    let next := (run Comm.Instance.parseByte c encoding).1
    next :: receivers next rest

section Frames

variable {c : Comm.Instance} {packet : Record} {bytes : List UInt8}

/-- Bytes of which only the last one brings a packet. -/
theorem receives_of_outputs {report : Comm.Report} (data : report.ptype = .inertialSenseData)
    {count : Nat} (outputs : (run Comm.Instance.parseByte c bytes).2 =
      List.replicate count [] ++ [[report]]) :
    Receives c bytes [(run Comm.Instance.parseByte c bytes).1]
      (run Comm.Instance.parseByte c bytes).1 := by
  induction count generalizing c bytes with
  | zero =>
    obtain _ | ⟨byte, bytes⟩ := bytes
    · cases outputs
    · obtain ⟨now, later⟩ := List.cons.inj outputs
      have length := congrArg List.length later
      rw [run_length] at length
      obtain rfl := List.length_eq_zero_iff.mp length
      have found : (c.isCommParseByte byte).2 = .inertialSenseData := by
        change Comm.Instance.outputs _ = [report] at now
        unfold Comm.Instance.outputs at now
        split at now
        · cases now
        · exact (congrArg Comm.Report.ptype (List.cons.inj now).1).trans data
      exact .packet found (.nil _)
  | succ count ih =>
    obtain _ | ⟨byte, bytes⟩ := bytes
    · cases outputs
    · obtain ⟨now, later⟩ := List.cons.inj outputs
      have quiet : (c.isCommParseByte byte).2 = .none := by
        change Comm.Instance.outputs _ = [] at now
        unfold Comm.Instance.outputs at now
        split at now
        case isTrue quiet => exact quiet
        case isFalse => cases now
      exact .silent quiet (ih later)

theorem rxRecord_of_report {flags : UInt8}
    (still : c.report .inertialSenseData =
      (Comm.Request.write flags packet.hdr.id.toUInt16 packet.hdr.offset packet.data).report)
    (header : c.rxPkt.hdrId.toNat = c.rxPkt.id ∧ c.rxPkt.payloadSize = c.rxPkt.dataSize ∧
      (c.rxPkt.dataPtr = none → c.rxPkt.dataSize = 0)) : rxRecord c = packet := by
  obtain ⟨id, size, missing⟩ := header
  have view := Option.some.inj (congrArg Comm.Report.packet still)
  have viewId : c.rxPkt.id = packet.hdr.id.toUInt16.toNat := congrArg Comm.View.id view
  have viewOffset : c.rxPkt.offset = packet.hdr.offset.toNat := congrArg Comm.View.offset view
  have viewData : c.packetData = packet.data := congrArg Comm.View.data view
  have data : window c.mem (c.rxPkt.dataPtr.getD 0) c.rxPkt.dataSize = packet.data := by
    rw [← viewData]
    unfold Comm.Instance.packetData
    cases pointer : c.rxPkt.dataPtr with
    | none =>
      rw [missing pointer]
      rfl
    | some ptr => rfl
  have length : c.rxPkt.dataSize = packet.hdr.size.toNat := by
    rw [← packet.sized, ← data, window_length]
  have hdr : rxDataHdr c = packet.hdr := by
    have same : c.rxPkt.hdrId = packet.hdr.id := by
      rw [← UInt8.toNat_inj, id, viewId, UInt8.toNat_toUInt16]
    unfold rxDataHdr
    rw [same, size, length, viewOffset, UInt16.ofNat_toNat, UInt16.ofNat_toNat]
  apply Record.ext hdr
  show window c.mem (c.rxPkt.dataPtr.getD 0 + 0) (rxDataHdr c).size.toNat = packet.data
  rw [hdr, ← length, Nat.add_zero, data]

/-- The header, the offset and the checksum take ten bytes at most. -/
theorem encodes_length (encodes : Encodes packet bytes) :
    bytes.length ≤ packet.data.length + 10 := by
  obtain ⟨flags, -, -, bufSize, comm, dataSize, -, written⟩ := encodes
  unfold Comm.isCommWriteToBuf Comm.isCommWriteIsbPrecompToBuffer at written
  split at written
  · cases written
  · rw [← Option.some.inj written]
    simp only [List.length_append, Comm.headerBytes, Comm.wordBytes, List.length_cons,
      List.length_nil]
    show 4 + 2 + _ + packet.data.length + 2 ≤ packet.data.length + 10
    split
    · show 4 + 2 + 2 + packet.data.length + 2 ≤ _
      omega
    · show 4 + 2 + 0 + packet.data.length + 2 ≤ _
      omega

theorem receives_packet {enabledMask : UInt32}
    (enabled : enabledMask &&& Comm.Processor.isb.enableBit ≠ 0) (encodes : Encodes packet bytes)
    (small : packet.data.length ≤ Comm.maxDatasetSize)
    (boundary : Comm.Boundary Comm.pktBufSize enabledMask c) :
    Receives c bytes [(run Comm.Instance.parseByte c bytes).1]
        (run Comm.Instance.parseByte c bytes).1 ∧
      Comm.Boundary Comm.pktBufSize enabledMask (run Comm.Instance.parseByte c bytes).1 ∧
      rxRecord (run Comm.Instance.parseByte c bytes).1 = packet := by
  obtain ⟨flags, data, plain, built⟩ := encodes
  have admissible : (Comm.Request.write flags packet.hdr.id.toUInt16 packet.hdr.offset
      packet.data).Admissible := by
    refine ⟨?_, plain, .inr (.inl ⟨?_, small⟩)⟩
    · rw [UInt8.toNat_toUInt16]
      exact packet.hdr.id.toNat_lt
    · rw [data]
      decide
  have encodes' : Encodes packet bytes := ⟨flags, data, plain, built⟩
  have length : bytes.length ≤ Comm.maxDatasetSize + 10 :=
    (encodes_length encodes').trans (Nat.add_le_add_right small 10)
  have conforms := Comm.Request.builds_conforms Comm.pktBufSize admissible built
    (length.trans (by decide))
  obtain ⟨outputs, after⟩ := Comm.run_frame_last Comm.parseByte_feedsOnce conforms
    (length.trans (by decide)) enabled boundary
  have ptype : (Comm.Request.write flags packet.hdr.id.toUInt16 packet.hdr.offset
      packet.data).report.ptype = .inertialSenseData := by
    show Comm.pktProtocol (flags &&& Comm.pktTypeMask) = _
    rw [data]
    rfl
  refine ⟨receives_of_outputs ptype outputs, after.toBoundary, ?_⟩
  have header := after.header rfl (by rw [ptype]; decide)
  have still := after.still
  generalize (run Comm.Instance.parseByte c bytes).1 = d at *
  rw [ptype] at still
  exact rxRecord_of_report still header

theorem receives_packets {enabledMask : UInt32}
    (enabled : enabledMask &&& Comm.Processor.isb.enableBit ≠ 0) {packets : List Record}
    {encodings : List (List UInt8)} (encodes : List.Forall₂ Encodes packets encodings)
    (small : ∀ packet ∈ packets, packet.data.length ≤ Comm.maxDatasetSize)
    (boundary : Comm.Boundary Comm.pktBufSize enabledMask c) :
    (∃ final, Receives c encodings.flatten (receivers c encodings) final) ∧
      (receivers c encodings).map rxRecord = packets := by
  induction encodes generalizing c with
  | nil => exact ⟨⟨c, .nil c⟩, rfl⟩
  | cons encoded rest ih =>
    obtain ⟨receives, after, same⟩ := receives_packet enabled encoded (small _ (.head _)) boundary
    obtain ⟨⟨final, later⟩, others⟩ :=
      ih (fun packet member => small packet (.tail _ member)) after
    exact ⟨⟨final, receives.append later⟩, congrArg₂ List.cons same others⟩

end Frames

section Writing

open DeviceLog

/-- A `DID_DEV_INFO` packet that leaves the serial number of the device as it is. -/
def KeepsSerial (device : Option Device) (packet : Record) : Prop :=
  packet.hdr.id = didDevInfo → ∀ d, device = some d → ∀ devInfo,
    copyDataPToStructP2 d.devInfo packet devInfoSize = some devInfo →
      wordAt devInfo serialNumberOffset = d.serialNumber

/-- Without a device the serial number is that of the log. -/
theorem keepsSerial_none (packet : Record) : KeepsSerial none packet :=
  fun _ _ missing => nomatch missing

theorem KeepsSerial.of_same {device device' : Option Device} {packet : Record}
    (keeps : KeepsSerial device packet)
    (same : device'.map Device.serialNumber = device.map Device.serialNumber) :
    KeepsSerial device' packet := by
  intro id d' some' devInfo' copied
  subst some'
  obtain ⟨d, rfl, serial⟩ := Option.map_eq_some_iff.mp same.symm
  unfold copyDataPToStructP2 at copied
  split at copied
  case isFalse => cases copied
  case isTrue fits =>
    have kept := keeps id d rfl _ (if_pos fits)
    have stored := window_store_congr (wordAt_inj.mp serial) packet.hdr.offset.toNat packet.data
    rw [← Option.some.inj copied, ← wordAt_inj.mpr stored, kept, serial]

variable {log : DeviceLog} {blocks : List (List UInt8)}

theorem saveDevInfo_fileCount (log : DeviceLog) (record : Record) :
    (log.saveDevInfo record).fileCount = log.fileCount := by
  unfold DeviceLog.saveDevInfo
  dsimp only
  split
  · rfl
  · split <;> rfl

theorem saveDevInfo_holds {record : Record} (holds : log.Holds raw blocks)
    (keeps : KeepsSerial log.device record) (id : record.hdr.id = didDevInfo) :
    (log.saveDevInfo record).Holds raw blocks ∧
      (log.saveDevInfo record).device.map Device.serialNumber =
        log.device.map Device.serialNumber := by
  unfold DeviceLog.saveDevInfo
  dsimp only
  split
  case h_1 => exact ⟨holds, rfl⟩
  case h_2 devInfo copied =>
    have serial : (log.device.map fun device =>
        ({ device with devInfo } : Device)).map Device.serialNumber =
          log.device.map Device.serialNumber := by
      cases device : log.device with
      | none => rfl
      | some d =>
        rw [device] at copied
        exact congrArg some (keeps id d device devInfo copied)
    have same : ({ log with
        device := log.device.map fun device => { device with devInfo } } : DeviceLog).serNum =
          log.serNum := by
      unfold serNum
      cases device : log.device with
      | none => rfl
      | some d =>
        rw [device] at serial
        exact Option.some.inj serial
    split
    · exact ⟨holds.setDevice _ same, serial⟩
    · exact ⟨holds.setDevice log.chunk.hdr.devSerialNum same, serial⟩

theorem saveByte_fileCount (log : RawLog) (byte : UInt8) :
    (saveByte log byte).fileCount = log.fileCount := by
  unfold saveByte
  dsimp only
  split
  · exact saveDevInfo_fileCount ..
  · rfl

theorem saveBytes_fileCount (log : RawLog) (bytes : List UInt8) :
    (bytes.foldl saveByte log).fileCount = log.fileCount := by
  induction bytes generalizing log with
  | nil => rfl
  | cons byte rest ih => exact (ih _).trans (saveByte_fileCount log byte)

theorem saveData_fileCount (log : RawLog) (dataBuf : List UInt8) :
    log.fileCount ≤ (saveData log dataBuf).1.fileCount := by
  show _ ≤ (DeviceLog.saveBlocks raw _ _ _).1.fileCount
  rw [saveBlocks_fileCount, ← saveBytes_fileCount log dataBuf]
  exact ensureRoom_fileCount ..

theorem run_saveData_fileCount (log : RawLog) (pieces : List (List UInt8)) :
    log.fileCount ≤ (run saveData log pieces).1.fileCount := by
  induction pieces generalizing log with
  | nil => exact Nat.le_refl _
  | cons piece rest ih => exact (saveData_fileCount log piece).trans (ih _)

/-- A log whose parser finds these packets in the bytes to come, none of which changes the serial
number. -/
structure Ready (log : RawLog) (blocks : List (List UInt8)) (bytes : List UInt8)
    (states : List Comm.Instance) (final : Comm.Instance) : Prop where
  holds : log.toDeviceLog.Holds raw blocks
  receives : Receives log.comm bytes states final
  keeps : ∀ c ∈ states, KeepsSerial log.device (rxRecord c)

variable {log : RawLog} {bytes : List UInt8} {states : List Comm.Instance}
  {final : Comm.Instance}

/-- The parser looks at the bytes before they go into the chunk. -/
theorem Ready.saveByte {byte : UInt8} (ready : Ready log blocks (byte :: bytes) states final) :
    ∃ later, Ready (saveByte log byte) blocks bytes later final := by
  obtain ⟨holds, receives, keeps⟩ := ready
  unfold Raw.saveByte
  cases receives with
  | silent quiet rest =>
    have other : ¬IsData (log.comm.isCommParseByte byte).2 := by
      rw [quiet]
      decide
    dsimp only
    rw [if_neg fun both => other both.1]
    exact ⟨_, holds, rest, keeps⟩
  | @packet _ _ _ _ later found rest =>
    have keepsLater (c : Comm.Instance) (member : c ∈ later) := keeps c (.tail _ member)
    dsimp only
    split
    case isFalse => exact ⟨later, holds, rest, keepsLater⟩
    case isTrue both =>
      obtain ⟨holds', same⟩ := saveDevInfo_holds holds (keeps _ (.head _)) both.2
      exact ⟨later, holds', rest, fun c member => (keepsLater c member).of_same same⟩

theorem Ready.saveBytes {first second : List UInt8}
    (ready : Ready log blocks (first ++ second) states final) :
    ∃ later, Ready (first.foldl Raw.saveByte log) blocks second later final := by
  induction first generalizing log states with
  | nil => exact ⟨states, ready⟩
  | cons byte rest ih =>
    obtain ⟨later, next⟩ := ready.saveByte
    exact ih next

/-- `SaveData` adds the piece it is given, wherever its packets begin and end. -/
theorem Ready.saveData {piece more : List UInt8}
    (ready : Ready log blocks (piece ++ more) states final)
    (short : piece.length ≤ defaultChunkDataSize)
    (fewer : (Raw.saveData log piece).1.fileCount < 10000) :
    ∃ blocks' later, blocks'.flatten = blocks.flatten ++ piece ∧
      Ready (Raw.saveData log piece).1 blocks' more later final := by
  obtain ⟨later, holds, receives, keeps⟩ := ready.saveBytes
  have device : (Raw.saveData log piece).1.device =
      (piece.foldl Raw.saveByte log).device := saveBlocks_device ..
  have keeps' : ∀ c ∈ later, KeepsSerial (Raw.saveData log piece).1.device (rxRecord c) := by
    rw [device]
    exact keeps
  obtain rfl | some := eq_or_ne piece []
  · rw [List.append_nil]
    exact ⟨blocks, later, rfl, holds.saveBlocks_nil fewer, receives, keeps'⟩
  · have block : piece ++ [] ≠ [] := by rwa [List.append_nil]
    refine ⟨blocks ++ [piece], later, ?_, ?_, receives, keeps'⟩
    · rw [List.flatten_append, List.flatten_singleton]
    · have added := holds.saveBlocks block short fewer
      rwa [List.append_nil] at added

theorem Ready.run {pieces : List (List UInt8)}
    (ready : Ready log blocks pieces.flatten states final)
    (short : ∀ piece ∈ pieces, piece.length ≤ defaultChunkDataSize)
    (fewer : (run Raw.saveData log pieces).1.fileCount < 10000) :
    ∃ blocks', blocks'.flatten = blocks.flatten ++ pieces.flatten ∧
      (run Raw.saveData log pieces).1.Holds raw blocks' := by
  induction pieces generalizing log blocks states with
  | nil => exact ⟨blocks, (List.append_nil _).symm, ready.holds⟩
  | cons piece rest ih =>
    rw [List.flatten_cons] at ready
    obtain ⟨blocks', later, all, next⟩ := ready.saveData (short _ (.head _))
      ((run_saveData_fileCount _ rest).trans_lt fewer)
    obtain ⟨blocks'', all', holds⟩ := ih next (fun piece member => short _ (.tail _ member)) fewer
    refine ⟨blocks'', ?_, holds⟩
    rw [all', all, List.flatten_cons, List.append_assoc]

end Writing

section Reading

open DeviceLog

/-- What the chunk of a reader holds: bytes. -/
def ChunkHolds (contents held : List UInt8) : Prop := contents = held

/-- What a file holds: bytes. -/
def FileBytes (file bytes : List UInt8) : Prop := file = bytes

/-- Chunks are as many bytes as the buffer takes. -/
theorem readsChunks : ReadsChunks ChunkHolds FileBytes raw.chunkHeader := by
  intro c rest items ordered holds
  obtain ⟨ordered', contents, left, good⟩ := Chunk.readFromFile_plain ordered.capacity rest
  obtain rfl : rest = items := holds
  refine ⟨ordered', _, left, ?_⟩
  obtain rfl | some := eq_or_ne rest []
  · exact .inr ⟨fun positive => good.mp positive rfl, rfl⟩
  · refine .inl ⟨good.mpr some, _, _, contents, rfl, (List.take_append_drop ..).symm, ?_⟩
    have capacity : 0 < defaultChunkDataSize := by decide
    intro none
    obtain zero | empty := List.take_eq_nil_iff.mp none
    · omega
    · exact some empty

variable {log : RawLog} {states : List Comm.Instance} {final : Comm.Instance}

/-- The chunk is given to the parser up to its first packet. -/
theorem readDataFromChunk_receives (ordered : log.chunk.Ordered) {more : List UInt8}
    (receives : Receives log.comm (log.chunk.contents ++ more) states final) :
    (readDataFromChunk log).1.chunk.Ordered ∧
      ((readDataFromChunk log).2 = none ∧ (readDataFromChunk log).1.chunk.contents = [] ∧
          Receives (readDataFromChunk log).1.comm more states final ∨
        ∃ c rest, states = c :: rest ∧ (readDataFromChunk log).2 = some (readRecord c) ∧
          Receives (readDataFromChunk log).1.comm
            ((readDataFromChunk log).1.chunk.contents ++ more) rest final) := by
  induction contents : log.chunk.contents generalizing log states with
  | nil =>
    have none : log.chunk.getDataSize ≤ 0 := by
      rw [ordered.getDataSize_eq, contents]
      exact Int.le_refl _
    rw [contents] at receives
    rw [readDataFromChunk, dif_pos none]
    exact ⟨ordered, .inl ⟨rfl, contents, receives⟩⟩
  | cons byte bytes ih =>
    have some : ¬log.chunk.getDataSize ≤ 0 := by
      rw [ordered.getDataSize_eq, contents, List.length_cons]
      omega
    have inside : 1 ≤ log.chunk.contents.length := by
      rw [contents, List.length_cons]
      omega
    obtain ⟨ordered', popped, -⟩ := ordered.popFront inside
    have first : log.chunk.buff log.chunk.dataHead = byte := Chunk.contents_head contents
    rw [contents] at receives popped
    have behind : (log.chunk.popFront 1).1.contents = bytes := popped
    rw [readDataFromChunk, dif_neg some, first]
    dsimp only
    cases receives with
    | silent quiet rest =>
      have other : ¬IsData (log.comm.isCommParseByte byte).2 := by
        rw [quiet]
        decide
      rw [if_neg other]
      exact ih ordered' (behind.symm ▸ rest) behind
    | packet found rest =>
      rw [if_pos (.inl found)]
      exact ⟨ordered', .inr ⟨_, _, rfl, rfl, behind.symm ▸ rest⟩⟩

/-- What a reader has still to return: the packets in its chunk, in the open file and in the
later ones. -/
def Remaining (log : RawLog) (states : List Comm.Instance) : Prop :=
  ∃ here later final,
    Receives log.comm (log.chunk.contents ++ (here ++ later.flatten)) states final ∧
      log.toDeviceLog.Unread FileBytes here later

/-- `ReadData` returns the next packet, and nothing if there is none. -/
theorem readData_remaining (remaining : Remaining log states) :
    (readData log).2 = states.head?.map readRecord ∧
      (states ≠ [] → Remaining (readData log).1 states.tail) := by
  obtain ⟨here, later, final, receives, unread⟩ := remaining
  induction size : (here ++ later.flatten).length using Nat.strong_induction_on
    generalizing log here later states with
  | h count ih =>
    obtain ⟨ordered, outcome⟩ := readDataFromChunk_receives unread.ordered receives
    have frame : (readDataFromChunk log).1.toDeviceLog.Unread FileBytes here later := by
      have file := unread.file
      have files := unread.files
      rw [readDataFromChunk_frame] at ordered ⊢
      exact ⟨ordered, file, files⟩
    rw [readData]
    obtain ⟨none, empty, rest⟩ | ⟨c, rest, rfl, some, next⟩ := outcome
    · rw [none, if_neg (by decide)]
      obtain ⟨read, held, here', later', contents, unread', all, some⟩ | ⟨ended, nothing⟩ :=
        frame.readChunkFromFile readsChunks
      · rw [dif_pos (show (readChunkFromFile (readDataFromChunk log).1).2 = true from read)]
        refine ih _ ?_ here' later' ?_ unread' rfl
        · have longer := List.length_pos_iff.mpr some
          have whole := congrArg List.length all
          simp only [List.length_append] at whole size ⊢
          omega
        · rw [← all] at rest
          exact contents.symm ▸ rest
      · have ended' : (readChunkFromFile (readDataFromChunk log).1).2 = false := ended
        rw [ended', dif_neg Bool.false_ne_true]
        rw [nothing] at rest
        cases rest
        exact ⟨rfl, fun some => absurd rfl some⟩
    · rw [some, if_pos Option.isSome_some]
      exact ⟨some, fun _ => ⟨here, later, final, next, frame⟩⟩

theorem readLog_remaining (remaining : Remaining log states) :
    readLog log (states.length + 1) = states.map (some ∘ readRecord) ++ [none] := by
  induction states generalizing log with
  | nil => exact congrArg (· :: []) (readData_remaining remaining).1
  | cons c rest ih =>
    obtain ⟨first, later⟩ := readData_remaining remaining
    exact congrArg₂ List.cons first (ih (later (List.cons_ne_nil _ _)))

end Reading

section Replay

open DeviceLog

variable {device : Option Device} {serialNo : UInt32} {timestamp directory : List Char}
  {maxFileSize : UInt32} {packets : List Record} {encodings pieces : List (List UInt8)}

theorem writer_holds (serial : (device.map Device.serialNumber).getD serialNo ≠ 0)
    (pHandle : UInt32) (buff : Int → UInt8) (commBuf : Nat → UInt8) (timestamp : List Char)
    (place : directory ≠ []) (maxFileSize : UInt32) :
    (initDeviceForWriting (cDeviceLogRaw device serialNo [] (Chunk.cDataChunk pHandle buff)
      commBuf) timestamp directory maxFileSize).Holds raw [] := by
  have kept := Chunk.clear_kept (c := Chunk.cDataChunk pHandle buff) rfl
  have serial' : (initDeviceForWriting (cDeviceLogRaw device serialNo []
      (Chunk.cDataChunk pHandle buff) commBuf) timestamp directory maxFileSize).serNum ≠ 0 := by
    cases device with
    | none => exact serial
    | some device => exact serial
  exact holds_nil place serial' rfl ⟨kept.toOrdered.withHdr _, kept.dataSize, kept.invDataSize⟩
    rfl rfl rfl rfl rfl rfl

theorem receivers_length (c : Comm.Instance) (encodings : List (List UInt8)) :
    (receivers c encodings).length = encodings.length := by
  induction encodings generalizing c with
  | nil => rfl
  | cons encoding rest ih => exact congrArg (· + 1) (ih _)

/-- What a log of packets is read as: each packet once and in order, with the data that
`ReadDataFromChunk` copies. -/
theorem readLog_written (serial : (device.map Device.serialNumber).getD serialNo ≠ 0)
    (pHandle pHandle' : UInt32) (buff buff' : Int → UInt8) (commBuf commBuf' : Nat → UInt8)
    (place : directory ≠ []) (encodes : List.Forall₂ Encodes packets encodings)
    (small : ∀ packet ∈ packets, packet.data.length ≤ Comm.maxDatasetSize)
    (cut : pieces.flatten = encodings.flatten)
    (short : ∀ piece ∈ pieces, piece.length ≤ defaultChunkDataSize)
    (keeps : ∀ packet ∈ packets, KeepsSerial device packet)
    (fewer : (writeLog device serialNo (Chunk.cDataChunk pHandle buff) commBuf timestamp directory
      maxFileSize pieces).fileCount < 10000) :
    readLog
        (openLog (writeLog device serialNo (Chunk.cDataChunk pHandle buff) commBuf timestamp
          directory maxFileSize pieces).disk serialNo (Chunk.cDataChunk pHandle' buff') commBuf'
          timestamp directory) (packets.length + 1) =
      (receivers (Comm.isCommInit commBuf' Comm.pktBufSize) encodings).map (some ∘ readRecord) ++
        [none] := by
  have enabled : (0x0F : UInt32) &&& Comm.Processor.isb.enableBit ≠ 0 := by decide
  have ended : (run saveData (initDeviceForWriting (cDeviceLogRaw device serialNo []
      (Chunk.cDataChunk pHandle buff) commBuf) timestamp directory maxFileSize)
        pieces).1.fileCount < 10000 := by
    refine Nat.lt_of_le_of_lt ?_ fewer
    unfold writeLog
    rw [closeAllFiles_fileCount]
    exact flushToFile_fileCount raw _
  obtain ⟨⟨final, receives⟩, same⟩ := receives_packets enabled encodes small
    (Comm.started_boundary commBuf Comm.pktBufSize 0x0F)
  have ready : Ready (initDeviceForWriting (cDeviceLogRaw device serialNo []
      (Chunk.cDataChunk pHandle buff) commBuf) timestamp directory maxFileSize) []
        pieces.flatten (receivers (Comm.isCommInit commBuf Comm.pktBufSize) encodings)
        final := by
    refine ⟨writer_holds serial pHandle buff commBuf timestamp place maxFileSize,
      cut.symm ▸ receives, fun c member => keeps _ ?_⟩
    rw [← same]
    exact List.mem_map_of_mem member
  obtain ⟨blocks, all, holds⟩ := ready.run short ended
  obtain ⟨parts, whole, files⟩ := holds.closeAllFiles fewer
  obtain ⟨⟨final', receives'⟩, -⟩ := receives_packets enabled encodes small
    (Comm.started_boundary commBuf' Comm.pktBufSize 0x0F)
  have empty := (Chunk.clear_kept (c := Chunk.cDataChunk pHandle' buff') rfl).toOrdered
  have count : packets.length = (receivers (Comm.isCommInit commBuf' Comm.pktBufSize)
      encodings).length := by
    rw [receivers_length, encodes.length_eq]
  rw [count]
  refine readLog_remaining ⟨[], parts.map List.flatten, final', ?_, ⟨empty.capacity, empty.head,
    empty.order, empty.tail⟩, rfl, ?_⟩
  · have bytes : (parts.map List.flatten).flatten = encodings.flatten := by
      rw [← List.flatten_flatten, whole, all, cut, List.flatten_nil, List.nil_append]
    rw [bytes]
    exact receives'
  · rw [List.forall₂_map_right_iff]
    exact files.imp fun name part ⟨file, found, holds⟩ => ⟨file, found, holds.plain⟩

/-- So far behind the start of the data as the offset says, the parser's buffer holds the data. -/
def InPlace (c : Comm.Instance) (packet : Record) : Prop :=
  window c.mem (c.rxPkt.dataPtr.getD 0 + packet.hdr.offset.toNat) packet.hdr.size.toNat =
    packet.data

instance (c : Comm.Instance) (packet : Record) : Decidable (InPlace c packet) :=
  inferInstanceAs (Decidable (_ = _))

/-- The copy is right if and only if it starts where it finds the data. -/
theorem readRecord_eq_iff {c : Comm.Instance} {packet : Record} (received : rxRecord c = packet) :
    readRecord c = packet ↔ InPlace c packet := by
  subst received
  refine ⟨fun same => ?_, fun same => Record.ext rfl same⟩
  exact congrArg Record.data same

/-- Without an offset, or without data, the copy starts right. -/
theorem inPlace_of_received {c : Comm.Instance} {packet : Record} (received : rxRecord c = packet)
    (plain : packet.hdr.offset = 0 ∨ packet.hdr.size = 0) : InPlace c packet := by
  rw [← readRecord_eq_iff received, ← received]
  subst received
  change (rxDataHdr c).offset = 0 ∨ (rxDataHdr c).size = 0 at plain
  unfold readRecord rxRecord rxRecordAt
  obtain none | none := plain
  · rw [none]
    rfl
  · have empty : (rxDataHdr c).size.toNat = 0 := congrArg UInt16.toNat none
    congr 1
    rw [empty]
    rfl

theorem readRecords_eq_iff {states : List Comm.Instance}
    (received : states.map rxRecord = packets) :
    states.map (some ∘ readRecord) ++ [none] = packets.map some ++ [none] ↔
      List.Forall₂ InPlace states packets := by
  rw [List.append_left_inj]
  subst received
  induction states with
  | nil => exact ⟨fun _ => .nil, fun _ => rfl⟩
  | cons c rest ih =>
    rw [List.map_cons, List.map_cons, List.map_cons, List.cons_eq_cons, ih,
      List.forall₂_cons, Function.comp_apply, Option.some_inj, readRecord_eq_iff rfl]

private theorem inPlace_of_plain {states : List Comm.Instance}
    (received : states.map rxRecord = packets)
    (plain : ∀ packet ∈ packets, packet.hdr.offset = 0 ∨ packet.hdr.size = 0) :
    List.Forall₂ InPlace states packets := by
  subst received
  rw [List.forall₂_map_right_iff, List.forall₂_same]
  exact fun c member => inPlace_of_received rfl (plain _ (List.mem_map_of_mem member))

/-- What is read is what was saved if and only if behind each packet the buffer of the reader's
parser holds its data where the copy starts, as it does where no packet with data has an offset. -/
theorem saved_packets_read_iff (serial : (device.map Device.serialNumber).getD serialNo ≠ 0)
    (pHandle pHandle' : UInt32) (buff buff' : Int → UInt8) (commBuf commBuf' : Nat → UInt8)
    (place : directory ≠ []) (encodes : List.Forall₂ Encodes packets encodings)
    (small : ∀ packet ∈ packets, packet.data.length ≤ Comm.maxDatasetSize)
    (cut : pieces.flatten = encodings.flatten)
    (short : ∀ piece ∈ pieces, piece.length ≤ defaultChunkDataSize)
    (keeps : ∀ packet ∈ packets, KeepsSerial device packet)
    (fewer : (writeLog device serialNo (Chunk.cDataChunk pHandle buff) commBuf timestamp directory
      maxFileSize pieces).fileCount < 10000) :
    (readLog
        (openLog (writeLog device serialNo (Chunk.cDataChunk pHandle buff) commBuf timestamp
          directory maxFileSize pieces).disk serialNo (Chunk.cDataChunk pHandle' buff') commBuf'
          timestamp directory) (packets.length + 1) = packets.map some ++ [none] ↔
      List.Forall₂ InPlace (receivers (Comm.isCommInit commBuf' Comm.pktBufSize) encodings)
        packets) ∧
      ((∀ packet ∈ packets, packet.hdr.offset = 0 ∨ packet.hdr.size = 0) →
        List.Forall₂ InPlace (receivers (Comm.isCommInit commBuf' Comm.pktBufSize) encodings)
          packets) := by
  have enabled : (0x0F : UInt32) &&& Comm.Processor.isb.enableBit ≠ 0 := by decide
  obtain ⟨-, received⟩ := receives_packets enabled encodes small
    (Comm.started_boundary commBuf' Comm.pktBufSize 0x0F)
  rw [readLog_written serial pHandle pHandle' buff buff' commBuf commBuf' place encodes small cut
    short keeps fewer]
  exact ⟨readRecords_eq_iff received, inPlace_of_plain received⟩

/-- A log without a device, written from these pieces and opened to be read. -/
def sampleLog (pieces : List (List UInt8)) : RawLog :=
  openLog (writeLog none 7 (Chunk.cDataChunk 0 fun _ => 0) (fun _ => 0)
    "20240101_000000".toList "IS_logs".toList 0 pieces).disk 7 (Chunk.cDataChunk 0 fun _ => 0)
    (fun _ => 0) "20240101_000000".toList "IS_logs".toList

def plainPackets : List Record :=
  [{ hdr := { id := 5, size := 4, offset := 0 }, data := [1, 2, 3, 4], sized := rfl },
    { hdr := { id := 9, size := 0, offset := 3 }, data := [], sized := rfl }]

def plainEncodings : List (List UInt8) :=
  [[239, 73, 4, 5, 4, 0, 1, 2, 3, 4, 79, 86], [239, 73, 36, 9, 2, 0, 3, 0, 106, 138]]

/-- Both packets are cut. -/
def plainPieces : List (List UInt8) :=
  [[239, 73, 4, 5, 4, 0, 1], [2, 3, 4, 79, 86, 239, 73, 36, 9, 2, 0, 3, 0, 106], [138]]

theorem saved_packets_read_plain :
    readLog (sampleLog plainPieces) (plainPackets.length + 1) =
      plainPackets.map some ++ [none] := by
  have encodes : List.Forall₂ Encodes plainPackets plainEncodings :=
    .cons ⟨4, by decide, by decide, 64, Comm.isCommInit (fun _ => 0) 0, 4, rfl, by decide +kernel⟩ <|
    .cons ⟨4, by decide, by decide, 64, Comm.isCommInit (fun _ => 0) 0, 0, rfl, by decide +kernel⟩
      .nil
  have plain : ∀ packet ∈ plainPackets, packet.hdr.offset = 0 ∨ packet.hdr.size = 0 :=
    List.forall_mem_cons.mpr ⟨.inl rfl, List.forall_mem_singleton.mpr (.inr rfl)⟩
  have read : (readLog (sampleLog plainPieces) (plainPackets.length + 1) =
        plainPackets.map some ++ [none] ↔ _) ∧ (_ → _) :=
    saved_packets_read_iff (by decide) 0 0 (fun _ => 0) (fun _ => 0) (fun _ => 0)
      (fun _ => 0) (by decide) encodes (by decide) (by decide) (by decide)
      (fun packet _ => keepsSerial_none packet) (by decide +kernel)
  exact read.1.mpr (read.2 plain)

/-- A packet for all but the first byte of a data set. -/
def shiftedPacket : Record :=
  { hdr := { id := 5, size := 4, offset := 1 }, data := [1, 2, 3, 4], sized := rfl }

def shiftedEncoding : List UInt8 := [239, 73, 36, 5, 6, 0, 1, 0, 1, 2, 3, 4, 114, 54]

/-- It is read as its last three bytes and the first byte of its checksum. -/
theorem shifted_packet_misread :
    ∃ record, record.data = [2, 3, 4, 114] ∧
      readLog (sampleLog [shiftedEncoding]) 2 = [some record, none] ∧
      readLog (sampleLog [shiftedEncoding]) 2 ≠ [some shiftedPacket, none] := by
  have encodes : List.Forall₂ Encodes [shiftedPacket] [shiftedEncoding] :=
    .cons ⟨4, by decide, by decide, 64, Comm.isCommInit (fun _ => 0) 0, 4, rfl, by decide +kernel⟩
      .nil
  have read : readLog (sampleLog [shiftedEncoding]) ([shiftedPacket].length + 1) = _ :=
    readLog_written (by decide) 0 0 (fun _ => 0) (fun _ => 0) (fun _ => 0) (fun _ => 0)
      (by decide) encodes (by decide) (by decide) (by decide)
      (fun packet _ => keepsSerial_none packet) (by decide +kernel)
  refine ⟨_, ?_, read, fun same => absurd (read.symm.trans same) ?_⟩ <;> decide +kernel

end Replay

end InertialSense.DataLog.Raw
