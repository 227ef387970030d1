import InertialSense.Comm.Blocking
import InertialSense.Comm.Leftmost

/-! What holds of the parser in every pass of every run, whatever the stream, the times and the
order of the calls. -/

namespace InertialSense.Comm

open Foundation

namespace Instance

/-- The bytes that the processor holds begin a packet of its protocol, and its checks do not
say yet what becomes of it. -/
structure Undecided (c : Instance) (processor : Processor) : Prop where
  start : c.byteAt 0 = processor.startByte
  verdict : processor.verdict c.bufSize c.byteAt c.held = .incomplete
  counted : processor = .spartn → CountsMissing c.byteAt c.held c.parser.state
  limited : processor = .isb → c.Limited .isb

/-- The states in which a pass of the loop can begin. -/
structure Reached (c : Instance) : Prop where
  ordered : c.head ≤ c.scan
  within : c.processPkt.isSome → c.scan ≤ c.tail
  tracked : c.Tracked
  undecided : AtWork Undecided c

variable {c d : Instance} {processor : Processor}

theorem Reached.examining (reached : c.Reached) (busy : c.processPkt = some processor)
    (other : processor ≠ .isb) : Examining processor c := by
  obtain ⟨-, undecided⟩ := reached.undecided processor busy
  exact ⟨busy, other, reached.tracked, undecided.start, undecided.verdict, undecided.counted⟩

/-- What the checks of a protocol other than ISB say about the bytes up to the current one, its
processor does. -/
theorem Reached.decides (reached : c.Reached) (busy : c.processPkt = some processor)
    (other : processor ≠ .isb) :
    Decides processor c (processor.verdict c.bufSize c.byteAt c.numBytes) :=
  (reached.examining busy other).decides

theorem Reached.of_idle (ordered : c.head ≤ c.scan) (idle : c.processPkt = none) : c.Reached :=
  ⟨ordered, fun busy => by simp [idle] at busy, .of_idle idle, .of_idle idle⟩

/-! ### One pass -/

private theorem setParserStart_undecided (found : startOf c.current = some processor) :
    (c.setParserStart processor).advance.Undecided processor := by
  have start : c.current = processor.startByte := by
    have same := List.find?_some found
    exact (of_decide_eq_true same).symm
  have held : (c.setParserStart processor).advance.held = 1 := Nat.add_sub_cancel_left c.scan 1
  refine ⟨start, ?_, fun _ negative => ?_, fun isb => ?_⟩
  · rw [held]
    exact Processor.verdict_one _ start
  · exact absurd negative (Int.not_lt.mpr (by decide : (0 : Int) ≤ 1))
  · subst isb
    exact setParserStart_limited .isb

/-- A processor that goes on has not decided. -/
private theorem process_undecided (tracked : c.Tracked) (busy : c.processPkt = some processor)
    (undecided : c.Undecided processor) (running : (processor.process c).1.processPkt.isSome) :
    (processor.process c).1.advance.Undecided processor := by
  obtain ⟨ordered, -⟩ := tracked processor busy
  have count : c.advance.held = c.numBytes := Nat.succ_sub (Nat.le_of_lt ordered)
  by_cases isb : processor = .isb
  · subst isb
    have limited := processIsbPkt_limited ordered (undecided.limited rfl) running
    have outcome := process_outcome .isb c
    have start := undecided.start
    generalize answered : Processor.process .isb c = answer at *
    cases outcome with
    | waits state size => exact ⟨start, rfl, nofun, fun _ => answered ▸ limited⟩
    | rejects | refuses => simp at running
    | accepts => cases running
  · have examining : Examining processor c :=
      ⟨busy, isb, tracked, undecided.start, undecided.verdict, undecided.counted⟩
    have decides := examining.decides
    cases verdict : processor.verdict c.bufSize c.byteAt c.numBytes with
    | incomplete =>
      rw [verdict] at decides
      obtain ⟨state, size, waits, counted⟩ := decides
      rw [waits]
      refine ⟨undecided.start, ?_, fun spartn => ?_, fun same => absurd same isb⟩
      · show processor.verdict c.bufSize c.byteAt c.advance.held = .incomplete
        rw [count, verdict]
      · show CountsMissing c.byteAt c.advance.held state
        rw [count]
        exact counted spartn
    | rejected =>
      rw [verdict] at decides
      obtain ⟨state, size, error, rejects⟩ := decides
      rw [rejects] at running
      simp at running
    | accepted length positive report =>
      rw [verdict] at decides
      obtain ⟨-, -, -, pkt, ackNeeded, accepts, -⟩ := decides
      rw [accepts] at running
      cases running

theorem Reached.turn (reached : c.Reached) (inside : c.scan < c.tail) : c.turn.1.Reached := by
  obtain ⟨-, -, tail, -, -⟩ := c.turn_frame
  refine ⟨(turn_progress reached.ordered inside).1, ?_, turn_tracked reached.tracked, ?_⟩
  · intro busy
    cases turn_moves reached.ordered with
    | starts _ _ _ scan | waits _ _ _ scan => omega
    | skips _ idle | stops _ idle | rejects _ idle | accepts _ idle | refuses _ idle =>
      simp [idle] at busy
  · refine reached.undecided.turn (fun processor found => setParserStart_undecided found) ?_
    intro processor busy _ undecided running
    exact process_undecided reached.tracked busy undecided running

/-! ### The operations -/

/-- A change that keeps the bytes a processor holds. -/
theorem Reached.congr (reached : c.Reached) (busy : d.processPkt = c.processPkt)
    (state : d.parser.state = c.parser.state) (size : d.parser.size = c.parser.size)
    (bufSize : d.bufSize = c.bufSize) (ordered : d.head ≤ d.scan)
    (within : c.processPkt.isSome → d.scan ≤ d.tail) (held : d.held = c.held)
    (bytes : c.processPkt.isSome → ∀ k < c.held, d.byteAt k = c.byteAt k) : d.Reached := by
  have some {processor : Processor} (running : d.processPkt = some processor) :
      c.processPkt = some processor ∧ c.processPkt.isSome := by
    rw [busy] at running
    exact ⟨running, by rw [running]; rfl⟩
  have started (before : c.head < c.scan) : d.head < d.scan := by
    unfold Instance.held at held
    omega
  refine ⟨ordered, fun running => within (busy ▸ running), ?_, ?_⟩
  · intro processor running
    obtain ⟨before, holds⟩ := reached.tracked processor (some running).1
    exact ⟨started before, holds.congr state size held (bytes (some running).2)⟩
  · intro processor running
    obtain ⟨before, undecided⟩ := reached.undecided processor (some running).1
    have same := bytes (some running).2
    have one : 0 < c.held := Nat.sub_pos_of_lt before
    refine ⟨started before, (same 0 one).trans undecided.start, ?_, fun spartn => ?_, fun isb => ?_⟩
    · rw [held, bufSize, Processor.verdict_congr same]
      exact undecided.verdict
    · have counted := undecided.counted spartn
      intro negative
      rw [state] at negative
      obtain ⟨header, missing⟩ := counted negative
      have eight : 8 ≤ spartnFrameHeader c.byteAt := by unfold spartnFrameHeader; omega
      have header' : spartnFrameHeader d.byteAt = spartnFrameHeader c.byteAt := by
        unfold spartnFrameHeader
        rw [same 3 (by omega), same 4 (by omega)]
      have length : spartnFrameSize d.byteAt = spartnFrameSize c.byteAt := by
        unfold spartnFrameSize
        rw [header', same 1 (by omega), same 2 (by omega), same 3 (by omega),
          same (spartnFrameHeader c.byteAt - 1) (by omega)]
      rw [held, state, header', length]
      exact ⟨header, missing⟩
    · have limited := undecided.limited isb
      simpa only [Limited, Awaits, state, size, held] using limited

theorem Reached.checkTimeout (reached : c.Reached) (timeMs : UInt32) :
    (c.checkTimeout timeMs).Reached := by
  unfold Instance.checkTimeout
  split
  · exact .of_idle (Nat.le_refl _) rfl
  · exact reached

theorem Reached.recordTime (reached : c.Reached) (timeMs : UInt32) :
    (c.recordTime timeMs).Reached := by
  unfold Instance.recordTime
  split
  · exact reached.congr rfl rfl rfl rfl reached.ordered reached.within rfl fun _ _ _ => rfl
  · exact reached

theorem Reached.append (reached : c.Reached) (bytes : List UInt8) : (c.append bytes).Reached := by
  refine reached.congr rfl rfl rfl rfl reached.ordered ?_ rfl ?_
  · intro busy
    exact Nat.le_trans (reached.within busy) (Nat.le_add_right ..)
  · intro busy k small
    have inside := reached.within busy
    unfold held at small
    exact store_outside _ (.inl (by show c.head + k < c.tail; omega))

theorem Reached.isCommFree (reached : c.Reached) : c.isCommFree.1.Reached := by
  by_cases full : c.tail = c.bufSize
  · rw [isCommFree_full full]
    split
    · exact .of_idle (Nat.le_refl _) (by simp [flushed])
    · refine reached.congr (d := c.shifted) rfl rfl rfl rfl (Nat.zero_le _) ?_ rfl ?_
      · intro busy
        exact Nat.sub_le_sub_right (reached.within busy) c.head
      · intro busy k small
        have inside := reached.within busy
        unfold held at small
        exact shifted_byteAt (by omega)
  · rw [isCommFree_of_room full]
    exact reached

/-! ### Whole runs -/

theorem searchAll_true (fuel : Nat) (c : Instance) : SearchAll (fun _ => True) fuel c := by
  induction fuel generalizing c with
  | zero => trivial
  | succ fuel ih => exact fun _ => ⟨trivial, fun _ => ih _⟩

theorem passes_true (c : Instance) (operation : Operation) : Passes (fun _ => True) c operation := by
  cases operation with
  | free | write => trivial
  | parseByte | parse => exact searchAll_true _ _

theorem operate_reached (reached : c.Reached) (operation : Operation) :
    Passes Reached c operation ∧ (c.operate operation).1.Reached :=
  operate_invariant (fun _ reached inside _ => reached.turn inside)
    (fun _ timeMs reached => reached.checkTimeout timeMs)
    (fun _ timeMs reached => reached.recordTime timeMs)
    (fun _ reached => reached.isCommFree) (fun _ bytes reached => reached.append bytes)
    reached (passes_true c operation)

/-- What follows in every state of a run and every pass, follows along every run. -/
theorem Reached.along {property : Instance → Operation → Prop}
    (follows : ∀ c operation, c.Reached → property c operation) (reached : c.Reached)
    (operations : List Operation) : Along operate property c operations := by
  induction operations generalizing c with
  | nil => trivial
  | cons operation rest ih =>
    exact ⟨follows c operation reached, ih (operate_reached reached operation).2⟩

/-- Predicates that agree in all states of the invariant hold in the same passes. -/
theorem SearchAll.iff_of {invariant first second : Instance → Prop}
    (agree : ∀ c, invariant c → (first c ↔ second c)) {fuel : Nat}
    (passes : SearchAll invariant fuel c) : SearchAll first fuel c ↔ SearchAll second fuel c := by
  induction fuel generalizing c with
  | zero => exact Iff.rfl
  | succ fuel ih =>
    refine forall_congr' fun inside => ?_
    obtain ⟨now, later⟩ := passes inside
    exact and_congr (agree c now) (forall_congr' fun silent => ih (later silent))

theorem Passes.iff_of {invariant first second : Instance → Prop}
    (agree : ∀ c, invariant c → (first c ↔ second c)) {operation : Operation}
    (passes : Passes invariant c operation) : Passes first c operation ↔ Passes second c operation := by
  cases operation with
  | free | write => exact Iff.rfl
  | parseByte | parse => exact SearchAll.iff_of agree passes

/-- Predicates that agree in all reached states hold along the same runs. -/
theorem Reached.along_iff {first second : Instance → Prop}
    (agree : ∀ c : Instance, c.Reached → (first c ↔ second c)) (reached : c.Reached)
    (operations : List Operation) :
    Along operate (Passes first) c operations ↔ Along operate (Passes second) c operations := by
  induction operations generalizing c with
  | nil => exact Iff.rfl
  | cons operation rest ih =>
    obtain ⟨passes, next⟩ := operate_reached reached operation
    exact and_congr (Passes.iff_of agree passes) (ih next)

theorem started_reached (mem : Nat → UInt8) (bufferSize : Nat) (enabledMask : UInt32) :
    (started mem bufferSize enabledMask).Reached :=
  .of_idle (Nat.le_refl 0) rfl

/-- A result comes from a pass. -/
theorem search_found {property : Instance → Prop} {fuel : Nat} (passes : SearchAll property fuel c)
    (found : (search fuel c).2 ≠ .none) :
    ∃ d, property d ∧ d.scan < d.tail ∧ search fuel c = d.turn := by
  induction fuel generalizing c with
  | zero => exact absurd rfl found
  | succ fuel ih =>
    unfold search at found ⊢
    split at found
    case isFalse => exact absurd rfl found
    case isTrue inside =>
      obtain ⟨now, later⟩ := passes inside
      rw [if_pos inside]
      split at found
      case isTrue silent =>
        rw [if_pos silent]
        exact ih (later silent) found
      case isFalse here =>
        rw [if_neg here]
        exact ⟨c, now, inside, rfl⟩

/-- The pass in which an operation finds what it returns. -/
theorem operate_found {operation : Operation} (reached : c.Reached)
    (found : (c.operate operation).2 ≠ .none) :
    ∃ d : Instance, d.Reached ∧ d.scan < d.tail ∧ c.operate operation = d.turn := by
  have parses {c : Instance} {timeMs : UInt32} (passes : c.ParsePasses Reached timeMs)
      (found : (c.isCommParseTimeout timeMs).2 ≠ .none) :
      ∃ d : Instance, d.Reached ∧ d.scan < d.tail ∧ c.isCommParseTimeout timeMs = d.turn := by
    unfold isCommParseTimeout at found ⊢
    dsimp only at found ⊢
    split at found
    case isTrue => exact absurd rfl found
    case isFalse some =>
      rw [if_neg some]
      exact search_found passes some
  obtain ⟨passes, -⟩ := operate_reached reached operation
  cases operation with
  | free | write => exact absurd rfl found
  | parseByte | parse => exact parses passes found

/-- No packet, or an ISB packet. -/
private def IsbAnswer (answer : Instance × ProtocolType) : Prop :=
  answer.2 = .none ∨ answer.2 = .parseError ∨ answer.2.isIsb

private theorem isbAnswer_rejects (c : Instance) (error : ParseErrorType) :
    IsbAnswer (c.parseErrorResetState error) := by
  unfold IsbAnswer parseErrorResetState
  rw [reportParseError_ptype]
  split
  · exact .inl rfl
  · exact .inr (.inl rfl)

private theorem IsbAnswer.ite {condition : Prop} [Decidable condition]
    {first second : Instance × ProtocolType} (left : IsbAnswer first) (right : IsbAnswer second) :
    IsbAnswer (if condition then first else second) := by
  split
  · exact left
  · exact right

private theorem processIsbPkt_isbAnswer (c : Instance) : IsbAnswer c.processIsbPkt := by
  have waits (d : Instance) : IsbAnswer (d, .none) := .inl rfl
  have ends : IsbAnswer c.isbPktEnd := by
    refine .ite ?_ (isbAnswer_rejects _ _)
    dsimp only
    split
    case h_1 ptype returned => exact .inr (.inr (isbDispatch_isIsb returned))
    case h_2 => exact isbAnswer_rejects _ _
  refine .ite (.ite (waits _) (waits _)) (.ite (.ite (waits _) (isbAnswer_rejects _ _)) ?_)
  exact .ite (.ite (waits _) (.ite (isbAnswer_rejects _ _) (waits _))) (.ite (waits _) ends)

theorem Reached.turn_found (reached : c.Reached) {ptype : ProtocolType} (found : c.turn.2 = ptype)
    (packet : ptype ≠ .none ∧ ptype ≠ .parseError) (other : ptype.isIsb = false) :
    ∃ processor length positive report, processor ≠ .isb ∧ c.processPkt = some processor ∧
      processor.verdict c.bufSize c.byteAt c.numBytes = .accepted length positive report ∧
      length = c.numBytes ∧ report.ptype = ptype ∧ c.turn.1.report ptype = report := by
  cases busy : c.processPkt with
  | none =>
    have pass := c.turn_pass
    generalize c.turn = answer at pass found
    cases pass with
    | skips | starts => exact absurd found.symm packet.1
    | stops =>
      rw [reportParseError_ptype] at found
      split at found
      · exact absurd found.symm packet.1
      · exact absurd found.symm packet.2
    | processes processor running =>
      rw [busy] at running
      cases running
  | some processor =>
    have turn := turn_busy busy
    rw [turn] at found
    by_cases isb : processor = .isb
    · subst isb
      rcases processIsbPkt_isbAnswer c with none | error | supported
      · exact absurd (found.symm.trans none) packet.1
      · exact absurd (found.symm.trans error) packet.2
      · rw [show c.processIsbPkt.2 = ptype from found, other] at supported
        cases supported
    · have decides := reached.decides busy isb
      cases verdict : processor.verdict c.bufSize c.byteAt c.numBytes with
      | incomplete =>
        rw [verdict] at decides
        obtain ⟨state, size, waits, -⟩ := decides
        rw [waits] at found
        exact absurd found.symm packet.1
      | rejected =>
        rw [verdict] at decides
        obtain ⟨state, size, error, rejects⟩ := decides
        rw [rejects, parseErrorResetState] at found
        dsimp only at found
        rw [reportParseError_ptype] at found
        split at found
        · exact absurd found.symm packet.1
        · exact absurd found.symm packet.2
      | accepted length positive report =>
        rw [verdict] at decides
        obtain ⟨whole, -, -, pkt, ackNeeded, accepts, reported⟩ := decides
        rw [accepts] at found turn
        subst found
        rw [turn]
        exact ⟨processor, length, positive, report, isb, rfl, verdict, whole, rfl, reported⟩

end Instance

def Processor.packetType : Processor → ProtocolType
  | .isb => .inertialSenseData
  | .nmea => .nmea
  | .ublox => .ublox
  | .rtcm3 => .rtcm3
  | .spartn => .spartn
  | .sony => .sony

/-- Whatever the checks accept is a packet of this type. -/
def Verdict.Accepts (ptype : ProtocolType) : Verdict → Prop
  | .accepted _ _ report => report.ptype = ptype
  | _ => True

private theorem Verdict.Accepts.ite {ptype : ProtocolType} {condition : Prop} [Decidable condition]
    {first second : Verdict} (left : first.Accepts ptype) (right : second.Accepts ptype) :
    (if condition then first else second).Accepts ptype := by
  split
  · exact left
  · exact right

theorem Processor.verdict_accepts (processor : Processor) (bufSize : Nat) (byte : Nat → UInt8)
    (count : Nat) : (processor.verdict bufSize byte count).Accepts processor.packetType := by
  cases processor with
  | isb => trivial
  | nmea =>
    show (nmeaVerdict byte count).Accepts .nmea
    unfold nmeaVerdict
    split
    · exact .ite trivial trivial
    · exact .ite trivial (.ite trivial (.ite trivial (.ite rfl trivial)))
  | ublox =>
    exact .ite trivial (.ite trivial (.ite trivial (.ite trivial (.ite rfl trivial))))
  | rtcm3 | sony => exact .ite trivial (.ite trivial (.ite trivial (.ite rfl trivial)))
  | spartn =>
    exact .ite trivial (.ite trivial (.ite trivial (.ite trivial
      (.ite trivial rfl))))

namespace Instance

variable {c : Instance} {processor : Processor}

theorem Reached.turn_packet (reached : c.Reached) (other : processor ≠ .isb)
    (found : c.turn.2 = processor.packetType) :
    c.processPkt = some processor ∧ ∃ positive report,
      processor.verdict c.bufSize c.byteAt c.numBytes = .accepted c.numBytes positive report ∧
        c.turn.1.report processor.packetType = report := by
  have packet : (processor.packetType ≠ .none ∧ processor.packetType ≠ .parseError) ∧
      processor.packetType.isIsb = false := by
    cases processor <;> first | exact absurd rfl other | decide
  obtain ⟨own, length, positive, report, -, busy, verdict, whole, ptype, reported⟩ :=
    reached.turn_found found packet.1 packet.2
  have same : own = processor := by
    have accepts := own.verdict_accepts c.bufSize c.byteAt c.numBytes
    rw [verdict] at accepts
    have types : own.packetType = processor.packetType := accepts.symm.trans ptype
    cases own <;> cases processor <;> first | rfl | cases types
  subst same whole
  exact ⟨busy, positive, report, verdict, reported⟩

/-- A packet that is no ISB packet is a frame that its own checks accept, whatever came before
it and whatever is behind it. -/
theorem Reached.operate_frame (reached : c.Reached) {operation : Operation}
    (other : processor ≠ .isb) (found : (c.operate operation).2 = processor.packetType) :
    ∃ frame : List UInt8, ∃ positive report, frame.getD 0 0 = processor.startByte ∧
      processor.verdict (c.operate operation).1.bufSize (fun k => frame.getD k 0) frame.length =
        .accepted frame.length positive report ∧
      (c.operate operation).1.report processor.packetType = report := by
  have packet : processor.packetType ≠ .none := by
    cases processor <;> nofun
  obtain ⟨d, reached', -, turned⟩ := operate_found reached (by rw [found]; exact packet)
  rw [turned] at found ⊢
  obtain ⟨busy, positive, report, verdict, reported⟩ := reached'.turn_packet other found
  obtain ⟨-, undecided⟩ := reached'.undecided processor busy
  have bytes (k : Nat) (small : k < d.numBytes) :
      d.byteAt k = (window d.byteAt 0 d.numBytes).getD k 0 := by
    rw [List.getD_eq_getElem?_getD, getElem?_window _ small, Nat.zero_add]
    rfl
  obtain ⟨-, size, -, -, -⟩ := d.turn_frame
  refine ⟨window d.byteAt 0 d.numBytes, ?_⟩
  rw [window_length, ← bytes 0 positive, size, ← Processor.verdict_congr bytes]
  exact ⟨positive, report, undecided.start, verdict, reported⟩

end Instance

end InertialSense.Comm
