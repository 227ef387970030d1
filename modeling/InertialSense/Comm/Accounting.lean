import InertialSense.Comm.Blocking
import Mathlib.Algebra.GroupWithZero.Nat

/-! The packet and error counters over whole runs. An error is counted only while the latch
`rxErrorState` is open; counting it closes the latch, and only a packet opens it again. -/

namespace InertialSense.Comm

open Foundation

/-- An increment of a counter: of `rxPktCount`, or of `rxErrorCount` for an error. -/
inductive Mark where
  | packet
  | error (errorType : ParseErrorType)
deriving DecidableEq

def Mark.isError : Mark → Bool
  | .packet => false
  | .error _ => true

/-- The counters and the latch of an instance. -/
@[ext]
structure Account where
  packets : UInt32
  errors : UInt32
  types : ParseErrorType → UInt32
  latched : Bool

namespace Account

def packet (account : Account) : Account :=
  { account with packets := account.packets + 1, latched := false }

/-- An error closes the latch. -/
def error (account : Account) (errorType : ParseErrorType) : Account :=
  { account with
    errors := account.errors + 1
    types := fun e => if e = errorType then account.types e + 1 else account.types e
    latched := true }

/-- The increments lead from one account to the other, and no error is counted while the
latch is closed. -/
inductive Follows : Account → List Mark → Account → Prop where
  | done (account : Account) : Follows account [] account
  | packet {account final : Account} {marks : List Mark}
      (rest : Follows account.packet marks final) : Follows account (.packet :: marks) final
  | error {account final : Account} {errorType : ParseErrorType} {marks : List Mark}
      (opened : account.latched = false) (rest : Follows (account.error errorType) marks final) :
      Follows account (.error errorType :: marks) final

variable {account next final : Account} {marks later : List Mark}

theorem Follows.append (first : Follows account marks next) (second : Follows next later final) :
    Follows account (marks ++ later) final := by
  induction first with
  | done => exact second
  | packet _ ih => exact .packet (ih second)
  | error opened _ ih => exact .error opened (ih second)

theorem Follows.spaced (follows : Follows account marks final) :
    marks.IsChain fun first second => first.isError → ¬second.isError := by
  induction follows with
  | done => exact .nil
  | @packet _ _ marks rest ih =>
    cases marks with
    | nil => exact .singleton _
    | cons => exact .cons_cons (fun error => by cases error) ih
  | error opened rest ih =>
    cases rest with
    | done => exact .singleton _
    | packet => exact .cons_cons (fun _ error => by cases error) ih
    | error opened' => cases opened'

/-- The number of errors among the increments. -/
def errorsIn (marks : List Mark) : Nat := marks.countP Mark.isError

@[simp] theorem errorsIn_packet (marks : List Mark) : errorsIn (.packet :: marks) = errorsIn marks :=
  List.countP_cons_of_neg Bool.false_ne_true

@[simp] theorem errorsIn_error (errorType : ParseErrorType) (marks : List Mark) :
    errorsIn (.error errorType :: marks) = errorsIn marks + 1 :=
  List.countP_cons_of_pos rfl

theorem Follows.errors_le (follows : Follows account marks final) :
    errorsIn marks + (if final.latched then 0 else 1) ≤
      marks.count .packet + if account.latched then 0 else 1 := by
  induction follows with
  | done => simp [errorsIn]
  | packet rest ih =>
    simp only [Account.packet, Bool.false_eq_true, if_false] at ih
    rw [errorsIn_packet, List.count_cons_self]
    omega
  | error opened rest ih =>
    simp only [Account.error, if_true] at ih
    rw [errorsIn_error, opened, List.count_cons_of_ne (by nofun)]
    simp only [Bool.false_eq_true, if_false]
    omega

private theorem add_one_ofNat (start : UInt32) (count : Nat) :
    start + 1 + UInt32.ofNat count = start + UInt32.ofNat (count + 1) := by
  rw [UInt32.ofNat_add, UInt32.add_assoc, UInt32.add_comm 1]
  rfl

theorem Follows.packets (follows : Follows account marks final) :
    final.packets = account.packets + UInt32.ofNat (marks.count .packet) := by
  induction follows with
  | done account => exact (UInt32.add_zero _).symm
  | packet rest ih =>
    rw [ih, List.count_cons_self]
    exact add_one_ofNat ..
  | error opened rest ih =>
    rw [ih, List.count_cons_of_ne (by nofun)]
    rfl

theorem Follows.errors (follows : Follows account marks final) :
    final.errors = account.errors + UInt32.ofNat (errorsIn marks) := by
  induction follows with
  | done account => exact (UInt32.add_zero _).symm
  | packet rest ih => exact ih
  | error opened rest ih =>
    rw [ih, errorsIn_error]
    exact add_one_ofNat ..

theorem Follows.types (follows : Follows account marks final) (errorType : ParseErrorType) :
    final.types errorType =
      account.types errorType + UInt32.ofNat (marks.count (.error errorType)) := by
  induction follows with
  | done account => exact (UInt32.add_zero _).symm
  | packet rest ih =>
    rw [ih, List.count_cons_of_ne (by nofun)]
    rfl
  | @error account final other marks opened rest ih =>
    rw [ih]
    by_cases same : errorType = other
    · subst same
      rw [List.count_cons_self]
      simp only [Account.error, if_true]
      exact add_one_ofNat ..
    · rw [List.count_cons_of_ne (by simpa using Ne.symm same)]
      simp only [Account.error, if_neg same]

end Account

/-- All values of `eParseErrorType`. -/
def ParseErrorType.all : List ParseErrorType :=
  [.invalidPreamble, .invalidSize, .invalidChksum, .invalidDatatype, .missingEosMarker,
    .incompletePacket, .invalidHeader, .invalidPayload, .rxbufferFlushed, .streamUnparsable]

namespace Account

theorem errorsIn_eq_sum (marks : List Mark) :
    errorsIn marks = (ParseErrorType.all.map fun e => marks.count (.error e)).sum := by
  induction marks with
  | nil => rfl
  | cons mark rest ih =>
    cases mark with
    | packet =>
      rw [errorsIn_packet, ih]
      simp [ParseErrorType.all]
    | error errorType =>
      rw [errorsIn_error, ih]
      cases errorType <;> simp [ParseErrorType.all, List.count_cons] <;> omega

end Account

/-! ### The increments of a run -/

namespace Instance

def account (c : Instance) : Account :=
  { packets := c.rxPktCount
    errors := c.rxErrorCount
    types := c.rxErrorTypeCount
    latched := c.rxErrorState }

/-- The counters that changed. Where both did, the packet came first: `validPacketReset` runs
before the type of the packet is looked at. -/
def marks (before after : Instance) : List Mark :=
  (if after.rxPktCount = before.rxPktCount then [] else [.packet]) ++
    if after.rxErrorCount = before.rxErrorCount then [] else [.error after.rxErrorType]

/-- The increments of the `while` loop in `is_comm_parse_timeout`. -/
def searchMarks : Nat → Instance → List Mark
  | 0, _ => []
  | fuel + 1, c =>
    if c.scan < c.tail then
      marks c c.turn.1 ++ if c.turn.2 = .none then searchMarks fuel c.turn.1 else []
    else []

def parseMarks (c : Instance) (timeMs : UInt32) : List Mark :=
  (c.checkTimeout timeMs).searchMarks (c.checkTimeout timeMs).budget

/-- The instance on which an operation calls `is_comm_parse_timeout`, if it does. -/
def prepared (c : Instance) : Operation → Instance
  | .free => c.isCommFree.1
  | .write bytes => c.append bytes
  | .parseByte byte _ => c.isCommFree.1.append [byte]
  | .parse _ => c

def operationMarks (c : Instance) : Operation → List Mark
  | .free => marks c c.isCommFree.1
  | .write bytes => marks c (c.append bytes)
  | .parseByte byte timeMs =>
    marks c (c.isCommFree.1.append [byte]) ++ (c.isCommFree.1.append [byte]).parseMarks timeMs
  | .parse timeMs => c.parseMarks timeMs

def runMarks (c : Instance) : List Operation → List Mark
  | [] => []
  | operation :: rest => c.operationMarks operation ++ (c.operate operation).1.runMarks rest

/-- A `_PTYPE_PARSE_ERROR` that an operation returns is one increment of `rxErrorCount`, and
there is no other from the call of `is_comm_parse_timeout` on. -/
def ReturnsCounted (c : Instance) (operation : Operation) : Prop :=
  (c.operate operation).1.rxErrorCount =
    (c.prepared operation).rxErrorCount +
      if (c.operate operation).2 = .parseError then 1 else 0

variable {c d : Instance}

/-- The increments between an instance and an answer are those of their accounts, and one of
them is an error if that is the answer. -/
structure Counts (c : Instance) (answer : Instance × ProtocolType) : Prop where
  follows : c.account.Follows (marks c answer.1) answer.1.account
  returned : Account.errorsIn (marks c answer.1) = if answer.2 = .parseError then 1 else 0

private theorem add_one_ne (count : UInt32) : count + 1 ≠ count := by
  intro same
  have := congrArg UInt32.toNat same
  rw [UInt32.toNat_add] at this
  have := count.toNat_lt
  simp at *

variable {ptype : ProtocolType}

theorem Counts.of_same (same : d.account = c.account) (packet : ptype ≠ .parseError) :
    Counts c (d, ptype) := by
  have packets : d.rxPktCount = c.rxPktCount := congrArg Account.packets same
  have errors : d.rxErrorCount = c.rxErrorCount := congrArg Account.errors same
  have changed : marks c d = [] := by
    unfold marks
    rw [if_pos packets, if_pos errors]
    rfl
  refine ⟨?_, ?_⟩
  · rw [changed, same]
    exact .done _
  · rw [changed, if_neg packet]
    rfl

theorem Counts.of_packet (counted : d.account = c.account.packet) (packet : ptype ≠ .parseError) :
    Counts c (d, ptype) := by
  have packets : d.rxPktCount = c.rxPktCount + 1 := congrArg Account.packets counted
  have errors : d.rxErrorCount = c.rxErrorCount := congrArg Account.errors counted
  have changed : marks c d = [.packet] := by
    unfold marks
    rw [packets, if_neg (add_one_ne _), if_pos errors]
    rfl
  refine ⟨?_, ?_⟩
  · rw [changed, counted]
    exact .packet (.done _)
  · rw [changed, if_neg packet]
    rfl

theorem Counts.of_error (opened : c.rxErrorState = false)
    (counted : d.account = c.account.error d.rxErrorType) : Counts c (d, .parseError) := by
  have packets : d.rxPktCount = c.rxPktCount := congrArg Account.packets counted
  have errors : d.rxErrorCount = c.rxErrorCount + 1 := congrArg Account.errors counted
  have changed : marks c d = [.error d.rxErrorType] := by
    unfold marks
    rw [if_pos packets, errors, if_neg (add_one_ne _)]
    rfl
  refine ⟨?_, ?_⟩
  · rw [changed, counted]
    exact .error opened (.done _)
  · rw [changed]
    rfl

theorem Counts.of_both (counted : d.account = c.account.packet.error d.rxErrorType) :
    Counts c (d, .parseError) := by
  have packets : d.rxPktCount = c.rxPktCount + 1 := congrArg Account.packets counted
  have errors : d.rxErrorCount = c.rxErrorCount + 1 := congrArg Account.errors counted
  have changed : marks c d = [.packet, .error d.rxErrorType] := by
    unfold marks
    rw [packets, errors, if_neg (add_one_ne _), if_neg (add_one_ne _)]
    rfl
  refine ⟨?_, ?_⟩
  · rw [changed, counted]
    exact .packet (.error rfl (.done _))
  · rw [changed]
    rfl

theorem reportParseError_counts (same : d.account = c.account) (error : ParseErrorType) :
    Counts c (d.reportParseError error) := by
  have latch : d.rxErrorState = c.rxErrorState := congrArg Account.latched same
  unfold reportParseError
  split
  · exact .of_same same (by nofun)
  case isFalse opened =>
    refine .of_error (by simpa [← latch] using opened) ?_
    rw [← same]
    rfl

theorem parseErrorResetState_counts (same : d.account = c.account) (error : ParseErrorType) :
    Counts c (d.parseErrorResetState error) :=
  reportParseError_counts (d := d.resetParser) same error

private theorem Counts.advance {answer : Instance × ProtocolType} (counts : Counts c answer) :
    Counts c ({ answer.1 with scan := answer.1.scan + 1 }, answer.2) :=
  ⟨counts.follows, counts.returned⟩

theorem turn_counts (c : Instance) : Counts c c.turn := by
  generalize after : c.turn = answer
  have pass : Pass c answer := after ▸ c.turn_pass
  cases pass with
  | skips idle => exact .of_same rfl (by nofun)
  | starts idle processor => exact .of_same rfl (by nofun)
  | stops idle => exact reportParseError_counts rfl _
  | processes processor busy given outcome =>
    refine .advance ?_
    cases outcome with
    | waits => exact .of_same rfl (by nofun)
    | rejects state size error =>
      exact parseErrorResetState_counts (c := c) (d := (c.setState state).setSize size) rfl error
    | refuses => exact .of_both rfl
    | accepts pkt ackNeeded ptype packet => exact .of_packet rfl packet.2

private theorem errorsIn_append (first second : List Mark) :
    Account.errorsIn (first ++ second) = Account.errorsIn first + Account.errorsIn second :=
  List.countP_append

theorem search_counts (fuel : Nat) (c : Instance) :
    c.account.Follows (searchMarks fuel c) (search fuel c).1.account ∧
      Account.errorsIn (searchMarks fuel c) =
        if (search fuel c).2 = .parseError then 1 else 0 := by
  induction fuel generalizing c with
  | zero => exact ⟨.done _, rfl⟩
  | succ fuel ih =>
    unfold searchMarks search
    split
    case isFalse => exact ⟨.done _, rfl⟩
    case isTrue inside =>
      obtain ⟨follows, returned⟩ := c.turn_counts
      split
      case isFalse found =>
        rw [List.append_nil]
        exact ⟨follows, returned⟩
      case isTrue silent =>
        obtain ⟨follows', returned'⟩ := ih c.turn.1
        rw [silent] at returned
        refine ⟨follows.append follows', ?_⟩
        rw [errorsIn_append, returned, returned']
        exact Nat.zero_add _

theorem parse_counts (c : Instance) (timeMs : UInt32) :
    c.account.Follows (c.parseMarks timeMs) (c.isCommParseTimeout timeMs).1.account ∧
      (c.isCommParseTimeout timeMs).1.rxErrorCount =
        c.rxErrorCount + if (c.isCommParseTimeout timeMs).2 = .parseError then 1 else 0 := by
  have untouched (c : Instance) : (c.checkTimeout timeMs).account = c.account := by
    unfold checkTimeout
    split <;> rfl
  have recorded (c : Instance) : (c.recordTime timeMs).account = c.account := by
    unfold recordTime
    split <;> rfl
  have found : (c.isCommParseTimeout timeMs).1.account =
        (search (c.checkTimeout timeMs).budget (c.checkTimeout timeMs)).1.account ∧
      (c.isCommParseTimeout timeMs).2 =
        (search (c.checkTimeout timeMs).budget (c.checkTimeout timeMs)).2 := by
    unfold isCommParseTimeout
    dsimp only
    split
    case isTrue silent => exact ⟨recorded _, silent.symm⟩
    case isFalse => exact ⟨rfl, rfl⟩
  obtain ⟨follows, returned⟩ :=
    search_counts (c.checkTimeout timeMs).budget (c.checkTimeout timeMs)
  rw [untouched, ← found.1] at follows
  rw [← found.2] at returned
  refine ⟨follows, ?_⟩
  have errors := follows.errors
  rw [returned] at errors
  refine errors.trans (congrArg (c.rxErrorCount + ·) ?_)
  split <;> rfl

theorem isCommFree_follows (c : Instance) :
    c.account.Follows (marks c c.isCommFree.1) c.isCommFree.1.account := by
  by_cases full : c.tail = c.bufSize
  · rw [isCommFree_full full]
    split
    · exact (parseErrorResetState_counts (c := c) rfl .rxbufferFlushed).follows
    · have counts : Counts c (c.shifted, .none) := Counts.of_same rfl (by nofun)
      exact counts.follows
  · rw [isCommFree_of_room full]
    have counts : Counts c (c, .none) := Counts.of_same rfl (by nofun)
    exact counts.follows

theorem operate_counts (c : Instance) (operation : Operation) :
    c.account.Follows (c.operationMarks operation) (c.operate operation).1.account ∧
      c.ReturnsCounted operation := by
  cases operation with
  | free => exact ⟨c.isCommFree_follows, (UInt32.add_zero _).symm⟩
  | write bytes =>
    refine ⟨?_, (UInt32.add_zero _).symm⟩
    have counts : Counts c (c.append bytes, .none) := Counts.of_same rfl (by nofun)
    exact counts.follows
  | parseByte byte timeMs =>
    obtain ⟨follows, returned⟩ := (c.isCommFree.1.append [byte]).parse_counts timeMs
    exact ⟨c.isCommFree_follows.append follows, returned⟩
  | parse timeMs => exact c.parse_counts timeMs

theorem run_counts (c : Instance) (operations : List Operation) :
    c.account.Follows (c.runMarks operations) (run operate c operations).1.account ∧
      Along operate ReturnsCounted c operations := by
  induction operations generalizing c with
  | nil => exact ⟨.done _, trivial⟩
  | cons operation rest ih =>
    obtain ⟨follows, returned⟩ := c.operate_counts operation
    obtain ⟨follows', returned'⟩ := ih (c.operate operation).1
    exact ⟨follows.append follows', returned, returned'⟩

end Instance

/-- The counters agree with each other, and with the increments that led to them. -/
structure Accounted (c : Instance) (marks : List Mark) : Prop where
  types : c.rxErrorCount.toNat = (ParseErrorType.all.map fun e => (c.rxErrorTypeCount e).toNat).sum
  atMost : c.rxErrorCount ≤ c.rxPktCount
  spaced : marks.IsChain fun first second => first.isError → ¬second.isError

/-- In every run with fewer than 2 ^ 32 packets the errors are accounted for, and every error
that is returned is counted once. -/
theorem run_errors_accounted (mem : Nat → UInt8) (bufferSize : Nat) (enabledMask : UInt32)
    {operations : List Operation}
    (few : ((started mem bufferSize enabledMask).runMarks operations).count .packet < 2 ^ 32) :
    Accounted (run Instance.operate (started mem bufferSize enabledMask) operations).1
        ((started mem bufferSize enabledMask).runMarks operations) ∧
      Along Instance.operate Instance.ReturnsCounted (started mem bufferSize enabledMask)
        operations := by
  obtain ⟨follows, returned⟩ := (started mem bufferSize enabledMask).run_counts operations
  generalize (started mem bufferSize enabledMask).runMarks operations = marks at few follows ⊢
  have atMost : Account.errorsIn marks ≤ marks.count .packet := by
    have le := follows.errors_le
    rw [show (started mem bufferSize enabledMask).account.latched = true from rfl] at le
    exact Nat.le_trans (Nat.le_add_right ..) le
  have exact_of_few {count : Nat} (small : count ≤ marks.count .packet) :
      ((0 : UInt32) + UInt32.ofNat count).toNat = count := by
    rw [UInt32.zero_add, UInt32.toNat_ofNat']
    exact Nat.mod_eq_of_lt (by omega)
  have errors := congrArg UInt32.toNat follows.errors
  have packets := congrArg UInt32.toNat follows.packets
  rw [show (started mem bufferSize enabledMask).account.errors = 0 from rfl,
    exact_of_few atMost] at errors
  rw [show (started mem bufferSize enabledMask).account.packets = 0 from rfl,
    exact_of_few (Nat.le_refl _)] at packets
  refine ⟨⟨?_, ?_, follows.spaced⟩, returned⟩
  · refine errors.trans ((Account.errorsIn_eq_sum marks).trans ?_)
    congr 1
    apply List.map_congr_left
    intro errorType _
    have part : marks.count (.error errorType) ≤ Account.errorsIn marks := by
      refine List.countP_mono_left ?_
      intro mark _ same
      rw [eq_of_beq same]
      rfl
    exact ((congrArg UInt32.toNat (follows.types errorType)).trans
      (exact_of_few (Nat.le_trans part atMost))).symm
  · refine UInt32.le_iff_toNat_le.mpr ?_
    exact Nat.le_trans (Nat.le_of_eq errors) (Nat.le_trans atMost (Nat.le_of_eq packets.symm))

/-- A frame, noise, a refused frame, and a flush of the full buffer. -/
def noisyOperations : List Operation :=
  [.write (ackFrame ++ [0x01] ++ invalidTypeFrame ++ [0x02, 0x03]), .parse 0, .parse 0, .parse 0,
    .parse 0, .write ackFrame, .parse 0, .parse 0, .free, .parseByte 0xEF 300]

theorem run_errors_accounted_noisy :
    (run Instance.operate (started (fun _ => 0) 27 0x0F) noisyOperations).1.rxErrorCount ≤
        (run Instance.operate (started (fun _ => 0) 27 0x0F) noisyOperations).1.rxPktCount ∧
      (run Instance.operate (started (fun _ => 0) 27 0x0F) noisyOperations).1.rxErrorCount = 2 :=
  ⟨(run_errors_accounted (fun _ => 0) 27 0x0F (by decide +kernel)).1.atMost, by decide +kernel⟩

end InertialSense.Comm
