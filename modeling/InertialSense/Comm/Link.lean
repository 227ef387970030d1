import InertialSense.Comm.Delivery
import InertialSense.Foundation.Run

/-! A link: frames are written into a pipe, and `is_comm_port_parse_messages` of `ISComm.c` reads the
pipe in blocks of any size and hands what it finds to a handler, which may be busy otherwise between
two reads. -/

namespace InertialSense.Comm

open Foundation

variable {σ ι : Type*}

/-- A handler that `parse_messages` calls: it finds the instance as the parser has left it. -/
abbrev Handle (σ : Type*) := σ → Instance × ProtocolType → σ

/-- The loop of `parse_messages` with a handler, for at most `fuel` results. -/
def handleFor (handle : Handle σ) : Nat → Instance → σ → Instance × σ
  | 0, c, node => (c, node)
  | fuel + 1, c, node =>
    if c.isCommParse.2 = .none then (c.isCommParse.1, node)
    else handleFor handle fuel c.isCommParse.1 (handle node c.isCommParse)

/-- `is_comm_port_parse_messages`, for the bytes that `portRead` brings. -/
def isCommPortParseMessages (handle : Handle σ) (c : Instance) (node : σ) (bytes : List UInt8) :
    Instance × σ :=
  if bytes = [] then (c.isCommFree.1, node)
  else
    handleFor handle ((c.isCommFree.1.append bytes).budget + 1) (c.isCommFree.1.append bytes) node

/-- A frame that is written, the processor that it is for, and what has to be reported of it. -/
structure Written where
  processor : Processor
  frame : List UInt8
  report : Report

/-- The frame is one that a parser with this buffer accepts. -/
structure Written.Accepted (bufSize : Nat) (enabledMask : UInt32) (w : Written) : Prop where
  conforms : Conforms bufSize w.processor w.frame w.report
  fits : w.frame.length ≤ bufSize - bufSize / 3
  enabled : enabledMask &&& w.processor.enableBit ≠ 0

/-- What a handler finds: the instance right behind the frame. -/
structure Written.Found (w : Written) (c : Instance) : Prop where
  still : c.report w.report.ptype = w.report
  origin : ∃ before after : Instance,
    w.processor.process before = (after, w.report.ptype) ∧ c = after.advance

/-- What a handler goes through: it is called for a frame, or does something of its own. -/
inductive Passes (handle : Handle σ) (own : σ → ι → σ) : List (Written ⊕ ι) → σ → σ → Prop where
  | nil (node : σ) : Passes handle own [] node node
  | found {w : Written} {rest : List (Written ⊕ ι)} {node last : σ} {c : Instance} (found : w.Found c)
      (later : Passes handle own rest (handle node (c, w.report.ptype)) last) :
      Passes handle own (.inl w :: rest) node last
  | own {i : ι} {rest : List (Written ⊕ ι)} {node last : σ}
      (later : Passes handle own rest (own node i) last) : Passes handle own (.inr i :: rest) node last

theorem Passes.append {handle : Handle σ} {own : σ → ι → σ} {first second : List (Written ⊕ ι)}
    {node next last : σ} (before : Passes handle own first node next)
    (after : Passes handle own second next last) : Passes handle own (first ++ second) node last := by
  induction before with
  | nil => exact after
  | found found _ ih => exact .found found (ih after)
  | own _ ih => exact .own (ih after)

/-- `count` bytes of a frame are parsed, and the bytes ahead are in the buffer. -/
structure Ahead (bufSize : Nat) (enabledMask : UInt32) (w : Written) (count : Nat)
    (ahead : List UInt8) (c : Instance) : Prop where
  sound : c.Sound
  size : c.bufSize = bufSize
  mask : c.enabledMask = enabledMask
  work : c.processPkt = if count = 0 then none else some w.processor
  scan : c.scan = c.head + count
  tail : c.tail = c.scan + ahead.length
  inside : c.tail ≤ c.bufSize
  bytes : ∀ k < count, c.byteAt k = w.frame.getD k 0
  ahead : ∀ k < ahead.length, c.mem (c.scan + k) = ahead.getD k 0

section Turns

variable {bufSize : Nat} {enabledMask : UInt32} {w : Written} {count : Nat} {byte : UInt8}
  {ahead later : List UInt8} {c : Instance}

/-- A parser between two frames is at the start of any frame. -/
theorem Ahead.other (before : Ahead bufSize enabledMask w 0 ahead c) (w' : Written) :
    Ahead bufSize enabledMask w' 0 ahead c :=
  { before with work := before.work, bytes := fun _ small => absurd small (Nat.not_lt_zero _) }

private theorem Ahead.inside_scan (before : Ahead bufSize enabledMask w count (byte :: later) c) :
    c.scan < c.tail := by
  have tail := before.tail
  rw [List.length_cons] at tail
  omega

private theorem Ahead.current (before : Ahead bufSize enabledMask w count (byte :: later) c) :
    c.current = byte :=
  before.ahead 0 (Nat.zero_lt_succ _)

private theorem Ahead.sound_turn (before : Ahead bufSize enabledMask w count (byte :: later) c) :
    c.turn.1.Sound :=
  before.sound.reaches (.single (if_pos before.inside_scan))

private theorem Ahead.remaining (before : Ahead bufSize enabledMask w count (byte :: later) c) :
    ∀ k < later.length, c.mem (c.scan + 1 + k) = later.getD k 0 := by
  intro k small
  have next := before.ahead (k + 1) (Nat.succ_lt_succ small)
  rw [show c.scan + 1 + k = c.scan + (k + 1) by omega]
  exact next

private theorem Ahead.start (before : Ahead bufSize enabledMask w 0 (byte :: later) c)
    (accepted : w.Accepted bufSize enabledMask) (first : byte = w.frame.getD 0 0) :
    c.turn.2 = .none ∧ Ahead bufSize enabledMask w 1 later c.turn.1 := by
  have idle : c.processPkt = none := before.work
  have turn := Instance.turn_start (c := c) idle
    (by rw [before.current, first, accepted.conforms.start]; exact startOf_startByte w.processor)
    (by rw [before.mask]; exact accepted.enabled)
  have sound := before.sound_turn
  have tail := before.tail
  have rest := before.remaining
  rw [List.length_cons] at tail
  rw [turn] at sound ⊢
  refine ⟨rfl, sound, before.size, before.mask, rfl, rfl, ?_, before.inside, ?_, rest⟩
  · show c.tail = c.scan + 1 + later.length
    omega
  · intro k small
    obtain rfl : k = 0 := by omega
    exact before.current.trans first

private theorem Ahead.carries (before : Ahead bufSize enabledMask w count (byte :: later) c)
    (begun : 0 < count) (more : count < w.frame.length) (next : byte = w.frame.getD count 0) :
    c.processPkt = some w.processor ∧ c.Holds w.processor ∧ c.Carries w.frame ∧
      c.numBytes = count + 1 := by
  have work := before.work
  rw [if_neg (by omega)] at work
  have scan := before.scan
  have number : c.numBytes = count + 1 := by
    unfold Instance.numBytes
    omega
  refine ⟨work, (before.sound.tracked _ work).2, ⟨by omega, by omega, fun k small => ?_⟩, number⟩
  rw [number] at small
  by_cases last : k = count
  · subst last
    have here := before.current
    unfold Instance.current at here
    rw [scan] at here
    exact here.trans next
  · exact before.bytes k (by omega)

/-- Within a frame its processor waits. -/
private theorem Ahead.wait (before : Ahead bufSize enabledMask w count (byte :: later) c)
    (accepted : w.Accepted bufSize enabledMask) (begun : 0 < count)
    (more : count + 1 < w.frame.length) (next : byte = w.frame.getD count 0) :
    c.turn.2 = .none ∧ Ahead bufSize enabledMask w (count + 1) later c.turn.1 := by
  obtain ⟨busy, holds, carries, number⟩ := before.carries begun (by omega) next
  obtain ⟨state, size, waits⟩ :=
    accepted.conforms.waits c before.size holds carries (by omega)
  have turn := Instance.turn_busy busy
  rw [waits] at turn
  have sound := before.sound_turn
  have scan := before.scan
  have tail := before.tail
  have rest := before.remaining
  rw [List.length_cons] at tail
  rw [turn] at sound ⊢
  refine ⟨rfl, sound, before.size, before.mask, ?_, ?_, ?_, before.inside, ?_, rest⟩
  · rw [if_neg (Nat.succ_ne_zero count)]
    exact busy
  · show c.scan + 1 = c.head + (count + 1)
    omega
  · show c.tail = c.scan + 1 + later.length
    omega
  · intro k small
    exact carries.bytes k (by omega)

private theorem Ahead.last (before : Ahead bufSize enabledMask w count (byte :: later) c)
    (accepted : w.Accepted bufSize enabledMask) (begun : 0 < count)
    (last : count + 1 = w.frame.length) (next : byte = w.frame.getD count 0) :
    c.turn.2 = w.report.ptype ∧ w.Found c.turn.1 ∧
      Ahead bufSize enabledMask w 0 later c.turn.1 := by
  obtain ⟨busy, holds, carries, number⟩ := before.carries begun (by omega) next
  obtain ⟨pkt, ackNeeded, accepts, reported⟩ :=
    accepted.conforms.accepts c before.size holds carries (by omega)
  have turn := Instance.turn_busy busy
  rw [accepts] at turn
  have sound := before.sound_turn
  have scan := before.scan
  have tail := before.tail
  have rest := before.remaining
  rw [List.length_cons] at tail
  rw [turn] at sound ⊢
  refine ⟨rfl, ⟨reported, c, _, accepts, rfl⟩, sound, before.size, before.mask, rfl, ?_, ?_,
    before.inside, fun _ small => absurd small (Nat.not_lt_zero _), rest⟩
  · show c.scan + 1 = c.head + c.numBytes + 0
    omega
  · show c.tail = c.scan + 1 + later.length
    omega

end Turns

/-! ### A stream of frames -/

/-- The bytes of frames. -/
def stream (written : List Written) : List UInt8 := written.flatMap Written.frame

/-- Where the parser is in a stream: `count` bytes of the next frame are parsed. -/
def Stands (bufSize : Nat) (enabledMask : UInt32) (count : Nat) (ahead : List UInt8) (c : Instance) :
    List Written → Prop
  | [] => count = 0 ∧ ∀ w, Ahead bufSize enabledMask w 0 ahead c
  | w :: _ => count < w.frame.length ∧ Ahead bufSize enabledMask w count ahead c

section Search

variable {bufSize : Nat} {enabledMask : UInt32} {w : Written} {count fuel : Nat}
  {ahead later : List UInt8} {c : Instance}

private theorem search_silent (more : c.scan < c.tail) (silent : c.turn.2 = .none) :
    c.search (fuel + 1) = c.turn.1.search fuel := by
  show (if _ then _ else _) = _
  rw [if_pos more, if_pos silent]

/-- Bytes that do not reach the end of the frame. -/
private theorem search_within (accepted : w.Accepted bufSize enabledMask)
    (before : Ahead bufSize enabledMask w count ahead c)
    (begins : ahead <+: w.frame.drop count) (short : count + ahead.length < w.frame.length)
    (enough : c.budget ≤ fuel) : (c.search fuel).2 = .none ∧
      Ahead bufSize enabledMask w (count + ahead.length) [] (c.search fuel).1 := by
  induction ahead generalizing count c fuel with
  | nil =>
    have done : c.search fuel = (c, .none) := by
      have tail := before.tail
      rw [List.length_nil] at tail
      cases fuel with
      | zero => rfl
      | succ fuel => exact if_neg (by omega)
    rw [done]
    exact ⟨rfl, before⟩
  | cons byte later ih =>
    rw [List.length_cons] at short
    obtain ⟨same, begins⟩ : byte = w.frame.getD count 0 ∧ later <+: w.frame.drop (count + 1) := by
      rw [drop_split (show count < w.frame.length by omega)] at begins
      exact List.cons_prefix_cons.mp begins
    have more := before.inside_scan
    obtain ⟨silent, next⟩ : c.turn.2 = .none ∧
        Ahead bufSize enabledMask w (count + 1) later c.turn.1 := by
      by_cases start : count = 0
      · subst start
        exact before.start accepted same
      · exact before.wait accepted (by omega) (by omega) same
    obtain ⟨-, less⟩ := Instance.turn_progress before.sound.ordered more
    obtain ⟨fuel, rfl⟩ : ∃ less, fuel = less + 1 := ⟨fuel - 1, by omega⟩
    rw [search_silent more silent, List.length_cons,
      show count + (later.length + 1) = count + 1 + later.length by omega]
    exact ih next begins (by omega) (by omega)

/-- Bytes that reach it. -/
private theorem search_found (accepted : w.Accepted bufSize enabledMask)
    (before : Ahead bufSize enabledMask w count (w.frame.drop count ++ later) c)
    (inside : count < w.frame.length) (enough : c.budget ≤ fuel) :
    (c.search fuel).2 = w.report.ptype ∧ w.Found (c.search fuel).1 ∧
      Ahead bufSize enabledMask w 0 later (c.search fuel).1 := by
  induction left : w.frame.length - (count + 1) generalizing count c fuel with
  | zero =>
    have long := accepted.conforms.long
    rw [drop_split inside, List.drop_eq_nil_of_le (by omega)] at before
    have more := before.inside_scan
    obtain ⟨answer, found, after⟩ := before.last accepted (by omega) (by omega) rfl
    obtain ⟨-, less⟩ := Instance.turn_progress before.sound.ordered more
    obtain ⟨fuel, rfl⟩ : ∃ less, fuel = less + 1 := ⟨fuel - 1, by omega⟩
    have reported : c.turn.2 ≠ .none := by
      rw [answer]
      exact accepted.conforms.packet
    have stops : c.search (fuel + 1) = c.turn := by
      show (if _ then _ else _) = _
      rw [if_pos more, if_neg reported]
    rw [stops]
    exact ⟨answer, found, after⟩
  | succ left ih =>
    rw [drop_split inside] at before
    have more := before.inside_scan
    obtain ⟨silent, next⟩ : c.turn.2 = .none ∧
        Ahead bufSize enabledMask w (count + 1) (w.frame.drop (count + 1) ++ later) c.turn.1 := by
      by_cases start : count = 0
      · subst start
        exact before.start accepted rfl
      · exact before.wait accepted (by omega) (by omega) rfl
    obtain ⟨-, less⟩ := Instance.turn_progress before.sound.ordered more
    obtain ⟨fuel, rfl⟩ : ∃ less, fuel = less + 1 := ⟨fuel - 1, by omega⟩
    rw [search_silent more silent]
    exact ih next (by omega) (by omega) (by omega)

end Search

section Reads

variable {bufSize : Nat} {enabledMask : UInt32} {written : List Written} {count fuel : Nat}
  {ahead bytes : List UInt8} {c : Instance} {handle : Handle σ} {own : σ → ι → σ}

private theorem Ahead.stands {w : Written} (after : Ahead bufSize enabledMask w 0 ahead c)
    (accepted : ∀ w ∈ written, w.Accepted bufSize enabledMask) :
    Stands bufSize enabledMask 0 ahead c written := by
  cases written with
  | nil => exact ⟨rfl, after.other⟩
  | cons next rest =>
    exact ⟨Nat.lt_of_lt_of_le Nat.zero_lt_two (accepted next (.head _)).conforms.long,
      after.other next⟩

/-- What the loop makes of bytes of the stream. -/
private theorem handleFor_stands (node : σ) (accepted : ∀ w ∈ written, w.Accepted bufSize enabledMask)
    (stands : Stands bufSize enabledMask count ahead c written)
    (begins : ahead <+: (stream written).drop count) (enough : ahead.length < fuel) :
    ∃ found rest left, written = found ++ rest ∧
      Passes handle own (found.map .inl) node (handleFor handle fuel c node).2 ∧
      Stands bufSize enabledMask left [] (handleFor handle fuel c node).1 rest ∧
      count + ahead.length = (stream found).length + left := by
  obtain ⟨fuel, rfl⟩ : ∃ less, fuel = less + 1 := ⟨fuel - 1, by omega⟩
  induction written generalizing count ahead c node fuel with
  | nil =>
    obtain ⟨rfl, anywhere⟩ := stands
    obtain rfl : ahead = [] := List.prefix_nil.mp begins
    have before := anywhere ⟨.isb, [], { ptype := .none, packet := none }⟩
    have idle : c.isCommParse = (c, .none) := by
      rw [Instance.isCommParse_eq before.sound.toReady]
      cases c.budget with
      | zero => rfl
      | succ fuel => exact if_neg (Nat.not_lt.mpr (Nat.le_of_eq before.tail))
    have rests : handleFor handle (fuel + 1) c node = (c, node) := by
      unfold handleFor
      rw [idle]
      exact if_pos rfl
    rw [rests]
    exact ⟨[], [], 0, rfl, .nil node, ⟨rfl, anywhere⟩, rfl⟩
  | cons w rest ih =>
    obtain ⟨inside, before⟩ := stands
    have good := accepted w (.head _)
    have parse := Instance.isCommParse_eq before.sound.toReady
    have split : (stream (w :: rest)).drop count = w.frame.drop count ++ stream rest := by
      show (w.frame ++ stream rest).drop count = _
      rw [List.drop_append_of_le_length (Nat.le_of_lt inside)]
    rw [split] at begins
    unfold handleFor
    rw [parse]
    by_cases short : count + ahead.length < w.frame.length
    · have within : ahead <+: w.frame.drop count := List.prefix_of_prefix_length_le begins
        (List.prefix_append _ _) (by rw [List.length_drop]; omega)
      obtain ⟨silent, after⟩ := search_within good before within short (Nat.le_refl _)
      rw [if_pos silent]
      exact ⟨[], w :: rest, count + ahead.length, rfl, .nil node, ⟨short, after⟩,
        (Nat.zero_add _).symm⟩
    · obtain ⟨later, rfl⟩ : w.frame.drop count <+: ahead := List.prefix_of_prefix_length_le
        (List.prefix_append _ _) begins (by rw [List.length_drop]; omega)
      obtain ⟨answer, found, after⟩ := search_found good before inside (Nat.le_refl _)
      have others : ∀ w ∈ rest, w.Accepted bufSize enabledMask :=
        fun w member => accepted w (.tail _ member)
      rw [if_neg (by rw [answer]; exact good.conforms.packet)]
      have length : (w.frame.drop count).length = w.frame.length - count := List.length_drop ..
      rw [List.length_append] at enough
      obtain ⟨less, rfl⟩ : ∃ less, fuel = less + 1 := ⟨fuel - 1, by omega⟩
      obtain ⟨done, left, count', rfl, handled, stands, lengths⟩ :=
        ih (handle node (c.search c.budget)) others (after.stands others)
          ((List.prefix_append_right_inj _).mp begins) less (by omega)
      refine ⟨w :: done, left, count', rfl, .found found ?_, stands, ?_⟩
      · rw [show ((c.search c.budget).1, w.report.ptype) = c.search c.budget from
          Prod.ext rfl answer.symm]
        exact handled
      · rw [List.length_append, length]
        show _ = (w.frame ++ stream done).length + count'
        rw [List.length_append]
        omega

private theorem Ahead.free {w : Written} (before : Ahead bufSize enabledMask w count [] c)
    (fits : count < bufSize - bufSize / 3) : Ahead bufSize enabledMask w count [] c.isCommFree.1 := by
  obtain ⟨sound, rfl, mask, work, scan, tail, inside, bytes, -⟩ := before
  have keeps := Instance.isCommFree_keeps scan tail inside fits
  refine ⟨sound.isCommFree, keeps.size, keeps.mask.trans mask, keeps.processPkt.trans work,
    keeps.scan, keeps.tail, ?_, fun k small => (keeps.bytes k small).trans (bytes k small),
    fun _ small => absurd small (Nat.not_lt_zero _)⟩
  rw [keeps.size]
  exact Nat.le_of_lt keeps.room

private theorem Ahead.append {w : Written} (before : Ahead bufSize enabledMask w count [] c)
    (room : c.tail + bytes.length ≤ c.bufSize) :
    Ahead bufSize enabledMask w count bytes (c.append bytes) := by
  obtain ⟨sound, size, mask, work, scan, tail, inside, held, -⟩ := before
  rw [List.length_nil, Nat.add_zero] at tail
  refine ⟨sound.append bytes, size, mask, work, scan, ?_, room, ?_, ?_⟩
  · show c.tail + bytes.length = c.scan + bytes.length
    rw [tail]
  · intro k small
    show store c.mem c.tail bytes (c.head + k) = _
    rw [store_outside _ (.inl (by omega))]
    exact held k small
  · intro k small
    show store c.mem c.tail bytes (c.scan + k) = _
    rw [← tail, store_inside _ small, List.getD_eq_getElem?_getD, List.getElem?_eq_getElem small,
      Option.getD_some]

private theorem Stands.tail (stands : Stands bufSize enabledMask count ahead c written) :
    c.tail = c.scan + ahead.length := by
  cases written with
  | nil => exact (stands.2 ⟨.isb, [], { ptype := .none, packet := none }⟩).tail
  | cons => exact stands.2.tail

private theorem Stands.map {written : List Written} {ahead' : List UInt8} {d : Instance}
    (stands : Stands bufSize enabledMask count ahead c written)
    (accepted : ∀ w ∈ written, w.Accepted bufSize enabledMask) (room : 0 < bufSize)
    (moves : ∀ w : Written, count < bufSize - bufSize / 3 →
      Ahead bufSize enabledMask w count ahead c → Ahead bufSize enabledMask w count ahead' d) :
    Stands bufSize enabledMask count ahead' d written := by
  cases written with
  | nil =>
    obtain ⟨rfl, anywhere⟩ := stands
    exact ⟨rfl, fun w => moves w (by omega) (anywhere w)⟩
  | cons w rest =>
    obtain ⟨inside, before⟩ := stands
    exact ⟨inside, moves w (Nat.lt_of_lt_of_le inside (accepted w (.head _)).fits) before⟩

private theorem ahead_le_budget (c : Instance) : c.tail - c.scan ≤ c.budget := by
  have bound : c.tail - c.scan ≤ c.passes := by
    unfold Instance.passes Instance.floor
    cases c.processPkt with
    | none => exact Nat.le_add_right_of_le (Nat.le_mul_of_pos_right _ (Nat.succ_pos _))
    | some => exact Nat.le_add_left_of_le (Nat.le_succ _)
  unfold Instance.budget
  omega

private theorem isCommPortParseMessages_stands (handle : Handle σ) (own : σ → ι → σ) (node : σ)
    (accepted : ∀ w ∈ written, w.Accepted bufSize enabledMask) (room : 0 < bufSize)
    (stands : Stands bufSize enabledMask count [] c written)
    (begins : bytes <+: (stream written).drop count) (fits : bytes.length ≤ c.isCommFree.2) :
    ∃ found rest left, written = found ++ rest ∧
      Passes handle own (found.map .inl) node (isCommPortParseMessages handle c node bytes).2 ∧
      Stands bufSize enabledMask left [] (isCommPortParseMessages handle c node bytes).1 rest ∧
      count + bytes.length = (stream found).length + left := by
  have freed : Stands bufSize enabledMask count [] c.isCommFree.1 written :=
    stands.map accepted room fun w small before => before.free small
  unfold isCommPortParseMessages
  split
  case isTrue nothing =>
    subst nothing
    exact ⟨[], written, count, rfl, .nil node, freed, (Nat.zero_add _).symm⟩
  case isFalse =>
    rw [Instance.isCommFree_snd] at fits
    have arrived : Stands bufSize enabledMask count bytes (c.isCommFree.1.append bytes) written :=
      freed.map accepted room fun w _ before => before.append (by have := before.inside; omega)
    have scan : (c.isCommFree.1.append bytes).tail =
        (c.isCommFree.1.append bytes).scan + bytes.length := arrived.tail
    have enough := ahead_le_budget (c.isCommFree.1.append bytes)
    exact handleFor_stands node accepted arrived begins (by omega)

end Reads

/-! ### The pipe -/

/-- A pipe, the parser at its end, and the handler's state. -/
structure Link (σ : Type*) where
  pipe : List UInt8
  comm : Instance
  node : σ

/-- A frame is written, `portRead` is asked once and brings so many bytes, if they are there and
there is room for them, or the handler does something of its own. -/
inductive LinkAction (ι : Type*) where
  | write (w : Written)
  | read (count : Nat)
  | own (i : ι)

namespace Link

/-- The bytes that `portRead` brings. -/
def brings (l : Link σ) (count : Nat) : List UInt8 := l.pipe.take (min count l.comm.isCommFree.2)

def step (handle : Handle σ) (own : σ → ι → σ) (l : Link σ) : LinkAction ι → Link σ × Unit
  | .write w => ({ l with pipe := l.pipe ++ w.frame }, ())
  | .read count =>
    ({ pipe := l.pipe.drop (l.brings count).length
       comm := (isCommPortParseMessages handle l.comm l.node (l.brings count)).1
       node := (isCommPortParseMessages handle l.comm l.node (l.brings count)).2 }, ())
  | .own i => ({ l with node := own l.node i }, ())

/-- Nothing is written, and the parser is fresh. -/
def start (mem : Nat → UInt8) (bufSize : Nat) (enabledMask : UInt32) (node : σ) : Link σ :=
  { pipe := [], comm := started mem bufSize enabledMask, node }

end Link

namespace LinkAction

/-- The frames that are written, in order. -/
def writes (actions : List (LinkAction ι)) : List Written :=
  actions.filterMap fun action => match action with
    | .write w => some w
    | _ => none

/-- What the handler does of its own, in order. -/
def owns (actions : List (LinkAction ι)) : List ι :=
  actions.filterMap fun action => match action with
    | .own i => some i
    | _ => none

end LinkAction

/-- The frames that are found are the first ones that were written, and the others are in the pipe,
or the parser is within the first of them. -/
structure Link.Delivers (bufSize : Nat) (enabledMask : UInt32) (handle : Handle σ) (own : σ → ι → σ)
    (node : σ) (written : List Written) (owned : List ι) (history : List (Written ⊕ ι))
    (rest : List Written) (count : Nat) (l : Link σ) : Prop where
  split : written = history.filterMap Sum.getLeft? ++ rest
  owned : history.filterMap Sum.getRight? = owned
  passes : Passes handle own history node l.node
  stands : Stands bufSize enabledMask count [] l.comm rest
  pipe : (stream rest).drop count = l.pipe

section Runs

variable {bufSize : Nat} {enabledMask : UInt32} {handle : Handle σ} {own : σ → ι → σ} {node : σ}
  {written rest : List Written} {owned : List ι} {history : List (Written ⊕ ι)} {count : Nat}
  {l : Link σ}

theorem stream_append (first second : List Written) :
    stream (first ++ second) = stream first ++ stream second :=
  List.flatMap_append

private theorem Stands.le_length {c : Instance} {ahead : List UInt8}
    (stands : Stands bufSize enabledMask count ahead c rest) : count ≤ (stream rest).length := by
  cases rest with
  | nil => exact Nat.le_of_eq stands.1
  | cons w rest =>
    show count ≤ (w.frame ++ stream rest).length
    rw [List.length_append]
    exact Nat.le_add_right_of_le (Nat.le_of_lt stands.1)

private theorem Stands.write {c : Instance} (stands : Stands bufSize enabledMask count [] c rest)
    {w : Written} (accepted : w.Accepted bufSize enabledMask) :
    Stands bufSize enabledMask count [] c (rest ++ [w]) := by
  cases rest with
  | nil =>
    obtain ⟨rfl, anywhere⟩ := stands
    exact ⟨Nat.lt_of_lt_of_le Nat.zero_lt_two accepted.conforms.long, anywhere w⟩
  | cons => exact stands

private theorem found_left (found : List Written) :
    (found.map (Sum.inl (β := ι))).filterMap Sum.getLeft? = found := by
  rw [List.filterMap_map]
  exact List.filterMap_some

private theorem found_right (found : List Written) :
    (found.map (Sum.inl (β := ι))).filterMap Sum.getRight? = [] := by
  rw [List.filterMap_map]
  exact List.filterMap_eq_nil_iff.mpr fun _ _ => rfl

private theorem step_delivers (room : 0 < bufSize)
    (accepted : ∀ w ∈ written, w.Accepted bufSize enabledMask)
    (delivers : l.Delivers bufSize enabledMask handle own node written owned history rest count)
    {action : LinkAction ι}
    (good : ∀ w ∈ LinkAction.writes [action], w.Accepted bufSize enabledMask) :
    ∃ history' rest' count', (l.step handle own action).1.Delivers bufSize enabledMask handle own node
      (written ++ LinkAction.writes [action]) (owned ++ LinkAction.owns [action]) history' rest'
      count' := by
  obtain ⟨rfl, rfl, passes, stands, pipe⟩ := delivers
  cases action with
  | write w =>
    refine ⟨history, rest ++ [w], count, List.append_assoc .., (List.append_nil _).symm, passes,
      stands.write (good w (.head _)), ?_⟩
    show _ = l.pipe ++ w.frame
    rw [stream_append, List.drop_append_of_le_length stands.le_length, pipe]
    exact congrArg (l.pipe ++ ·) (List.append_nil w.frame)
  | own i =>
    refine ⟨history ++ [.inr i], rest, count, ?_, ?_, passes.append (.own (.nil _)), stands, pipe⟩
    · rw [List.filterMap_append]
      show _ ++ _ ++ [] = _ ++ [] ++ _
      rw [List.append_nil, List.append_nil]
    · exact List.filterMap_append
  | read many =>
    obtain ⟨now, later, left, rfl, passes', stands', lengths⟩ :=
      isCommPortParseMessages_stands handle own l.node
        (fun w member => accepted w (List.mem_append_right _ member)) room stands
        (show l.brings many <+: _ by rw [pipe]; exact List.take_prefix ..)
        (by
          unfold Link.brings
          rw [List.length_take]
          exact Nat.le_trans (Nat.min_le_left ..) (Nat.min_le_right ..))
    refine ⟨history ++ now.map .inl, later, left, ?_, ?_, passes.append passes', stands', ?_⟩
    · rw [List.filterMap_append, found_left]
      show _ ++ (now ++ later) ++ [] = _ ++ now ++ later
      rw [List.append_nil, List.append_assoc]
    · rw [List.filterMap_append, found_right]
      rfl
    · show _ = l.pipe.drop (l.brings many).length
      rw [← pipe, List.drop_drop, lengths, stream_append, List.drop_length_add_append]

theorem run_delivers (room : 0 < bufSize)
    (accepted : ∀ w ∈ written, w.Accepted bufSize enabledMask)
    (delivers : l.Delivers bufSize enabledMask handle own node written owned history rest count)
    {actions : List (LinkAction ι)}
    (good : ∀ w ∈ LinkAction.writes actions, w.Accepted bufSize enabledMask) :
    ∃ history' rest' count', (run (Link.step handle own) l actions).1.Delivers bufSize enabledMask
      handle own node (written ++ LinkAction.writes actions) (owned ++ LinkAction.owns actions)
      history' rest' count' := by
  induction actions generalizing l written owned history rest count with
  | nil =>
    refine ⟨history, rest, count, ?_⟩
    show l.Delivers _ _ _ _ _ (written ++ []) (owned ++ []) _ _ _
    rw [List.append_nil, List.append_nil]
    exact delivers
  | cons action actions ih =>
    have writes : LinkAction.writes (action :: actions) =
        LinkAction.writes [action] ++ LinkAction.writes actions := List.filterMap_append (l := [action])
    have owns : LinkAction.owns (action :: actions) =
        LinkAction.owns [action] ++ LinkAction.owns actions := List.filterMap_append (l := [action])
    rw [writes] at good ⊢
    have now : ∀ w ∈ LinkAction.writes [action], w.Accepted bufSize enabledMask :=
      fun w member => good w (List.mem_append_left _ member)
    obtain ⟨history', rest', count', next⟩ := step_delivers room accepted delivers now
    rw [owns, ← List.append_assoc, ← List.append_assoc]
    exact ih (fun w member => (List.mem_append.mp member).elim (accepted w) (now w)) next
      fun w member => good w (List.mem_append_right _ member)

theorem start_delivers (mem : Nat → UInt8) (bufSize : Nat) (enabledMask : UInt32) (handle : Handle σ)
    (own : σ → ι → σ) (node : σ) :
    (Link.start mem bufSize enabledMask node).Delivers bufSize enabledMask handle own node [] [] [] []
      0 where
  split := rfl
  owned := rfl
  passes := .nil node
  stands := by
    refine ⟨rfl, fun w => ?_⟩
    obtain ⟨sound, size, mask, idle, scan, tail, inside⟩ := started_boundary mem bufSize enabledMask
    exact ⟨sound, size, mask, idle, scan, tail, inside, fun _ small => absurd small (Nat.not_lt_zero _),
      fun _ small => absurd small (Nat.not_lt_zero _)⟩
  pipe := rfl

/-- What is in the pipe ends the frames that are not found, and the first of them is not read whole. -/
theorem Link.Delivers.unread
    (delivers : l.Delivers bufSize enabledMask handle own node written owned history rest count) :
    l.pipe <:+ stream rest ∧
      ∀ w ∈ rest.head?, (stream rest).length < l.pipe.length + w.frame.length := by
  obtain ⟨-, -, -, stands, pipe⟩ := delivers
  rw [← pipe]
  refine ⟨List.drop_suffix .., fun w first => ?_⟩
  cases rest with
  | nil => cases first
  | cons next rest =>
    obtain rfl := Option.some.inj first
    have inside := stands.1
    rw [List.length_drop]
    omega

/-! ### The frames in a pipe -/

/-- The frames that are in the pipe, or within the parser. -/
def Link.Queues (bufSize : Nat) (enabledMask : UInt32) (rest : List Written) (l : Link σ) : Prop :=
  ∃ count, Stands bufSize enabledMask count [] l.comm rest ∧ (stream rest).drop count = l.pipe

theorem Link.Queues.write {σ : Type*} {l : Link σ} (queues : l.Queues bufSize enabledMask rest)
    (accepted : ∀ w ∈ written, w.Accepted bufSize enabledMask) :
    ({ l with pipe := l.pipe ++ stream written } : Link σ).Queues bufSize enabledMask
      (rest ++ written) := by
  induction written generalizing l rest with
  | nil =>
    show ({ l with pipe := l.pipe ++ [] } : Link σ).Queues _ _ _
    rw [List.append_nil, List.append_nil]
    exact queues
  | cons w written ih =>
    obtain ⟨count, stands, pipe⟩ := queues
    have next : ({ l with pipe := l.pipe ++ w.frame } : Link σ).Queues bufSize enabledMask
        (rest ++ [w]) := by
      refine ⟨count, stands.write (accepted w (.head _)), ?_⟩
      rw [stream_append, List.drop_append_of_le_length stands.le_length, pipe]
      exact congrArg (l.pipe ++ ·) (List.append_nil w.frame)
    have later := ih next fun w member => accepted w (.tail _ member)
    rw [List.append_assoc] at later
    change ({ l with pipe := l.pipe ++ w.frame ++ stream written } : Link σ).Queues _ _ _ at later
    rw [List.append_assoc] at later
    exact later

/-- A read goes through the first frames. -/
theorem Link.Queues.read (handle : Handle σ) (own : σ → ι → σ) (room : 0 < bufSize)
    (queues : l.Queues bufSize enabledMask rest)
    (accepted : ∀ w ∈ rest, w.Accepted bufSize enabledMask) (many : Nat) :
    ∃ found later, rest = found ++ later ∧
      Passes handle own (found.map .inl) l.node (l.step handle own (.read many)).1.node ∧
      (l.step handle own (.read many)).1.Queues bufSize enabledMask later := by
  obtain ⟨count, stands, pipe⟩ := queues
  obtain ⟨found, later, left, rfl, passes, stands', lengths⟩ :=
    isCommPortParseMessages_stands handle own l.node accepted room stands
      (show l.brings many <+: _ by rw [pipe]; exact List.take_prefix ..)
      (by
        unfold Link.brings
        rw [List.length_take]
        exact Nat.le_trans (Nat.min_le_left ..) (Nat.min_le_right ..))
  refine ⟨found, later, rfl, passes, left, stands', ?_⟩
  show _ = l.pipe.drop (l.brings many).length
  rw [← pipe, List.drop_drop, lengths, stream_append, List.drop_length_add_append]

/-- An empty pipe is behind the last frame. -/
theorem Link.Queues.none {σ : Type*} {l : Link σ} (queues : l.Queues bufSize enabledMask rest)
    (empty : l.pipe = []) : rest = [] := by
  obtain ⟨count, stands, pipe⟩ := queues
  cases rest with
  | nil => rfl
  | cons w rest =>
    have inside := stands.1
    rw [empty, List.drop_eq_nil_iff] at pipe
    change (w.frame ++ stream rest).length ≤ count at pipe
    rw [List.length_append] at pipe
    omega

theorem Link.Queues.start (mem : Nat → UInt8) (bufSize : Nat) (enabledMask : UInt32) (node : σ) :
    (Link.start mem bufSize enabledMask node).Queues bufSize enabledMask [] := by
  have fresh := start_delivers mem bufSize enabledMask (fun node _ => node) (fun node (_ : Unit) => node)
    node
  exact ⟨0, fresh.stands, rfl⟩

end Runs

end InertialSense.Comm
