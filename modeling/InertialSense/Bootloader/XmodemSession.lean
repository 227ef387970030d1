import InertialSense.Bootloader.Xmodem
import InertialSense.Foundation.Run

/-! `cISBootloaderSAMBA::write_uart_modem` of `ISBootloaderSAMBA.cpp` against a receiver: chunks and
answers may be damaged or lost, and the receiver has the data once the function succeeds. -/

namespace InertialSense.Bootloader.XmodemSession

open Foundation

/-- `UART_XMODEM_SOH`, `UART_XMODEM_ACK` and `UART_XMODEM_CAN`. -/
def uartXmodemSoh : UInt8 := 0x01

def uartXmodemAck : UInt8 := 0x06

def uartXmodemCan : UInt8 := 0x18

/-- Where `write_uart_modem` is: before the first chunk, at a chunk, behind the last one. -/
inductive Phase where
  | waiting
  | sending
  | ending
  | returned (ok : Bool)
deriving DecidableEq

/-- The variables of `write_uart_modem`: `buf` and `len` are what is left of the data. -/
structure Sender where
  phase : Phase
  block : UInt8
  buf : List UInt8
deriving DecidableEq

/-- What the port does next: whether it takes the bytes that are written, whether they arrive as they
are, and the byte that is read behind that. -/
structure Reply where
  written : Bool
  arrives : Bool
  answer : Option UInt8

namespace Sender

/-- The next chunk, or the end of the transmission. -/
def next (s : Sender) : Sender :=
  { s with phase := if s.buf = [] then .ending else .sending }

/-- The chunk that is sent. -/
def chunk (s : Sender) : XmodemChunk := fillChunk s.block s.buf

/-- A pass of the loop that waits, a pass of the loop over the chunks, or the end behind them. -/
def step (s : Sender) (reply : Reply) : Sender × Unit :=
  (match s.phase with
    | .waiting =>
      match reply.answer with
      | none => { s with phase := .returned false }
      | some answer => if answer = 0x43 then s.next else s
    | .sending =>
      if reply.written then
        match reply.answer with
        | none => { s with phase := .returned false }
        | some answer =>
          if answer = uartXmodemAck then
            { s with
              block := s.block + 1
              buf := s.buf.drop (min s.buf.length uartXmodemPayloadSize) }.next
          else if answer = uartXmodemCan then { s with phase := .returned false }
          -- the same chunk again
          else s
      else { s with phase := .returned false }
    | .ending =>
      if reply.written then { s with phase := .returned (reply.answer = some uartXmodemAck) }
      else { s with phase := .returned false }
    | .returned _ => s, ())

/-- The function is called with this data. -/
def start (buf : List UInt8) : Sender where
  phase := .waiting
  block := 1
  buf

end Sender

/-- A receiver: the number that it waits for, and the payloads that it has kept. -/
structure Receiver where
  expected : UInt8
  kept : List (List UInt8)

/-- A chunk is kept if it is whole and has the number that is waited for. -/
def Receiver.take (r : Receiver) (chunk : XmodemChunk) : Receiver :=
  if chunk.start = uartXmodemSoh ∧ chunk.blockNeg = 0xff - chunk.block ∧
      crc16 (chunk.payload ++ storedCrc chunk.crc) 130 = 0 ∧ chunk.block = r.expected then
    { expected := r.expected + 1, kept := r.kept ++ [chunk.payload] }
  else r

/-- What the receiver makes of a pass of the sender. -/
def Receiver.observe (r : Receiver) (s : Sender) (reply : Reply) (_ : Unit) : Receiver :=
  if s.phase = .sending ∧ reply.written ∧ reply.arrives then r.take s.chunk else r

/-- An acknowledgement is read for a chunk only if it has arrived. -/
def Honest (s : Sender) (reply : Reply) : Prop :=
  s.phase = .sending → reply.answer = some uartXmodemAck → reply.arrives = true

/-- Data, filled up to whole chunks. -/
def wholeChunks (buf : List UInt8) : List UInt8 :=
  buf ++ List.replicate ((128 - buf.length % 128) % 128) 0xff

section Session

variable {s : Sender} {r : Receiver} {buf : List UInt8}

private theorem wholeChunks_chunk (block : UInt8) {buf : List UInt8} (some : buf ≠ []) :
    (fillChunk block buf).payload ++ wholeChunks (buf.drop (min buf.length uartXmodemPayloadSize)) =
      wholeChunks buf := by
  have positive := List.length_pos_iff.mpr some
  unfold fillChunk wholeChunks uartXmodemPayloadSize
  dsimp only
  by_cases short : buf.length ≤ 128
  · rw [Nat.min_eq_left short, List.take_length, List.drop_length, List.length_nil, List.nil_append]
    by_cases full : buf.length = 128
    · rw [full, Nat.sub_self]
      exact List.append_nil _
    · rw [Nat.mod_eq_of_lt (show buf.length < 128 by omega),
        Nat.mod_eq_of_lt (show 128 - buf.length < 128 by omega)]
      exact List.append_nil _
  · have long : 128 ≤ buf.length := by omega
    have rest : (buf.length - 128) % 128 = buf.length % 128 := by omega
    rw [Nat.min_eq_right long, Nat.sub_self, List.replicate_zero, List.append_nil,
      ← List.append_assoc, List.take_append_drop, List.length_drop, rest]

private theorem take_chunk (r : Receiver) (s : Sender) : r.take s.chunk =
    if s.block = r.expected then
      { expected := r.expected + 1, kept := r.kept ++ [s.chunk.payload] }
    else r := by
  have size : s.chunk.payload.length = 128 := by
    simp [Sender.chunk, fillChunk, uartXmodemPayloadSize]
  have short : s.chunk.payload.length < 2 ^ 16 - 2 := by
    rw [size]
    decide
  have checked := crc16_appended short
  rw [size] at checked
  unfold Receiver.take
  refine if_congr ⟨fun all => all.2.2.2, fun same => ⟨rfl, rfl, checked, same⟩⟩ rfl rfl

/-- The receiver has what was acknowledged, and perhaps the chunk that is sent again. -/
private def Agree (buf : List UInt8) (s : Sender) (r : Receiver) : Prop :=
  r.expected = s.block ∧ r.kept.flatten ++ wholeChunks s.buf = wholeChunks buf ∨
    s.phase = .sending ∧ r.expected = s.block + 1 ∧ r.kept.flatten ++
      wholeChunks (s.buf.drop (min s.buf.length uartXmodemPayloadSize)) = wholeChunks buf

/-- Both parties, until the function fails. -/
private structure Together (buf : List UInt8) (s : Sender) (r : Receiver) : Prop where
  sending : s.phase = .sending → s.buf ≠ []
  ended : s.phase = .ending ∨ s.phase = .returned true → s.buf = []
  agree : s.phase ≠ .returned false → Agree buf s r

private theorem next_together (agree : r.expected = s.block ∧
    r.kept.flatten ++ wholeChunks s.buf = wholeChunks buf) : Together buf s.next r := by
  unfold Sender.next
  by_cases none : s.buf = []
  · rw [if_pos none]
    exact ⟨nofun, fun _ => none, fun _ => .inl agree⟩
  · rw [if_neg none]
    exact ⟨fun _ => none, fun ended => ended.elim nofun nofun, fun _ => .inl agree⟩

private theorem failed_together : Together buf { s with phase := .returned false } r :=
  ⟨nofun, fun ended => ended.elim nofun nofun, fun running => absurd rfl running⟩

/-- A chunk that arrives is kept, or was kept before. -/
private theorem observe_agree (phase : s.phase = .sending) (some : s.buf ≠ [])
    (agree : Agree buf s r) (reply : Reply) : Agree buf s (r.observe s reply ()) ∧
      (reply.written = true → reply.arrives = true →
        (r.observe s reply ()).expected = s.block + 1 ∧ (r.observe s reply ()).kept.flatten ++
          wholeChunks (s.buf.drop (min s.buf.length uartXmodemPayloadSize)) = wholeChunks buf) := by
  unfold Receiver.observe
  by_cases arrived : s.phase = .sending ∧ reply.written ∧ reply.arrives
  · rw [if_pos arrived, take_chunk]
    have kept : (if s.block = r.expected then
        { expected := r.expected + 1, kept := r.kept ++ [s.chunk.payload] } else r : Receiver).expected =
          s.block + 1 ∧ (if s.block = r.expected then
        { expected := r.expected + 1, kept := r.kept ++ [s.chunk.payload] } else r : Receiver).kept.flatten ++
          wholeChunks (s.buf.drop (min s.buf.length uartXmodemPayloadSize)) = wholeChunks buf := by
      obtain ⟨expected, whole⟩ | ⟨-, expected, whole⟩ := agree
      · rw [if_pos expected.symm, expected]
        refine ⟨rfl, ?_⟩
        dsimp only
        rw [List.flatten_append, List.flatten_singleton, List.append_assoc]
        show r.kept.flatten ++ ((fillChunk s.block s.buf).payload ++ _) = _
        rw [wholeChunks_chunk s.block some]
        exact whole
      · have other : s.block ≠ r.expected := by
          rw [expected]
          intro same
          have numbers := congrArg UInt8.toNat same
          rw [UInt8.toNat_add] at numbers
          have bound := s.block.toNat_lt
          change s.block.toNat = (s.block.toNat + 1) % 256 at numbers
          omega
        rw [if_neg other]
        exact ⟨expected, whole⟩
    exact ⟨.inr ⟨phase, kept⟩, fun _ _ => kept⟩
  · rw [if_neg arrived]
    exact ⟨agree, fun written arrives => absurd ⟨phase, written, arrives⟩ arrived⟩

private theorem step_together (together : Together buf s r) {reply : Reply}
    (honest : Honest s reply) : Together buf (s.step reply).1 (r.observe s reply ()) := by
  obtain ⟨sending, ended, agree⟩ := together
  have still (phase : s.phase ≠ .sending) : r.observe s reply () = r :=
    if_neg fun all => phase all.1
  have plain (phase : s.phase ≠ .sending) (running : s.phase ≠ .returned false) :
      r.expected = s.block ∧ r.kept.flatten ++ wholeChunks s.buf = wholeChunks buf :=
    (agree running).resolve_right fun other => phase other.1
  unfold Sender.step
  cases phase : s.phase with
  | waiting =>
    rw [still (by rw [phase]; nofun)]
    dsimp only
    cases reply.answer with
    | none => exact failed_together
    | some answer =>
      dsimp only
      split
      · exact next_together (plain (by rw [phase]; nofun) (by rw [phase]; nofun))
      · exact ⟨sending, ended, agree⟩
  | sending =>
    have some := sending phase
    obtain ⟨after, kept⟩ := observe_agree phase some (agree (by rw [phase]; nofun)) reply
    dsimp only
    by_cases written : reply.written = true
    · rw [if_pos written]
      cases read : reply.answer with
      | none => exact failed_together
      | some answer =>
        dsimp only
        split
        case isTrue acknowledged =>
          subst acknowledged
          exact next_together (kept written (honest phase read))
        split
        case isTrue => exact failed_together
        case isFalse => exact ⟨fun _ => some, ended, fun _ => after⟩
    · rw [if_neg written]
      exact failed_together
  | ending =>
    rw [still (by rw [phase]; nofun)]
    dsimp only
    split
    · refine ⟨nofun, fun _ => ended (.inl phase), fun _ => ?_⟩
      exact .inl (plain (by rw [phase]; nofun) (by rw [phase]; nofun))
    · exact failed_together
  | returned ok =>
    rw [still (by rw [phase]; nofun)]
    exact ⟨sending, ended, agree⟩

private theorem run_together {replies : List Reply} (together : Together buf s r)
    (honest : Along Sender.step Honest s replies) :
    Together buf (run Sender.step s replies).1
      (noted Sender.step Receiver.observe r s replies) := by
  induction replies generalizing s r with
  | nil => exact together
  | cons reply rest ih => exact ih (step_together together honest.1) honest.2

end Session

end InertialSense.Bootloader.XmodemSession
