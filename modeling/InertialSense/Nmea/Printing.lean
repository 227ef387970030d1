import InertialSense.Nmea.Report

/-! The sentence builders print into a buffer piece by piece. The offset goes on by the length that
would be printed, so that it is a simulation of the lengths alone that says where it ends. -/

namespace InertialSense.Nmea

open Foundation

/-! ### The pieces of a sentence -/

/-- What a builder does to a byte of its buffer. -/
inductive Access where
  | write (place : Nat)
  | read (place : Nat)
deriving DecidableEq

def writes (place count : Nat) : List Access := (List.range count).map fun k => .write (place + k)

def reads (place count : Nat) : List Access := (List.range count).map fun k => .read (place + k)

/-- The buffer, where the sentence starts that is printed, where its next piece goes, and what was
done to the buffer, the last first. -/
structure Printer where
  a : Nat → UInt8
  start : Nat
  n : Nat
  accesses : List Access

/-- A piece behind the head of a sentence. -/
inductive Piece where
  /-- `nmea_sprint`, with what its format makes of its arguments. -/
  | text (text : List Char)
  /-- `nmea_print_u32` and `nmea_print_i32` of zero. -/
  | comma

/-- How a sentence begins: with its name, or with `nmea_talker` and a name of three letters. -/
inductive Head where
  | named (text : List Char)
  | talker (id x y z : Char)

/-- What a builder prints before `nmea_sprint_footer`. -/
structure Draft where
  head : Head
  pieces : List Piece

namespace Printer

variable (aSize : Nat)

/-- `ssnprintf` at the offset, and `nmea_sprint`. -/
def text (p : Printer) (text : List Char) : Printer :=
  let (a, more) := ssnprintf p.a p.n (aSize - p.n) text
  { p with
    a
    n := p.n + more
    accesses :=
      (if aSize - p.n = 0 then [] else writes p.n ((text.take (aSize - p.n - 1)).length + 1)) ++
        p.accesses }

/-- A zero is printed as nothing but its comma, without a null character. -/
def comma (p : Printer) : Printer :=
  if aSize - p.n = 0 then p
  else
    { p with
      a := store p.a p.n [0x2C]
      n := p.n + 1
      accesses := .write p.n :: p.accesses }

/-- `nmea_talker`: three bytes where there is room for two. -/
def talker (p : Printer) (id : Char) : Printer :=
  if aSize - p.start < 2 then p
  else
    { p with
      a := store p.a p.start (textBytes ['$', 'G', id])
      n := p.start + 3
      accesses := writes p.start 3 ++ p.accesses }

/-- The text of `nmea_sprint_footer` for a checksum. -/
def footerText (checkSum : UInt8) : List Char :=
  '*' :: (padded 2 16 checkSum.toNat).map Char.toUpper ++ ['\r', '\n']

/-- `nmea_sprint_footer`; what is printed next is another sentence. -/
def footer (p : Printer) : Printer :=
  let checkSum := Comm.byteXor (window p.a (p.start + 1) (p.n - p.start - 1))
  let summed := { p with accesses := reads (p.start + 1) (p.n - p.start - 1) ++ p.accesses }
  let printed := summed.text aSize (footerText checkSum)
  { printed with start := printed.n }

def head (p : Printer) : Head → Printer
  | .named text => p.text aSize text
  | .talker id x y z => (p.talker aSize id).text aSize [x, y, z]

def piece (p : Printer) : Piece → Printer
  | .text text => p.text aSize text
  | .comma => p.comma aSize

/-- A whole sentence is printed. -/
def draft (p : Printer) (draft : Draft) : Printer :=
  (draft.pieces.foldl (piece aSize) (p.head aSize draft.head)).footer aSize

end Printer

/-- Sentences are printed one behind the other into a buffer. -/
def printDrafts (aSize : Nat) (a : Nat → UInt8) (drafts : List Draft) : Printer :=
  drafts.foldl (Printer.draft aSize) ⟨a, 0, 0, []⟩

/-- On the first sentence the footer is the one of the reports. -/
theorem footer_eq (aSize : Nat) {p : Printer} (first : p.start = 0) :
    ((p.footer aSize).a, (p.footer aSize).n) = nmeaSprintFooter p.a aSize p.n := by
  simp only [Printer.footer, Printer.text, nmeaSprintFooter, Printer.footerText, first, Nat.zero_add,
    Nat.sub_zero]

/-! ### What is written and read -/

/-- Each byte that is read was written before. -/
def Justified : List Access → Prop
  | [] => True
  | .read place :: earlier => .write place ∈ earlier ∧ Justified earlier
  | .write _ :: earlier => Justified earlier

/-- A builder has respected its buffer: it wrote inside, it read what it had written, and the length
that it returns is of bytes that it has written. -/
structure Printer.Respects (aSize : Nat) (p : Printer) : Prop where
  inside : ∀ place, .write place ∈ p.accesses → place < aSize
  justified : Justified p.accesses
  length : p.n ≤ aSize
  covers : ∀ place < p.n, .write place ∈ p.accesses

@[simp] theorem mem_writes {place count k : Nat} :
    .write k ∈ writes place count ↔ place ≤ k ∧ k < place + count := by
  simp only [writes, List.mem_map, List.mem_range, Access.write.injEq]
  constructor
  · rintro ⟨j, inside, rfl⟩
    omega
  · rintro ⟨low, high⟩
    exact ⟨k - place, by omega, by omega⟩

@[simp] theorem not_mem_reads {place count k : Nat} : .write k ∉ reads place count := by
  simp [reads]

theorem justified_writes {earlier : List Access} (justified : Justified earlier) (place count : Nat) :
    Justified (writes place count ++ earlier) := by
  unfold writes
  induction List.range count with
  | nil => exact justified
  | cons k rest ih => exact ih

theorem justified_reads {earlier : List Access} (justified : Justified earlier) {place count : Nat}
    (written : ∀ k, place ≤ k → k < place + count → .write k ∈ earlier) :
    Justified (reads place count ++ earlier) := by
  have each : ∀ k ∈ List.range count, .write (place + k) ∈ earlier := fun k member =>
    written _ (Nat.le_add_right ..) (Nat.add_lt_add_left (List.mem_range.mp member) _)
  unfold reads
  generalize List.range count = places at each ⊢
  induction places with
  | nil => exact justified
  | cons k rest ih =>
    exact ⟨List.mem_append_right _ (each k (.head _)), ih fun j member => each j (.tail _ member)⟩

/-! ### The lengths -/

/-- An offset goes on by a length as long as it is inside. -/
def advance (aSize n length : Nat) : Nat := if n < aSize then n + length else n

def Head.lengths : Head → List Nat
  | .named text => [text.length]
  | .talker .. => [3, 3]

def Piece.length : Piece → Nat
  | .text shown => shown.length
  | .comma => 1

/-- The lengths of what is printed of a sentence, its footer last. -/
def Draft.lengths (draft : Draft) : List Nat :=
  draft.head.lengths ++ draft.pieces.map Piece.length ++ [5]

/-- What is printed ends at the end of the buffer or before, or something that is printed on the way
ends exactly there. -/
def Fits (aSize : Nat) (lengths : List Nat) : Prop :=
  lengths.sum ≤ aSize ∨ ∃ k, (lengths.take k).sum = aSize

theorem advance_full {aSize n : Nat} (full : aSize ≤ n) (lengths : List Nat) :
    lengths.foldl (advance aSize) n = n := by
  induction lengths with
  | nil => rfl
  | cons length rest ih =>
    rw [List.foldl_cons, advance, if_neg (by omega)]
    exact ih

/-- The offset stays inside if and only if it meets the end of the buffer, or does not reach it. -/
theorem advance_le_iff {aSize n : Nat} (inside : n ≤ aSize) (lengths : List Nat) :
    lengths.foldl (advance aSize) n ≤ aSize ↔
      n + lengths.sum ≤ aSize ∨ ∃ k, n + (lengths.take k).sum = aSize := by
  induction lengths generalizing n with
  | nil => simp [inside]
  | cons length rest ih =>
    rw [List.foldl_cons, List.sum_cons]
    obtain before | rfl := Nat.lt_or_eq_of_le inside
    · rw [advance, if_pos before]
      by_cases room : n + length ≤ aSize
      · rw [ih room, Nat.add_assoc]
        refine or_congr_right ⟨fun ⟨k, ends⟩ => ⟨k + 1, ?_⟩, fun ⟨k, ends⟩ => ?_⟩
        · rw [List.take_succ_cons, List.sum_cons]
          omega
        · cases k with
          | zero => simp at ends; omega
          | succ k => exact ⟨k, by rw [List.take_succ_cons, List.sum_cons] at ends; omega⟩
      · rw [advance_full (by omega)]
        refine ⟨fun inside => absurd inside room, ?_⟩
        rintro (whole | ⟨k, ends⟩)
        · omega
        · cases k with
          | zero => simp at ends; omega
          | succ k =>
            rw [List.take_succ_cons, List.sum_cons] at ends
            omega
    · rw [advance, if_neg (Nat.lt_irrefl _), advance_full (Nat.le_refl _)]
      exact iff_of_true (Nat.le_refl _) (.inr ⟨0, rfl⟩)

/-! ### The offset is the one of the lengths -/

/-- The buffer is respected so far and the offset is the one of the lengths, or both are behind the
end. -/
def Printer.Follows (aSize : Nat) (p : Printer) (n : Nat) : Prop :=
  (p.Respects aSize ∧ p.n = n) ∨ (aSize < n ∧ aSize < p.n)

namespace Printer

variable {aSize n : Nat} {p : Printer}

@[simp] theorem comma_start (p : Printer) : (p.comma aSize).start = p.start := by
  unfold comma
  split <;> rfl

@[simp] theorem piece_start (p : Printer) (piece : Piece) : (p.piece aSize piece).start = p.start := by
  cases piece with
  | text shown => rfl
  | comma => exact comma_start p

@[simp] theorem head_start (p : Printer) (head : Head) : (p.head aSize head).start = p.start := by
  cases head with
  | named shown => rfl
  | talker id x y z =>
    change (p.talker aSize id).start = p.start
    unfold talker
    split <;> rfl

theorem text_n (p : Printer) (shown : List Char) :
    (p.text aSize shown).n = advance aSize p.n shown.length := by
  unfold text ssnprintf advance
  by_cases room : p.n < aSize
  · rw [if_pos room, if_neg (by omega)]
  · rw [if_neg room, if_pos (by omega)]
    rfl

theorem comma_n (p : Printer) : (p.comma aSize).n = advance aSize p.n 1 := by
  unfold comma advance
  by_cases room : p.n < aSize
  · rw [if_pos room, if_neg (by omega)]
  · rw [if_neg room, if_pos (by omega)]

theorem advance_le {length : Nat} : advance aSize n length ≤ aSize ↔
    n = aSize ∨ n < aSize ∧ n + length ≤ aSize := by
  unfold advance
  split <;> omega

private theorem Respects.append (respects : p.Respects aSize) {q : Printer} (count : Nat)
    (accesses : q.accesses = writes p.n count ++ p.accesses) (inside : p.n + count ≤ aSize)
    (covered : q.n ≤ p.n + count) : q.Respects aSize where
  inside place member := by
    rw [accesses, List.mem_append, mem_writes] at member
    rcases member with new | old
    · omega
    · exact respects.inside place old
  justified := accesses ▸ justified_writes respects.justified _ _
  length := by omega
  covers place before := by
    rw [accesses, List.mem_append, mem_writes]
    by_cases old : place < p.n
    · exact .inr (respects.covers place old)
    · exact .inl (by omega)

theorem text_follows (follows : p.Follows aSize n) (shown : List Char) :
    (p.text aSize shown).Follows aSize (advance aSize n shown.length) := by
  obtain ⟨respects, rfl⟩ | ⟨past, beyond⟩ := follows
  · have same : (p.text aSize shown).n = advance aSize p.n shown.length := text_n p shown
    by_cases fits : advance aSize p.n shown.length ≤ aSize
    · refine .inl ⟨?_, same⟩
      obtain full | ⟨room, fits⟩ := advance_le.mp fits
      · refine respects.append 0 ?_ (by omega) ?_
        · simp [text, full, writes]
        · rw [same, advance, if_neg (by omega)]
          omega
      · refine respects.append (min shown.length (aSize - p.n - 1) + 1) ?_ (by omega) ?_
        · simp only [text]
          rw [if_neg (by omega), List.length_take, Nat.min_comm]
        · rw [same, advance, if_pos room]
          omega
    · exact .inr ⟨by omega, by omega⟩
  · refine .inr ?_
    rw [text_n, advance, advance, if_neg (by omega), if_neg (by omega)]
    exact ⟨past, beyond⟩

theorem comma_follows (follows : p.Follows aSize n) :
    (p.comma aSize).Follows aSize (advance aSize n 1) := by
  obtain ⟨respects, rfl⟩ | ⟨past, beyond⟩ := follows
  · refine .inl ⟨?_, comma_n p⟩
    by_cases full : aSize - p.n = 0
    · simpa [comma, full] using respects
    · refine respects.append 1 ?_ (by omega) ?_
      · simp [comma, full, writes]
      · simp [comma, full]
  · refine .inr ?_
    rw [comma_n, advance, advance, if_neg (by omega), if_neg (by omega)]
    exact ⟨past, beyond⟩

theorem piece_follows (follows : p.Follows aSize n) (piece : Piece) :
    (p.piece aSize piece).Follows aSize (advance aSize n piece.length) := by
  cases piece with
  | text shown => exact text_follows follows shown
  | comma => exact comma_follows follows

/-- The name that follows the talker makes good for a talker that was left out, and a talker without
room for it is behind the end. -/
theorem head_follows (follows : p.Follows aSize n) (first : p.start = p.n) (head : Head) :
    (p.head aSize head).Follows aSize (head.lengths.foldl (advance aSize) n) := by
  cases head with
  | named shown => exact text_follows follows shown
  | talker id x y z =>
    change ((p.talker aSize id).text aSize [x, y, z]).Follows aSize (advance aSize (advance aSize n 3) 3)
    obtain ⟨respects, rfl⟩ | ⟨past, beyond⟩ := follows
    · have length := respects.length
      by_cases none : aSize - p.start < 2
      · rw [show p.talker aSize id = p from if_pos none]
        obtain full | last : p.n = aSize ∨ p.n + 1 = aSize := by omega
        · have same : advance aSize p.n 3 = p.n := if_neg (by omega)
          rw [same]
          exact text_follows (.inl ⟨respects, rfl⟩) [x, y, z]
        · refine .inr ⟨?_, ?_⟩
          · unfold advance
            rw [if_pos (show p.n < aSize by omega), if_neg (by omega)]
            omega
          · rw [text_n, advance, if_pos (by omega)]
            change aSize < p.n + 3
            omega
      · have same : advance aSize p.n 3 = p.n + 3 := if_pos (by omega)
        have more : p.talker aSize id = { p with
            a := store p.a p.start (textBytes ['$', 'G', id])
            n := p.start + 3
            accesses := writes p.start 3 ++ p.accesses } := if_neg none
        rw [same, more]
        refine text_follows ?_ [x, y, z]
        by_cases room : p.n + 3 ≤ aSize
        · refine .inl ⟨respects.append 3 (by rw [first]) room (by rw [first]), by rw [first]⟩
        · exact .inr ⟨by omega, show aSize < p.start + 3 by omega⟩
    · have none : aSize - p.start < 2 := by omega
      have stays : p.talker aSize id = p := if_pos none
      have same : advance aSize n 3 = n := if_neg (by omega)
      rw [stays, same]
      exact text_follows (.inr ⟨past, beyond⟩) [x, y, z]

/-- The two digits and the end of a sentence. -/
theorem footerText_length (checkSum : UInt8) : (footerText checkSum).length = 5 := by
  have two : ((padded 2 16 checkSum.toNat).map Char.toUpper).length = 2 := by
    rw [List.length_map, padded_length (by decide) (by decide)]
    exact UInt8.toNat_lt _
  unfold footerText
  rw [List.length_append, List.length_cons, two]
  rfl

theorem footer_follows (follows : p.Follows aSize n) :
    (p.footer aSize).Follows aSize (advance aSize n 5) ∧ (p.footer aSize).start = (p.footer aSize).n := by
  refine ⟨?_, rfl⟩
  generalize sum : Comm.byteXor (window p.a (p.start + 1) (p.n - p.start - 1)) = checkSum
  have summed : ({ p with accesses := reads (p.start + 1) (p.n - p.start - 1) ++ p.accesses } :
      Printer).Follows aSize n := by
    obtain ⟨respects, rfl⟩ | past := follows
    · refine .inl ⟨⟨fun place member => ?_, ?_, respects.length, fun place before => ?_⟩, rfl⟩
      · exact respects.inside place ((List.mem_append.mp member).resolve_left not_mem_reads)
      · exact justified_reads respects.justified fun k low high => respects.covers k (by omega)
      · exact List.mem_append_right _ (respects.covers place before)
    · exact .inr past
  have printed := text_follows summed (footerText checkSum)
  rw [footerText_length] at printed
  unfold footer
  rw [sum]
  obtain ⟨respects, length⟩ | past := printed
  · exact .inl ⟨⟨respects.inside, respects.justified, respects.length, respects.covers⟩, length⟩
  · exact .inr past

theorem draft_follows (follows : p.Follows aSize n) (first : p.start = p.n) (draft : Draft) :
    (p.draft aSize draft).Follows aSize (draft.lengths.foldl (advance aSize) n) ∧
      (p.draft aSize draft).start = (p.draft aSize draft).n := by
  have pieces (pieces : List Piece) {q : Printer} {m : Nat} (follows : q.Follows aSize m) :
      (pieces.foldl (piece aSize) q).Follows aSize
        ((pieces.map Piece.length).foldl (advance aSize) m) := by
    induction pieces generalizing q m with
    | nil => exact follows
    | cons each rest ih => exact ih (piece_follows follows each)
  unfold Draft.lengths
  rw [List.foldl_append, List.foldl_append]
  exact footer_follows (pieces draft.pieces (head_follows follows first draft.head))

end Printer

theorem printDrafts_follows (aSize : Nat) (a : Nat → UInt8) (drafts : List Draft) :
    (printDrafts aSize a drafts).Follows aSize ((drafts.flatMap Draft.lengths).foldl (advance aSize) 0) := by
  have all {p : Printer} {n : Nat} (follows : p.Follows aSize n) (first : p.start = p.n) :
      (drafts.foldl (Printer.draft aSize) p).Follows aSize
        ((drafts.flatMap Draft.lengths).foldl (advance aSize) n) := by
    induction drafts generalizing p n with
    | nil => exact follows
    | cons draft rest ih =>
      obtain ⟨next, start⟩ := Printer.draft_follows follows first draft
      rw [List.flatMap_cons, List.foldl_append]
      exact ih next start
  refine all (.inl ⟨⟨fun place member => ?_, trivial, Nat.zero_le _, fun place before => ?_⟩, rfl⟩) rfl
  · cases member
  · exact absurd before (Nat.not_lt_zero _)

/-- The buffer is respected if and only if the sentences fit, or something ends at its end. -/
theorem printDrafts_respects_iff (aSize : Nat) (a : Nat → UInt8) (drafts : List Draft) :
    (printDrafts aSize a drafts).Respects aSize ↔ Fits aSize (drafts.flatMap Draft.lengths) := by
  have inside := @advance_le_iff aSize 0 (Nat.zero_le _) (drafts.flatMap Draft.lengths)
  simp only [Nat.zero_add] at inside
  unfold Fits
  rw [← inside]
  obtain ⟨respects, length⟩ | ⟨past, beyond⟩ := printDrafts_follows aSize a drafts
  · exact iff_of_true respects (length ▸ respects.length)
  · exact iff_of_false (fun respects => absurd respects.length (by omega)) (by omega)

/-! ### What is printed where there is room -/

def Head.shown : Head → List Char
  | .named text => text
  | .talker id x y z => ['$', 'G', id, x, y, z]

def Piece.shown : Piece → List Char
  | .text shown => shown
  | .comma => [',']

/-- The text of a sentence before its footer. -/
def Draft.shown (draft : Draft) : List Char := draft.head.shown ++ draft.pieces.flatMap Piece.shown

def Draft.sentence (draft : Draft) : List Char :=
  draft.shown ++ Printer.footerText (Comm.byteXor (textBytes (draft.shown.drop 1)))

namespace Printer

variable {aSize : Nat} {p : Printer} {before : List Char}

/-- The buffer starts with a text, and the next piece goes behind it. -/
def Shows (p : Printer) (text : List Char) : Prop := Printed (p.a, p.n) text

theorem text_shows (shows : p.Shows before) (more : List Char)
    (room : before.length + more.length < aSize) : (p.text aSize more).Shows (before ++ more) :=
  ssnprintf_printed aSize shows more room

private theorem store_shows (shows : p.Shows before) (more : List Char) {q : Printer}
    (a : q.a = store p.a p.n (textBytes more)) (n : q.n = p.n + more.length) :
    q.Shows (before ++ more) := by
  obtain ⟨length, shown⟩ := shows
  dsimp only at length shown
  refine ⟨by simp [n, length], ?_⟩
  dsimp only
  have behind : window (store p.a p.n (textBytes more)) p.n more.length = textBytes more := by
    have stored := window_store p.a p.n (textBytes more)
    rwa [textBytes_length] at stored
  rw [a, n, window_add, Nat.zero_add, window_store_disjoint _ (.inl (Nat.le_of_eq (Nat.zero_add _))),
    shown, behind, textBytes_append]

theorem piece_shows (shows : p.Shows before) (piece : Piece)
    (room : before.length + piece.shown.length < aSize) :
    (p.piece aSize piece).Shows (before ++ piece.shown) := by
  cases piece with
  | text shown => exact text_shows shows shown room
  | comma =>
    have length : p.n = before.length := shows.1
    have some : aSize - p.n ≠ 0 := by
      rw [length]
      exact Nat.sub_ne_zero_of_lt (by omega)
    have printed : p.piece aSize .comma = { p with
        a := store p.a p.n [0x2C]
        n := p.n + 1
        accesses := .write p.n :: p.accesses } := if_neg some
    rw [printed]
    exact store_shows shows [','] rfl rfl

theorem head_shows (shows : p.Shows before) (first : p.start = p.n) (head : Head)
    (room : before.length + head.shown.length < aSize) :
    (p.head aSize head).Shows (before ++ head.shown) := by
  cases head with
  | named shown => exact text_shows shows shown room
  | talker id x y z =>
    have length : p.n = before.length := shows.1
    change before.length + 6 < aSize at room
    have some : ¬aSize - p.start < 2 := by omega
    have printed : p.talker aSize id = { p with
        a := store p.a p.start (textBytes ['$', 'G', id])
        n := p.start + 3
        accesses := writes p.start 3 ++ p.accesses } := if_neg some
    have talker : (p.talker aSize id).Shows (before ++ ['$', 'G', id]) := by
      rw [printed]
      exact store_shows shows ['$', 'G', id] (by rw [first]) (by rw [first]; rfl)
    have named := @text_shows aSize _ _ talker [x, y, z] (by simp; omega)
    rw [List.append_assoc] at named
    exact named

theorem footer_shows {shown : List Char} (shows : p.Shows (before ++ shown))
    (start : p.start = before.length) (room : (before ++ shown).length + 5 < aSize) :
    (p.footer aSize).Shows
      (before ++ (shown ++ footerText (Comm.byteXor (textBytes (shown.drop 1))))) := by
  have length : p.n = (before ++ shown).length := shows.1
  have summed : window p.a (p.start + 1) (p.n - p.start - 1) = textBytes (shown.drop 1) := by
    have whole : window p.a 0 p.n = textBytes (before ++ shown) := shows.2
    cases shown with
    | nil =>
      rw [List.append_nil] at length
      rw [length, start, Nat.sub_self]
      rfl
    | cons c rest =>
      rw [List.length_append, List.length_cons] at length
      have dropped := congrArg (List.drop (before.length + 1)) whole
      have behind : (textBytes (before ++ c :: rest)).drop (before.length + 1) = textBytes rest := by
        unfold textBytes
        rw [← List.map_drop, List.drop_append]
        simp
      rw [drop_window p.a (by omega), behind, Nat.zero_add] at dropped
      rw [start, Nat.sub_sub, dropped]
      rfl
  have printed := @text_shows aSize { p with
    accesses := reads (p.start + 1) (p.n - p.start - 1) ++ p.accesses } _ shows
    (footerText (Comm.byteXor (textBytes (shown.drop 1)))) (by rw [footerText_length]; exact room)
  unfold footer
  rw [summed]
  rw [List.append_assoc] at printed
  exact printed

theorem draft_shows (shows : p.Shows before) (first : p.start = p.n) (draft : Draft)
    (room : before.length + draft.sentence.length < aSize) :
    (p.draft aSize draft).Shows (before ++ draft.sentence) := by
  have length : p.n = before.length := shows.1
  unfold Draft.sentence at room
  rw [List.length_append, footerText_length] at room
  have pieces (pieces : List Piece) {q : Printer} {text : List Char} (shows : q.Shows text)
      (room : text.length + (pieces.flatMap Piece.shown).length < aSize) :
      (pieces.foldl (piece aSize) q).Shows (text ++ pieces.flatMap Piece.shown) ∧
        (pieces.foldl (piece aSize) q).start = q.start := by
    induction pieces generalizing q text with
    | nil => simpa using shows
    | cons each rest ih =>
      rw [List.flatMap_cons, List.length_append] at room
      have here := piece_shows shows each (show text.length + each.shown.length < aSize by omega)
      have next := ih here (by rw [List.length_append]; omega)
      rw [List.flatMap_cons, ← List.append_assoc]
      exact ⟨next.1, next.2.trans (piece_start q each)⟩
  have whole : draft.shown.length = draft.head.shown.length + (draft.pieces.flatMap Piece.shown).length :=
    List.length_append
  have named := head_shows shows first draft.head
    (show before.length + draft.head.shown.length < aSize by omega)
  obtain ⟨body, start⟩ := pieces draft.pieces named (by rw [List.length_append]; omega)
  rw [List.append_assoc] at body
  refine footer_shows body (start.trans ?_) (by rw [List.length_append]; exact room)
  rw [head_start, first, length]

/-- What is printed next is another sentence. -/
theorem draft_start (p : Printer) (draft : Draft) : (p.draft aSize draft).start = (p.draft aSize draft).n := rfl

theorem drafts_shows (shows : p.Shows before) (first : p.start = p.n) (drafts : List Draft)
    (room : before.length + (drafts.flatMap Draft.sentence).length < aSize) :
    (drafts.foldl (draft aSize) p).Shows (before ++ drafts.flatMap Draft.sentence) := by
  induction drafts generalizing p before with
  | nil => simpa using shows
  | cons each rest ih =>
    rw [List.flatMap_cons, List.length_append] at room
    have here := draft_shows shows first each
      (show before.length + each.sentence.length < aSize by omega)
    have later := ih here (draft_start p each) (by rw [List.length_append]; omega)
    rw [List.flatMap_cons, ← List.append_assoc]
    exact later

end Printer

/-- Where all sentences fit, they stand in the buffer one behind the other. -/
theorem printDrafts_printed (a : Nat → UInt8) {aSize : Nat} {drafts : List Draft}
    (room : (drafts.flatMap Draft.sentence).length < aSize) :
    Printed ((printDrafts aSize a drafts).a, (printDrafts aSize a drafts).n)
      (drafts.flatMap Draft.sentence) := by
  have nothing : (⟨a, 0, 0, []⟩ : Printer).Shows [] := ⟨rfl, rfl⟩
  exact Printer.drafts_shows nothing rfl drafts (by rwa [List.length_nil, Nat.zero_add])

/-! ### A full buffer -/

namespace Printer

variable {aSize : Nat} {p : Printer}

/-- Nothing is printed any more. -/
theorem text_full (full : aSize ≤ p.n) (shown : List Char) : p.text aSize shown = p := by
  unfold text ssnprintf
  rw [if_pos (Nat.sub_eq_zero_of_le full), if_pos (Nat.sub_eq_zero_of_le full)]
  rfl

theorem piece_full (full : aSize ≤ p.n) (piece : Piece) : p.piece aSize piece = p := by
  cases piece with
  | text shown => exact text_full full shown
  | comma => exact if_pos (Nat.sub_eq_zero_of_le full)

theorem draft_full (first : p.start = p.n) (full : aSize ≤ p.n) (draft : Draft) : p.draft aSize draft = p := by
  have head : p.head aSize draft.head = p := by
    cases draft.head with
    | named shown => exact text_full full shown
    | talker id x y z =>
      have none : p.talker aSize id = p := if_pos (by omega)
      change (p.talker aSize id).text aSize [x, y, z] = p
      rw [none]
      exact text_full full _
  have pieces (pieces : List Piece) : pieces.foldl (piece aSize) p = p := by
    induction pieces with
    | nil => rfl
    | cons each rest ih => rw [List.foldl_cons, piece_full full, ih]
  unfold Printer.draft footer
  rw [head, pieces, first]
  dsimp only
  rw [text_full (by exact full), Nat.sub_self, Nat.zero_sub]
  exact congrArg (Printer.mk _ · _ _) first.symm

theorem drafts_start (first : p.start = p.n) (drafts : List Draft) :
    (drafts.foldl (draft aSize) p).start = (drafts.foldl (draft aSize) p).n := by
  induction drafts generalizing p with
  | nil => exact first
  | cons each rest ih => exact ih rfl

theorem drafts_full (first : p.start = p.n) (full : aSize ≤ p.n) (drafts : List Draft) :
    drafts.foldl (draft aSize) p = p := by
  induction drafts with
  | nil => rfl
  | cons each rest ih => rw [List.foldl_cons, draft_full first full, ih]

end Printer

end InertialSense.Nmea
