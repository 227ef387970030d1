import InertialSense.Bootloader.IsbVerify

/-! What a pass of `verify_image` reads without coming on in its page: nothing, or lines without
data. -/

namespace InertialSense.Bootloader.Isb

open Foundation

/-- A character within a line: a digit or a carriage return. -/
def inLine (c : UInt8) : Bool := isUpperDigit c ∨ c = 0x0D

/-- What a pass reads without coming on: nothing, or lines with the offset of the page and a single
digit at most. The last one may be cut behind its head, if the character before was a line feed. -/
inductive Idle (offset : Int) (callback : Nat → Bool) : Nat → UInt8 → List UInt8 → Prop where
  | none {k : Nat} {last : UInt8} : Idle offset callback k last []
  | line {k : Nat} {last w x y z : UInt8} {text rest : List UInt8} (plain : w ≠ 0x58)
      (own : (strtol 16 ([w, x, y, z].map Char.ofUInt8)).1 = offset)
      (chars : ∀ c ∈ text, inLine c = true) (few : text.countP isUpperDigit < 2)
      (goes : callback k = true) (more : Idle offset callback (k + 1) 0x0A rest) :
      Idle offset callback k last (w :: x :: y :: z :: 0x3D :: (text ++ 0x0A :: rest))
  | cut {k : Nat} {w x y z : UInt8} (plain : w ≠ 0x58)
      (own : (strtol 16 ([w, x, y, z].map Char.ofUInt8)).1 = offset) (goes : callback k = true) :
      Idle offset callback k 0x0A [w, x, y, z, 0x3D]

/-! ### The characters of a line -/

/-- A character of a line is taken. -/
def Verify.absorb (opened : Bool) (s : Verify) (c : UInt8) : Verify :=
  if isUpperDigit c then s.digit opened c else { s with c }

/-- What the characters of a line do not change. -/
structure Reads (s s' : Verify) : Prop where
  i : s'.i = s.i
  selected : s'.selected = s.selected
  pageOffset : s'.pageOffset = s.pageOffset
  returned : s'.returned = s.returned

section Chars

variable {opened : Bool} {chunkBuffer : List UInt8} {s : Verify}

private theorem absorb_reads (s : Verify) (c : UInt8) :
    Reads s (s.absorb opened c) ∧ (s.absorb opened c).c = c := by
  unfold Verify.absorb Verify.digit
  split
  case isTrue digit =>
    dsimp only
    split
    case isTrue written =>
      split
      · exact ⟨⟨rfl, rfl, rfl, rfl⟩, rfl⟩
      · exact ⟨⟨rfl, rfl, rfl, rfl⟩, rfl⟩
    case isFalse closed => exact ⟨⟨rfl, rfl, rfl, rfl⟩, rfl⟩
  case isFalse other => exact ⟨⟨rfl, rfl, rfl, rfl⟩, rfl⟩

private theorem absorbed_reads (text : List UInt8) (s : Verify) :
    Reads s (text.foldl (Verify.absorb opened) s) := by
  induction text generalizing s with
  | nil => exact ⟨rfl, rfl, rfl, rfl⟩
  | cons c text ih =>
    obtain ⟨one, -⟩ := @absorb_reads opened s c
    have more := ih (s.absorb opened c)
    exact ⟨more.i.trans one.i, more.selected.trans one.selected,
      more.pageOffset.trans one.pageOffset, more.returned.trans one.returned⟩

private theorem absorbed_c {text : List UInt8} (chars : ∀ c ∈ text, inLine c = true)
    (s : Verify) : (text.foldl (Verify.absorb opened) s).c = 0x0A ↔ text = [] ∧ s.c = 0x0A := by
  induction text generalizing s with
  | nil => simp
  | cons c text ih =>
    obtain ⟨here, later⟩ := List.forall_mem_cons.mp chars
    rw [List.foldl_cons, ih later, (absorb_reads s c).2]
    refine iff_of_false ?_ (fun both => nomatch both.1)
    rintro ⟨-, rfl⟩
    exact absurd here (by decide)

/-- The characters up to one that is not of a line. -/
private theorem readChars_eq {chunkIndex : Nat} (inside : chunkIndex ≤ chunkBuffer.length)
    (pageChars : Nat) :
    readChars opened chunkBuffer (chunkBuffer.length - chunkIndex) s chunkIndex pageChars =
      let text := (chunkBuffer.drop chunkIndex).takeWhile inLine
      match (chunkBuffer.drop chunkIndex).dropWhile inLine with
      | [] => .ends (text.foldl (Verify.absorb opened) s) chunkBuffer.length
          (pageChars + text.countP isUpperDigit)
      | c :: _ =>
        if c = 0x0A then .ends { text.foldl (Verify.absorb opened) s with c }
          (chunkIndex + text.length + 1) (pageChars + text.countP isUpperDigit)
        else .unexpected := by
  obtain ⟨left, count⟩ : ∃ left, chunkBuffer.length - chunkIndex = left := ⟨_, rfl⟩
  induction left generalizing chunkIndex s pageChars with
  | zero =>
    have ends : chunkIndex = chunkBuffer.length := by omega
    subst ends
    rw [count, List.drop_length]
    rfl
  | succ left ih =>
    have within : chunkIndex < chunkBuffer.length := by omega
    have rest (s : Verify) (pageChars : Nat) :=
      @ih s (chunkIndex + 1) (by omega) pageChars (by omega)
    have less : chunkBuffer.length - (chunkIndex + 1) = left := by omega
    simp only [less] at rest
    rw [count, List.drop_eq_getElem_cons within]
    unfold readChars
    rw [List.getElem?_eq_getElem within]
    generalize chunkBuffer[chunkIndex] = c
    dsimp only
    by_cases digit : isUpperDigit c = true
    · have taken : inLine c = true := by simp [inLine, digit]
      have one : s.absorb opened c = s.digit opened c := if_pos digit
      rw [if_pos digit, rest, List.takeWhile_cons_of_pos taken, List.dropWhile_cons_of_pos taken,
        List.foldl_cons, one, List.countP_cons_of_pos digit, List.length_cons]
      simp only [Nat.add_assoc, Nat.add_comm 1]
    · rw [if_neg digit]
      by_cases cr : c = 0x0D
      · have taken : inLine c = true := by simp [inLine, cr]
        have one : s.absorb opened c = { s with c } := if_neg digit
        rw [if_pos cr, rest, List.takeWhile_cons_of_pos taken, List.dropWhile_cons_of_pos taken,
          List.foldl_cons, one, List.countP_cons_of_neg digit, List.length_cons]
        simp only [Nat.add_assoc, Nat.add_comm 1]
      · have left : ¬inLine c = true := by simp [inLine, digit, cr]
        rw [if_neg cr, List.takeWhile_cons_of_neg left, List.dropWhile_cons_of_neg left]
        rfl

private theorem readChars_behind {left chunkIndex pageChars ends count : Nat} {s' : Verify}
    (read : readChars opened chunkBuffer left s chunkIndex pageChars = .ends s' ends count) :
    chunkIndex ≤ ends := by
  induction left generalizing s chunkIndex pageChars with
  | zero =>
    obtain ⟨-, rfl, -⟩ := Chars.ends.inj read
    exact Nat.le_refl _
  | succ left ih =>
    unfold readChars at read
    split at read
    · cases read
    · split at read
      · exact Nat.le_of_succ_le (ih read)
      split at read
      · exact Nat.le_of_succ_le (ih read)
      split at read
      · obtain ⟨-, rfl, -⟩ := Chars.ends.inj read
        exact Nat.le_succ _
      · cases read

end Chars

/-! ### Lines -/

section Lines

variable {offset : Int} {callback : Nat → Bool} {k : Nat} {last w x y z m : UInt8}
  {tail : List UInt8}

private theorem takeWhile_line {text rest : List UInt8} (chars : ∀ c ∈ text, inLine c = true) :
    (text ++ 0x0A :: rest).takeWhile inLine = text ∧
      (text ++ 0x0A :: rest).dropWhile inLine = 0x0A :: rest := by
  have ends : inLine 0x0A = false := by decide
  constructor
  · rw [List.takeWhile_append_of_pos chars]
    simp [ends]
  · rw [List.dropWhile_append_of_pos chars]
    simp [ends]

private theorem drop_line {c : UInt8} {rest : List UInt8} (split : tail.dropWhile inLine = c :: rest) :
    tail.drop ((tail.takeWhile inLine).length + 1) = rest := by
  calc tail.drop ((tail.takeWhile inLine).length + 1)
      = (tail.takeWhile inLine ++ tail.dropWhile inLine).drop
          ((tail.takeWhile inLine).length + 1) := by rw [List.takeWhile_append_dropWhile]
    _ = rest := by
      rw [← List.drop_drop, List.drop_left, split]
      rfl

private theorem idle_length {rest : List UInt8} (idle : Idle offset callback k last rest) :
    rest = [] ∨ 5 ≤ rest.length := by
  cases idle with
  | none => exact .inl rfl
  | line => exact .inr (by simp)
  | cut => exact .inr (by simp)

/-- Whether a line without data starts with these characters. -/
private theorem idle_cons :
    Idle offset callback k last (w :: x :: y :: z :: m :: tail) ↔
      w ≠ 0x58 ∧ m = 0x3D ∧ (strtol 16 ([w, x, y, z].map Char.ofUInt8)).1 = offset ∧
        callback k = true ∧
          match tail.dropWhile inLine with
          | [] => tail = [] ∧ last = 0x0A
          | c :: rest => c = 0x0A ∧ (tail.takeWhile inLine).countP isUpperDigit < 2 ∧
              Idle offset callback (k + 1) 0x0A rest := by
  constructor
  · intro idle
    cases idle with
    | line plain own chars few goes more =>
      obtain ⟨text, rest⟩ := @takeWhile_line _ ‹_› chars
      refine ⟨plain, rfl, own, goes, ?_⟩
      rw [rest, text]
      exact ⟨rfl, few, more⟩
    | cut plain own goes => exact ⟨plain, rfl, own, goes, rfl, rfl⟩
  · rintro ⟨plain, rfl, own, goes, more⟩
    have whole := List.takeWhile_append_dropWhile (p := inLine) (l := tail)
    split at more
    case h_1 ended =>
      obtain ⟨rfl, rfl⟩ := more
      exact .cut plain own goes
    case h_2 c rest ended =>
      obtain ⟨rfl, few, more⟩ := more
      rw [ended] at whole
      rw [← whole]
      exact .line plain own (fun c member => List.mem_takeWhile_imp member) few goes more

end Lines

/-- What the lines of a chunk come to, from the state before them. -/
structure Outcome (callback : Nat → Bool) (line : Nat) (rest : List UInt8) (s s' : Verify) :
    Prop where
  inside : s'.returned ≠ some .fault
  i : s'.i = s.i
  selected : s'.selected = s.selected
  onward : s.pageOffset ≤ s'.pageOffset
  idle : s'.returned = none ∧ s'.pageOffset = s.pageOffset ↔
    Idle s.pageOffset callback line s.c rest

section Chunk

variable {opened : Bool} {callback : Nat → Bool} {chunkBuffer : List UInt8}

private theorem outcome_returned {line : Nat} {rest : List UInt8} {s s' : Verify}
    (reads : Reads s s') (busy : ¬Idle s.pageOffset callback line s.c rest)
    (result : OperationResult) :
    Outcome callback line rest s { s' with returned := some (.result result) } where
  inside := nofun
  i := reads.i
  selected := reads.selected
  onward := Int.le_of_eq reads.pageOffset.symm
  idle := iff_of_false (fun both => nomatch both.1) busy

private theorem head_eq {chunkIndex : Nat} {w x y z m : UInt8} {tail : List UInt8}
    (rest : chunkBuffer.drop chunkIndex = w :: x :: y :: z :: m :: tail) :
    chunkBuffer[chunkIndex]? = some w ∧ chunkBuffer[chunkIndex + 4]? = some m ∧
      headAt chunkBuffer chunkIndex = some [w, x, y, z] ∧ chunkBuffer.drop (chunkIndex + 5) = tail := by
  have cell (k : Nat) : chunkBuffer[chunkIndex + k]? = (w :: x :: y :: z :: m :: tail)[k]? := by
    rw [← rest, List.getElem?_drop]
  refine ⟨cell 0, cell 4, ?_, ?_⟩
  · unfold headAt
    simp only [List.range_succ, List.range_zero, cell]
    rfl
  · rw [← List.drop_drop, rest]
    rfl

/-- A line that ends in a line feed, with so many digits, and what comes behind it. -/
private theorem line_outcome {line digits : Nat} {whole rest : List UInt8} {s s' : Verify}
    {next : Verify → Verify} (reads : Reads s s')
    (behind : ∀ s : Verify, s.returned = none → Outcome callback (line + 1) rest s (next s))
    (idle : Idle s.pageOffset callback line s.c whole ↔ callback line = true ∧ digits < 2 ∧
      Idle s.pageOffset callback (line + 1) s'.c rest) (running : s.returned = none) :
    Outcome callback line whole s
      (let s' := { s' with pageOffset := s'.pageOffset + (digits / 2 : Nat) }
      if callback line then next s' else { s' with returned := some (.result .cancelled) }) := by
  have came : s'.pageOffset + (digits / 2 : Nat) = s.pageOffset + (digits / 2 : Nat) := by
    rw [reads.pageOffset]
  dsimp only
  rw [came]
  by_cases goes : callback line = true
  · rw [if_pos goes]
    obtain ⟨inside, i, selected, onward, same⟩ :=
      behind { s' with pageOffset := s.pageOffset + (digits / 2 : Nat) }
        (reads.returned.trans running)
    dsimp only at onward same
    refine ⟨inside, i.trans reads.i, selected.trans reads.selected, by omega, ?_⟩
    rw [idle]
    by_cases few : digits < 2
    · have still : digits / 2 = 0 := by omega
      simp only [still, Nat.cast_zero, Int.add_zero] at same ⊢
      rw [same]
      simp only [goes, few, true_and]
    · refine iff_of_false (fun both => ?_) (fun both => few both.2.1)
      omega
  · rw [if_neg goes]
    refine ⟨nofun, reads.i, reads.selected, by dsimp only; omega, ?_⟩
    rw [idle]
    exact iff_of_false (fun both => nomatch both.1) (fun both => goes both.1)

private theorem drop_five {chunkIndex : Nat} (long : chunkIndex + 5 ≤ chunkBuffer.length) :
    ∃ w x y z m tail, chunkBuffer.drop chunkIndex = w :: x :: y :: z :: m :: tail := by
  have count : 5 ≤ (chunkBuffer.drop chunkIndex).length := by
    rw [List.length_drop]
    omega
  match chunkBuffer.drop chunkIndex, count with
  | w :: x :: y :: z :: m :: tail, _ => exact ⟨w, x, y, z, m, tail, rfl⟩

/-- A line behind its head, where the lines behind it come to what is said of them. -/
private theorem text_outcome {line chunkIndex : Nat} {s : Verify} {next : Verify → Nat → Verify}
    {w x y z m : UInt8} {tail : List UInt8}
    (rest : chunkBuffer.drop chunkIndex = w :: x :: y :: z :: m :: tail)
    (inside : chunkIndex + 5 ≤ chunkBuffer.length) (plain : w ≠ 0x58) (equals : m = 0x3D)
    (own : (strtol 16 ([w, x, y, z].map Char.ofUInt8)).1 = s.pageOffset)
    (more : ∀ (s : Verify) (further : Nat), chunkIndex < further → further ≤ chunkBuffer.length →
      s.returned = none →
        Outcome callback (line + 1) (chunkBuffer.drop further) s (next s further))
    (running : s.returned = none) :
    Outcome callback line (w :: x :: y :: z :: m :: tail) s
      (match readChars opened chunkBuffer (chunkBuffer.length - (chunkIndex + 5)) s
          (chunkIndex + 5) 0 with
      | .fault => { s with returned := some .fault }
      | .unexpected => { s with returned := some (.result .error) }
      | .ends s chunkIndex pageChars =>
        if s.c ≠ 0x0A then { s with returned := some (.result .error) }
        else
          let s := { s with pageOffset := s.pageOffset + (pageChars / 2 : Nat) }
          if callback line then next s chunkIndex
          else { s with returned := some (.result .cancelled) }) := by
  obtain ⟨-, -, -, behind⟩ := head_eq rest
  have idle := @idle_cons s.pageOffset callback line s.c w x y z m tail
  have whole := @List.takeWhile_append_dropWhile _ inLine tail
  have text : ∀ c ∈ tail.takeWhile inLine, inLine c = true :=
    fun c member => List.mem_takeWhile_imp member
  have reads := @absorbed_reads opened (tail.takeWhile inLine) s
  rw [readChars_eq inside, behind]
  cases split : tail.dropWhile inLine with
  | nil =>
    -- the chunk ends in the line: its last character is that of the line before, if any
    rw [split] at idle whole
    rw [List.append_nil] at whole
    rw [whole] at text reads ⊢
    dsimp only
    have last := @absorbed_c opened _ text s
    by_cases fed : (tail.foldl (Verify.absorb opened) s).c ≠ 0x0A
    · rw [if_pos fed]
      refine outcome_returned reads (fun still => ?_) _
      exact fed (last.mpr (idle.mp still).2.2.2.2)
    · rw [if_neg fed]
      obtain ⟨rfl, feed⟩ := last.mp (not_not.mp fed)
      refine @line_outcome _ _ (0 + 0) _ [] _ _ (fun s => next s chunkBuffer.length) reads
        (fun s running => ?_) ?_ running
      · have next := more s chunkBuffer.length (by omega) (Nat.le_refl _) running
        rwa [List.drop_length] at next
      · rw [idle]
        exact ⟨fun both => ⟨both.2.2.2.1, by decide, .none⟩,
          fun both => ⟨plain, equals, own, both.1, rfl, feed⟩⟩
  | cons c rest =>
    rw [split] at idle whole
    dsimp only
    by_cases feed : c = 0x0A
    · subst feed
      rw [if_pos rfl]
      dsimp only
      rw [if_neg (not_not.mpr rfl)]
      have onto : chunkBuffer.drop (chunkIndex + 5 + (tail.takeWhile inLine).length + 1) = rest := by
        rw [Nat.add_assoc, ← List.drop_drop, behind, drop_line split]
      have within : chunkIndex + 5 + (tail.takeWhile inLine).length + 1 ≤ chunkBuffer.length := by
        have count := congrArg List.length whole
        have total := congrArg List.length behind
        rw [List.length_append, List.length_cons] at count
        rw [List.length_drop] at total
        omega
      have reads : Reads s { (tail.takeWhile inLine).foldl (Verify.absorb opened) s with
        c := 0x0A } := ⟨reads.i, reads.selected, reads.pageOffset, reads.returned⟩
      refine @line_outcome _ _ (0 + (tail.takeWhile inLine).countP isUpperDigit) _ rest _ _
        (fun s => next s (chunkIndex + 5 + (tail.takeWhile inLine).length + 1)) reads
        (fun s running => ?_) ?_ running
      · have next := more s _ (by omega) within running
        rwa [onto] at next
      · rw [idle, Nat.zero_add]
        exact ⟨fun ⟨_, _, _, goes, _, few, still⟩ => ⟨goes, few, still⟩,
          fun ⟨goes, few, still⟩ => ⟨plain, equals, own, goes, rfl, few, still⟩⟩
    · rw [if_neg feed]
      exact outcome_returned ⟨rfl, rfl, rfl, rfl⟩ (fun still => feed (idle.mp still).2.2.2.2.1) _

/-- The lines of a chunk are read inside of it, and come on unless there is no data in them. -/
theorem readLines_outcome (left : Nat) {line : Nat} {s : Verify} {chunkIndex : Nat}
    (enough : chunkBuffer.length - chunkIndex ≤ left) (inside : chunkIndex ≤ chunkBuffer.length)
    (running : s.returned = none) :
    Outcome callback line (chunkBuffer.drop chunkIndex) s
      (readLines opened callback chunkBuffer left line s chunkIndex) := by
  have ended (s : Verify) (line : Nat) (running : s.returned = none) :
      Outcome callback line [] s s :=
    ⟨running ▸ nofun, rfl, rfl, Int.le_refl _, iff_of_true ⟨running, rfl⟩ .none⟩
  induction left generalizing line s chunkIndex with
  | zero =>
    rw [List.drop_eq_nil_of_le (by omega)]
    exact ended s line running
  | succ left ih =>
    unfold readLines
    by_cases done : chunkBuffer.length ≤ chunkIndex
    · rw [if_pos done, List.drop_eq_nil_of_le done]
      exact ended s line running
    rw [if_neg done]
    have reads : Reads s s := ⟨rfl, rfl, rfl, rfl⟩
    by_cases short : chunkBuffer.length < chunkIndex + 5
    · rw [if_pos short]
      refine outcome_returned reads (fun idle => ?_) _
      have long := idle_length idle
      rw [List.drop_eq_nil_iff, List.length_drop] at long
      omega
    rw [if_neg short]
    obtain ⟨w, x, y, z, m, tail, rest⟩ := @drop_five chunkBuffer chunkIndex (by omega)
    obtain ⟨first, mark, head, -⟩ := head_eq rest
    rw [first, mark, head, rest]
    dsimp only
    by_cases form : w = 0x58 ∨ m ≠ 0x3D
    · rw [if_pos form]
      refine outcome_returned reads (fun idle => ?_) _
      obtain ⟨plain, equals, -⟩ := idle_cons.mp idle
      exact form.elim plain (fun other => other equals)
    rw [if_neg form]
    by_cases other : (strtol 16 ([w, x, y, z].map Char.ofUInt8)).1 ≠ s.pageOffset
    · rw [if_pos other]
      exact outcome_returned reads (fun idle => other (idle_cons.mp idle).2.2.1) _
    rw [if_neg other]
    obtain ⟨plain, equals⟩ := not_or.mp form
    refine text_outcome rest (by omega) plain (not_not.mp equals) (not_not.mp other) ?_ running
    intro s further ahead within running
    exact ih (by omega) within running

/-- There are no more lines than bytes. -/
theorem readLines_enough {left left' line : Nat} {s : Verify} {chunkIndex : Nat}
    (enough : chunkBuffer.length - chunkIndex ≤ left)
    (enough' : chunkBuffer.length - chunkIndex ≤ left') :
    readLines opened callback chunkBuffer left line s chunkIndex =
      readLines opened callback chunkBuffer left' line s chunkIndex := by
  have ended (left line : Nat) (s : Verify) {chunkIndex : Nat}
      (done : chunkBuffer.length ≤ chunkIndex) :
      readLines opened callback chunkBuffer left line s chunkIndex = s := by
    cases left with
    | zero => rfl
    | succ left => exact if_pos done
  induction left generalizing left' line s chunkIndex with
  | zero => rw [ended _ _ _ (by omega), ended _ _ _ (by omega)]
  | succ left ih =>
    by_cases done : chunkBuffer.length ≤ chunkIndex
    · rw [ended _ _ _ done, ended _ _ _ done]
    obtain ⟨left', rfl⟩ : ∃ less, left' = less + 1 := ⟨left' - 1, by omega⟩
    unfold readLines
    rw [if_neg done, if_neg done]
    by_cases short : chunkBuffer.length < chunkIndex + 5
    · rw [if_pos short, if_pos short]
    rw [if_neg short, if_neg short]
    obtain ⟨w, x, y, z, m, tail, rest⟩ := @drop_five chunkBuffer chunkIndex (by omega)
    obtain ⟨first, mark, head, -⟩ := head_eq rest
    rw [first, mark, head]
    dsimp only
    cases read : readChars opened chunkBuffer (chunkBuffer.length - (chunkIndex + 5)) s
        (chunkIndex + 5) 0 with
    | fault => rfl
    | unexpected => rfl
    | ends s' further count =>
      have behind := readChars_behind read
      dsimp only
      rw [@ih left' (line + 1) _ further (by omega) (by omega)]

end Chunk

end InertialSense.Bootloader.Isb
