import InertialSense.Nmea.Copies
import Mathlib.Tactic.Tauto

/-! The bytes that the parsers of `$ASCE` read: they look for commas and for a star, but not for the
end of the sentence. -/

namespace InertialSense.Nmea

/-- The sentence in memory that ends with it. -/
def Sentence.alone (s : Sentence) : Sentence := { s with size := s.aSize }

/-- How many bytes `getNmeaMsgId` compares from a place on. -/
def Sentence.compares (s : Sentence) (ptr : Nat) : Nat :=
  if s.aSize + 1 - ptr < 5 then 0
  -- the letters behind the two of the talker
  else if s.a ptr = 0x47 then 6
  else if Comm.matchesAt s.a ptr "PINS" then 5
  else 4

/-- The places of the names that are looked up. -/
def Sentence.names (s : Sentence) : Nat → Nat → List Nat
  | 0, _ => []
  | count + 1, ptr =>
    if s.size ≤ ptr ∨ s.a ptr = 0x2A then []
    else
      (if isDigit (s.a ptr) then [] else [ptr]) ++
        match s.readPair ptr with
        | .pair _ _ next => s.names count next
        | _ => []

/-- No byte is read outside of the sentence: the fields end in it, and the names are compared with
bytes of it. -/
def Sentence.ReadsInside (s : Sentence) : Prop :=
  ∃ field ptr, s.alone.findNextField 6 = some (field, ptr) ∧
    (s.alone.pairs 20 ptr).isSome = true ∧
    ∀ place ∈ s.alone.names 20 ptr, place + s.compares place ≤ s.aSize

/-- A name of four letters or more is not cut: one that starts with `G` has six letters, and `PINS`
has a number. -/
def Sentence.NameWhole (s : Sentence) (place : Nat) : Prop :=
  place + 4 ≤ s.aSize →
    (s.a place = 0x47 → place + 6 ≤ s.aSize) ∧
      (Comm.matchesAt s.a place "PINS" = true → place + 5 ≤ s.aSize)

/-- No name that is looked up is cut. -/
def Sentence.NamesWhole (s : Sentence) : Prop :=
  ∀ field ptr, s.alone.findNextField 6 = some (field, ptr) →
    ∀ place ∈ s.alone.names 20 ptr, s.NameWhole place

/-- There is a star or a null character from a place on. -/
def Sentence.Stops (s : Sentence) (ptr : Nat) : Prop :=
  ∃ place, ptr ≤ place ∧ place < s.aSize ∧ (s.a place = 0 ∨ s.a place = 0x2A)

def Sentence.commas (s : Sentence) (ptr : Nat) : Nat :=
  (List.range' ptr (s.aSize - ptr)).countP fun place => s.a place = 0x2C

section Reads

variable {s : Sentence} {ptr next : Nat} {field : List UInt8}

private theorem stops_step (other : ¬(s.a ptr = 0 ∨ s.a ptr = 0x2A)) :
    s.Stops ptr ↔ s.Stops (ptr + 1) := by
  constructor
  · rintro ⟨place, behind, before, hard⟩
    obtain rfl | more := Nat.eq_or_lt_of_le behind
    · exact absurd hard other
    · exact ⟨place, more, before, hard⟩
  · rintro ⟨place, behind, before, hard⟩
    exact ⟨place, by omega, before, hard⟩

private theorem commas_step (inside : ptr < s.aSize) :
    s.commas ptr = s.commas (ptr + 1) + if s.a ptr = 0x2C then 1 else 0 := by
  obtain ⟨rest, length⟩ : ∃ rest, s.aSize - ptr = rest + 1 := ⟨s.aSize - ptr - 1, by omega⟩
  have shorter : s.aSize - (ptr + 1) = rest := by omega
  unfold Sentence.commas
  rw [length, shorter, List.range'_succ, List.countP_cons]
  simp

private theorem commas_end (outside : s.aSize ≤ ptr) : s.commas ptr = 0 := by
  unfold Sentence.commas
  rw [Nat.sub_eq_zero_of_le outside]
  rfl

/-- What is known of a field: it ends at a star or a null character, or at a comma. -/
private theorem scanField_stops (count : Nat) (total : ptr + count = s.aSize) :
    match scanField s.a count ptr with
    | none => ¬s.Stops ptr ∧ s.commas ptr = 0
    | some (_, next) => (s.Stops next ↔ s.Stops ptr) ∧
        (s.Stops ptr ∨ s.commas ptr = s.commas next + 1) := by
  induction count generalizing ptr with
  | zero =>
    have outside : s.aSize ≤ ptr := by omega
    exact ⟨fun ⟨place, behind, before, _⟩ => by omega, commas_end outside⟩
  | succ count ih =>
    have inside : ptr < s.aSize := by omega
    have commas := commas_step inside
    unfold scanField
    by_cases ends : endsField (s.a ptr) = true
    · rw [if_pos ends]
      dsimp only
      by_cases comma : s.a ptr = 0x2C
      · rw [if_pos comma] at commas ⊢
        have plain : ¬(s.a ptr = 0 ∨ s.a ptr = 0x2A) := by
          rw [comma]
          decide
        exact ⟨(stops_step plain).symm, .inr commas⟩
      · rw [if_neg comma]
        have hard : s.a ptr = 0 ∨ s.a ptr = 0x2A := by
          unfold endsField at ends
          rw [decide_eq_true_iff] at ends
          tauto
        exact ⟨Iff.rfl, .inl ⟨ptr, Nat.le_refl _, inside, hard⟩⟩
    · rw [if_neg ends]
      have plain : ¬(s.a ptr = 0 ∨ s.a ptr = 0x2A) := by
        unfold endsField at ends
        rw [decide_eq_true_iff] at ends
        tauto
      have comma : s.a ptr ≠ 0x2C := by
        unfold endsField at ends
        rw [decide_eq_true_iff] at ends
        tauto
      rw [if_neg comma, Nat.add_zero] at commas
      have rest := ih (by omega : ptr + 1 + count = s.aSize)
      rw [stops_step plain, commas]
      cases found : scanField s.a count (ptr + 1) with
      | none =>
        rw [found] at rest
        exact rest
      | some field =>
        rw [found] at rest
        exact rest

private theorem findNextField_stops (ptr : Nat) :
    match s.alone.findNextField ptr with
    | none => ¬s.Stops ptr ∧ s.commas ptr = 0
    | some (_, next) => (s.Stops next ↔ s.Stops ptr) ∧
        (s.Stops ptr ∨ s.commas ptr = s.commas next + 1) := by
  unfold Sentence.findNextField Sentence.alone
  dsimp only
  by_cases inside : ptr ≤ s.aSize
  · exact scanField_stops (s.aSize - ptr) (Nat.add_sub_cancel' inside)
  · rw [Nat.sub_eq_zero_of_le (by omega)]
    exact ⟨fun ⟨place, behind, before, _⟩ => by omega, commas_end (by omega)⟩

/-- The pairs end inside of the sentence at a star or a null character, or as the two fields of each
of them end with a comma. -/
theorem pairs_isSome_iff (count ptr : Nat) :
    (s.alone.pairs count ptr).isSome = true ↔ s.Stops ptr ∨ 2 * count ≤ s.commas ptr := by
  induction count generalizing ptr with
  | zero => simp [Sentence.pairs]
  | succ count ih =>
    have outside {place : Nat} (after : s.aSize ≤ place) : ¬s.Stops place ∧ s.commas place = 0 :=
      ⟨fun ⟨_, behind, before, _⟩ => by omega, commas_end after⟩
    have star {place : Nat} (inside : ¬s.aSize ≤ place) (star : s.a place = 0x2A) :
        s.Stops place := ⟨place, Nat.le_refl _, Nat.not_le.mp inside, .inr star⟩
    unfold Sentence.pairs Sentence.readPair
    by_cases after : s.aSize ≤ ptr
    · obtain ⟨none, zero⟩ := outside after
      simp [Sentence.alone, after, none, zero]
    by_cases ended : s.a ptr = 0x2A
    · simp [Sentence.alone, after, ended, star after ended]
    have first := findNextField_stops (s := s) ptr
    simp only [show s.alone.size = s.aSize from rfl, show s.alone.a = s.a from rfl, after, ended,
      if_false]
    cases found : s.alone.findNextField ptr with
    | none =>
      rw [found] at first
      obtain ⟨none, zero⟩ := first
      simp [none, zero]
    | some read =>
      obtain ⟨field, next⟩ := read
      rw [found] at first
      obtain ⟨same, comma⟩ := first
      dsimp only
      by_cases after : s.aSize ≤ next
      · obtain ⟨none, zero⟩ := outside after
        rw [same] at none
        have one := comma.resolve_left none
        simp only [after, if_true, Option.isSome_none, Bool.false_eq_true, none, false_or, false_iff]
        omega
      by_cases ended : s.a next = 0x2A
      · simp [after, ended, same.mp (star after ended)]
      have second := findNextField_stops (s := s) next
      simp only [after, ended, if_false]
      cases found : s.alone.findNextField next with
      | none =>
        rw [found] at second
        obtain ⟨none, zero⟩ := second
        rw [same] at none
        have one := comma.resolve_left none
        simp only [Option.isSome_none, Bool.false_eq_true, none, false_or, false_iff]
        omega
      | some read =>
        obtain ⟨period, last⟩ := read
        rw [found] at second
        obtain ⟨same', comma'⟩ := second
        dsimp only
        rw [Option.isSome_map, ih, same', same]
        by_cases stops : s.Stops ptr
        · simp [stops]
        · have one := comma.resolve_left stops
          have two := comma'.resolve_left (mt same.mp stops)
          simp only [stops, false_or]
          omega

private theorem names_invariant {invariant : Nat → Prop}
    (kept : ∀ {ptr : Nat} {id : UInt32} {period : UInt8} {next : Nat}, invariant ptr →
      s.readPair ptr = .pair id period next → invariant next)
    {count place : Nat} (initial : invariant ptr) (member : place ∈ s.names count ptr) :
    invariant place ∧ place < s.size ∧ s.a place ≠ 0x2A := by
  induction count generalizing ptr with
  | zero => exact absurd member List.not_mem_nil
  | succ count ih =>
    unfold Sentence.names at member
    split at member
    case isTrue ended => exact absurd member List.not_mem_nil
    case isFalse more =>
      rw [not_or, Nat.not_le] at more
      rw [List.mem_append] at member
      obtain here | later := member
      · split at here
        case isTrue digit => exact absurd here List.not_mem_nil
        case isFalse letter =>
          rw [List.mem_singleton] at here
          exact here ▸ ⟨initial, more⟩
      · split at later
        case h_1 id period next read => exact ih (kept initial read) later
        case h_2 other => exact absurd later List.not_mem_nil

private theorem mem_names {count place : Nat} (member : place ∈ s.alone.names count ptr) :
    place < s.aSize ∧ s.a place ≠ 0x2A :=
  (@names_invariant s.alone ptr (fun _ => True) (fun _ _ => trivial) _ _ trivial member).2

private theorem compares_inside {place : Nat} (inside : place < s.aSize) :
    place + s.compares place ≤ s.aSize ↔ s.NameWhole place := by
  unfold Sentence.compares Sentence.NameWhole
  by_cases short : s.aSize + 1 - place < 5
  · rw [if_pos short]
    exact ⟨fun _ room => by omega, fun _ => by omega⟩
  · rw [if_neg short]
    have room : place + 4 ≤ s.aSize := by omega
    by_cases talker : s.a place = 0x47
    · have other : Comm.matchesAt s.a place "PINS" = false := by
        simp [Comm.matchesAt, List.range_succ, talker]
      simp [talker, other, room]
    · rw [if_neg talker]
      by_cases pins : Comm.matchesAt s.a place "PINS" = true
      · simp [talker, pins, room]
      · simp [talker, pins, room]

/-- Nothing outside of a sentence is read exactly when it has a star or a null character behind its
options, or commas enough for all pairs, and no name is cut. -/
theorem readsInside_iff :
    s.ReadsInside ↔ (s.Stops 6 ∨ 41 ≤ s.commas 6) ∧ s.NamesWhole := by
  have options := findNextField_stops (s := s) 6
  unfold Sentence.ReadsInside Sentence.NamesWhole
  cases found : s.alone.findNextField 6 with
  | none =>
    rw [found] at options
    simp [options]
  | some read =>
    obtain ⟨field, ptr⟩ := read
    rw [found] at options
    obtain ⟨same, comma⟩ := options
    have ends : (s.alone.pairs 20 ptr).isSome = true ↔ s.Stops 6 ∨ 41 ≤ s.commas 6 := by
      rw [pairs_isSome_iff, same]
      by_cases stops : s.Stops 6
      · simp [stops]
      · have one := comma.resolve_left stops
        simp only [stops, false_or]
        omega
    have names : (∀ place ∈ s.alone.names 20 ptr, place + s.compares place ≤ s.aSize) ↔
        ∀ place ∈ s.alone.names 20 ptr, s.NameWhole place :=
      forall₂_congr fun place member => compares_inside (mem_names member).1
    rw [← ends]
    constructor
    · rintro ⟨_, _, same, inside⟩
      obtain ⟨rfl, rfl⟩ := Prod.mk.inj (Option.some.inj same)
      refine ⟨inside.1, fun _ _ same => ?_⟩
      obtain ⟨rfl, rfl⟩ := Prod.mk.inj (Option.some.inj same)
      exact names.mp inside.2
    · rintro ⟨whole, inside⟩
      exact ⟨field, ptr, rfl, whole, names.mpr (inside field ptr rfl)⟩

/-! ### A sentence with its star -/

variable {star : Nat}

private theorem scanField_le {count : Nat} (ended : s.a star = 0x2A) (behind : ptr ≤ star)
    (read : scanField s.a count ptr = some (field, next)) : next ≤ star := by
  induction count generalizing ptr field with
  | zero => cases read
  | succ count ih =>
    unfold scanField at read
    split at read
    case isTrue ends =>
      obtain ⟨-, rfl⟩ := Prod.mk.inj (Option.some.inj read)
      split
      case isTrue comma =>
        have other : ptr ≠ star := by
          rintro rfl
          rw [comma] at ended
          exact absurd ended (by decide)
        omega
      case isFalse hard => exact behind
    case isFalse plain =>
      obtain ⟨⟨rest, last⟩, found, same⟩ := Option.map_eq_some_iff.mp read
      obtain ⟨-, rfl⟩ := Prod.mk.inj same
      have other : ptr ≠ star := by
        rintro rfl
        exact plain (by simp [endsField, ended])
      exact ih (by omega) found

private theorem readPair_le {id : UInt32} {period : UInt8} (ended : s.a star = 0x2A)
    (behind : ptr ≤ star) (read : s.readPair ptr = .pair id period next) : next ≤ star := by
  unfold Sentence.readPair at read
  split at read
  · cases read
  split at read
  · cases read
  split at read
  · cases read
  case h_2 field middle first =>
    split at read
    · cases read
    split at read
    · cases read
    split at read
    · cases read
    case h_2 field' last second =>
      obtain ⟨-, -, rfl⟩ := Pass.pair.inj read
      exact scanField_le ended (scanField_le ended behind first) second

/-- A sentence with its star, and four bytes behind it as all have, is not left. -/
theorem readsInside_of_star (ended : s.a star = 0x2A) (behind : 6 ≤ star)
    (room : star + 5 ≤ s.aSize) : s.ReadsInside := by
  refine readsInside_iff.mpr ⟨.inl ⟨star, behind, by omega, .inr ended⟩, ?_⟩
  intro field ptr found place member _
  obtain ⟨before, -⟩ := @names_invariant s.alone ptr (· ≤ star)
    (fun behind read => readPair_le (s := s.alone) ended behind read) _ _
    (scanField_le ended behind found) member
  have other : place ≠ star := by
    rintro rfl
    exact (mem_names member).2 ended
  exact ⟨fun _ => by omega, fun _ => by omega⟩

end Reads

end InertialSense.Nmea
