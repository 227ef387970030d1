import InertialSense.Foundation.Scanf
import InertialSense.Nmea.Report

/-! The fields of a sentence: how they are read one after another, and what is read of texts that
were printed. -/

namespace InertialSense.Nmea

open Foundation

def Sentence.readFields (s : Sentence) : Nat → Nat → Option (List (List UInt8 × Nat) × Nat)
  | 0, ptr => some ([], ptr)
  | count + 1, ptr =>
    match s.findNextField ptr with
    | none => none
    | some (field, next) =>
      (s.readFields count next).map fun (fields, last) => ((field, next - ptr) :: fields, last)

/-! ### Padded numerals -/

theorem plain_padded (pad value : Nat) : PlainText (padded pad 10 value) := by
  intro c member
  obtain ⟨found, same, -⟩ := (Option.any_eq_true _ _).mp (mem_padded_decimal member)
  exact plain_hex (same ▸ rfl)

/-- A natural numeral is one that is not padded. -/
theorem decimal_natCast (value : Nat) : decimal value = padded 0 10 value := by
  simp [decimal, padded, List.leftpad]

/-! ### Fields that are read -/

section Fields

variable {s : Sentence} {ptr : Nat}

theorem readFields_shows {fields : List (List Char)} (plain : ∀ field ∈ fields, PlainText field)
    {rest : List Char} (shown : s.Shows ptr (fields.flatMap (· ++ [',']) ++ rest)) :
    s.readFields fields.length ptr = some (fields.map fun field => (textBytes field, field.length + 1),
      ptr + (fields.flatMap (· ++ [','])).length) := by
  induction fields generalizing ptr with
  | nil => rfl
  | cons field fields ih =>
    rw [List.flatMap_cons, List.append_assoc, List.append_assoc] at shown
    have found := findNextField_shows (fun c member => (plain field (.head _) c member).1) (.inl rfl) shown
    have read := ih (fun other member => plain other (.tail _ member)) (shows_drop shown).2.2
    have next : nextField ',' (ptr + field.length) = ptr + field.length + 1 := rfl
    have span : ptr + field.length + 1 - ptr = field.length + 1 := by omega
    have length : ((field :: fields).flatMap (· ++ [','])).length =
        field.length + 1 + (fields.flatMap (· ++ [','])).length := by
      rw [List.flatMap_cons, List.length_append, List.length_append]
      rfl
    rw [next] at found
    rw [List.length_cons, Sentence.readFields, found]
    dsimp only
    rw [read, span, length, ← Nat.add_assoc, ← Nat.add_assoc]
    rfl

theorem commas_behind (fields : List (List Char)) (rest : List Char) :
    fields.flatMap (',' :: ·) ++ ',' :: rest = ',' :: (fields.flatMap (· ++ [',']) ++ rest) := by
  induction fields with
  | nil => rfl
  | cons field fields ih =>
    rw [List.flatMap_cons, List.flatMap_cons, List.append_assoc, ih]
    simp

theorem shows_fields {head : List Char} {fields : List (List Char)} {last : Char} {rest : List Char}
    (shown : s.Shows ptr (head ++ fields.flatMap (',' :: ·) ++ [',', last] ++ rest)) :
    s.Shows (ptr + head.length + 1) (fields.flatMap (· ++ [',']) ++ last :: rest) := by
  rw [List.append_assoc, List.append_assoc, List.cons_append, commas_behind] at shown
  exact (shows_drop shown).2.2

theorem readFields_between {head : List Char} {fields : List (List Char)} {last : Char} {rest : List Char}
    (plain : ∀ field ∈ fields, PlainText field)
    (shown : s.Shows ptr (head ++ fields.flatMap (',' :: ·) ++ [',', last] ++ rest)) :
    ∃ next, s.readFields fields.length (ptr + head.length + 1) =
        some (fields.map fun field => (textBytes field, field.length + 1), next) ∧
      next < s.size ∧ s.a next = last.toUInt8 := by
  have fields := shows_fields shown
  obtain ⟨inside, here, -⟩ := shows_drop fields
  exact ⟨_, readFields_shows plain fields, inside, here⟩

end Fields

/-! ### Numbers -/

/-- A padded numeral is read back. -/
theorem atoi_padded (pad : Nat) {value : Nat} (small : value < 2 ^ 31) :
    atoi (textBytes (padded pad 10 value)) = value := by
  have number := numberOf_padded pad value
  have read := (strtol_digits (padded_ne_nil pad value) (fun c member => mem_padded_decimal member)
    (show numberOf 10 0 (padded pad 10 value) < 2 ^ 63 by omega) (show [].takeWhile _ = [] from rfl)).1
  rw [List.append_nil, number] at read
  unfold atoi
  rw [(plain_padded pad value).chars, read]
  rw [Int.bmod_def]
  split <;> omega

theorem uint16_ofInt (value : UInt16) : UInt16.ofInt (value.toNat : Int) = value := by
  have small := UInt16.toNat_lt value
  have whole : (value.toNat : Int) % 2 ^ 16 = value.toNat := by omega
  unfold UInt16.ofInt
  rw [whole, Int.toNat_natCast, UInt16.ofNat_toNat]

end InertialSense.Nmea
