import InertialSense.DataLog.Mappings
import InertialSense.Foundation.SearchTree
import Mathlib.Data.List.Lex

/-! `sCaseInsensitiveCompare` on the bytes of names, and the maps that are ordered by it. -/

namespace InertialSense.DataLog.FieldNames

open Foundation

/-- What is read where nothing is. -/
inductive Outside where
  | text
  | table
deriving DecidableEq

def lowerCase (c : UInt8) : UInt8 := if 65 ≤ c ∧ c ≤ 90 then c + 32 else c

def asciiToLowerMap : List UInt8 := (List.range 256).map fun c => lowerCase (UInt8.ofNat c)

/-- A `char`, which has a sign. -/
def signedChar (c : UInt8) : Int := Int.bmod c.toNat 256

/-- `g_asciiToLowerMap[(int)ptr[i]]`, as a `char`. -/
def lowerAt (s : List UInt8) (i : Nat) : Except Outside Int :=
  match (s ++ [0])[i]? with
  | none => .error .text
  | some c =>
    if signedChar c < 0 then .error .table
    else
      match asciiToLowerMap[(signedChar c).toNat]? with
      | none => .error .table
      | some lower => .ok (signedChar lower)

/-- `minSize`. The sizes are narrowed, and their difference wraps. -/
def minSize (size1 size2 : Nat) : BitVec 64 :=
  let sizeDiff := BitVec.ofNat 32 size1 - BitVec.ofNat 32 size2
  BitVec.ofNat 64 size2 + (sizeDiff &&& sizeDiff.sshiftRight 31).signExtend 64

/-- The loop, from a place on. -/
def compareFrom (s1 s2 : List UInt8) : Nat → Nat → Except Outside Bool
  | 0, _ => .ok (s1.length < s2.length)
  | left + 1, i =>
    match lowerAt s1 i, lowerAt s2 i with
    | .ok c1, .ok c2 => if c1 ≠ c2 then .ok (c1 < c2) else compareFrom s1 s2 left (i + 1)
    | .error outside, _ | _, .error outside => .error outside

def sCaseInsensitiveCompare (s1 s2 : List UInt8) : Except Outside Bool :=
  compareFrom s1 s2 (minSize s1.length s2.length).toNat 0

/-- The text without the case of its letters, as numbers in their order. -/
def lowered (s : List UInt8) : List Nat := s.map fun c => (lowerCase c).toNat

/-- A character that may be read and looked up, the one that ends the text counted. -/
def Readable (s : List UInt8) (i : Nat) : Prop := ∃ c ∈ (s ++ [0])[i]?, c < 128

/-- The texts do not differ here. -/
def Same (s1 s2 : List UInt8) (i : Nat) : Prop := (lowered (s1 ++ [0]))[i]? = (lowered (s2 ++ [0]))[i]?

/-- Whatever is compared up to a difference may be read, and if less is compared than both texts have and
there is no difference in it, then the sizes are in the order of the texts. -/
structure Comparable (s1 s2 : List UInt8) : Prop where
  readable : ∀ i < (minSize s1.length s2.length).toNat, (∀ k < i, Same s1 s2 k) → Readable s1 i ∧ Readable s2 i
  sizes : (minSize s1.length s2.length).toNat < min s1.length s2.length →
    (∀ k < (minSize s1.length s2.length).toNat, Same s1 s2 k) →
    (s1.length < s2.length ↔ lowered s1 < lowered s2)

section Characters

variable {s : List UInt8} {i : Nat} {c : UInt8}

theorem lowerCase_toNat (c : UInt8) :
    (lowerCase c).toNat = if 65 ≤ c.toNat ∧ c.toNat ≤ 90 then c.toNat + 32 else c.toNat := by
  have letter : 65 ≤ c ∧ c ≤ 90 ↔ 65 ≤ c.toNat ∧ c.toNat ≤ 90 := by
    rw [UInt8.le_iff_toNat_le, UInt8.le_iff_toNat_le]
    rfl
  unfold lowerCase
  simp only [letter]
  split
  case isTrue inside =>
    rw [UInt8.toNat_add]
    exact Nat.mod_eq_of_lt (Nat.lt_of_le_of_lt (Nat.add_le_add_right inside.2 32) (by decide))
  case isFalse => rfl

theorem lowerCase_lt (plain : c < 128) : (lowerCase c).toNat < 128 := by
  have small : c.toNat < 128 := UInt8.lt_iff_toNat_lt.mp plain
  rw [lowerCase_toNat]
  split <;> omega

theorem signedChar_lt (plain : c < 128) : signedChar c = c.toNat := by
  have small := UInt8.lt_iff_toNat_lt.mp plain
  change c.toNat < 128 at small
  unfold signedChar
  exact Int.bmod_eq_of_le (by omega) (by omega)

theorem signedChar_neg (high : ¬c < 128) : signedChar c < 0 := by
  have large := mt UInt8.lt_iff_toNat_lt.mpr high
  change ¬c.toNat < 128 at large
  have bound := c.toNat_lt
  unfold signedChar
  rw [Int.bmod_def]
  split <;> omega

theorem lowerAt_some (here : (s ++ [0])[i]? = some c) (plain : c < 128) :
    lowerAt s i = .ok ((lowerCase c).toNat : Int) := by
  have entry : asciiToLowerMap[c.toNat]? = some (lowerCase c) := by
    unfold asciiToLowerMap
    rw [List.getElem?_map, List.getElem?_range c.toNat_lt, Option.map_some, UInt8.ofNat_toNat]
  unfold lowerAt
  rw [here]
  dsimp only
  rw [signedChar_lt plain, if_neg (by omega), Int.toNat_natCast, entry]
  exact congrArg Except.ok (signedChar_lt (UInt8.lt_iff_toNat_lt.mpr (lowerCase_lt plain)))

theorem lowerAt_error (unreadable : ¬Readable s i) : ∃ outside, lowerAt s i = .error outside := by
  unfold lowerAt
  cases found : (s ++ [0])[i]? with
  | none => exact ⟨_, rfl⟩
  | some c =>
    have high : ¬c < 128 := fun plain => unreadable ⟨c, found, plain⟩
    dsimp only
    rw [if_pos (signedChar_neg high)]
    exact ⟨_, rfl⟩

theorem Readable.le_length (readable : Readable s i) : i ≤ s.length := by
  obtain ⟨c, here, -⟩ := readable
  obtain ⟨inside, -⟩ := List.getElem?_eq_some_iff.mp here
  rw [List.length_append, List.length_singleton] at inside
  omega

theorem lowered_getElem? (here : (s ++ [0])[i]? = some c) : (lowered (s ++ [0]))[i]? = some (lowerCase c).toNat := by
  unfold lowered
  rw [List.getElem?_map, here, Option.map_some]

end Characters

section Order

variable {s1 s2 : List UInt8} {i : Nat}

theorem append_lt_append_iff (front u v : List Nat) : front ++ u < front ++ v ↔ u < v := by
  induction front with
  | nil => exact Iff.rfl
  | cons n front ih =>
    rw [List.cons_append, List.cons_append, List.cons_lt_cons_iff, ih]
    simp

/-- Behind a part that is the same, the order is that of the rest. -/
theorem lowered_lt_iff_drop (same : ∀ k < i, Same s1 s2 k) (inside1 : i ≤ s1.length) (inside2 : i ≤ s2.length) :
    lowered s1 < lowered s2 ↔ lowered (s1.drop i) < lowered (s2.drop i) := by
  have before {s : List UInt8} (inside : i ≤ s.length) {k : Nat} (earlier : k < i) :
      (lowered (s ++ [0]))[k]? = (lowered s)[k]? := by
    unfold lowered
    rw [List.getElem?_map, List.getElem?_map, List.getElem?_append_left (earlier.trans_le inside)]
  have front : (lowered s1).take i = (lowered s2).take i := by
    refine List.ext_getElem? fun k => ?_
    rw [List.getElem?_take, List.getElem?_take]
    split
    case isTrue earlier => rw [← before inside1 earlier, ← before inside2 earlier]; exact same k earlier
    case isFalse => rfl
  have behind (s : List UInt8) : lowered (s.drop i) = (lowered s).drop i := List.map_drop
  calc lowered s1 < lowered s2
      ↔ (lowered s1).take i ++ (lowered s1).drop i < (lowered s1).take i ++ (lowered s2).drop i := by
        rw [List.take_append_drop, front, List.take_append_drop]
    _ ↔ lowered (s1.drop i) < lowered (s2.drop i) := by rw [append_lt_append_iff, behind, behind]

/-- A text from a place on: nothing is left where it ends. -/
theorem drop_cases {s : List UInt8} {c : UInt8} (here : (s ++ [0])[i]? = some c) :
    (s.drop i = [] ∧ c = 0) ∨ ∃ rest, s.drop i = c :: rest := by
  obtain inside | behind := Nat.lt_or_ge i s.length
  · rw [List.getElem?_append_left inside, List.getElem?_eq_getElem inside] at here
    refine .inr ⟨s.drop (i + 1), ?_⟩
    rw [List.drop_eq_getElem_cons inside, Option.some.inj here]
  · rw [List.getElem?_append_right behind, List.getElem?_singleton] at here
    split_ifs at here
    exact .inl ⟨List.drop_eq_nil_of_le behind, (Option.some.inj here).symm⟩

/-- The first difference decides, also one with the end of a text. -/
theorem lowered_lt_iff_first {a b : UInt8} (same : ∀ k < i, Same s1 s2 k) (inside1 : i ≤ s1.length)
    (inside2 : i ≤ s2.length) (here1 : (s1 ++ [0])[i]? = some a) (here2 : (s2 ++ [0])[i]? = some b)
    (differ : (lowerCase a).toNat ≠ (lowerCase b).toNat) :
    lowered s1 < lowered s2 ↔ (lowerCase a).toNat < (lowerCase b).toNat := by
  rw [lowered_lt_iff_drop same inside1 inside2]
  obtain ⟨rest1, rfl⟩ | ⟨rest1, rest1_eq⟩ := drop_cases here1
  · rw [rest1]
    obtain ⟨-, rfl⟩ | ⟨rest2, rest2_eq⟩ := drop_cases here2
    · exact absurd rfl differ
    · rw [rest2_eq]
      exact iff_of_true List.Lex.nil (Nat.pos_of_ne_zero differ.symm)
  · rw [rest1_eq]
    obtain ⟨rest2, rfl⟩ | ⟨rest2, rest2_eq⟩ := drop_cases here2
    · rw [rest2]
      exact iff_of_false (List.not_lt_nil _) (Nat.not_lt_zero _)
    · rw [rest2_eq]
      show (lowerCase a).toNat :: lowered rest1 < (lowerCase b).toNat :: lowered rest2 ↔ _
      rw [List.cons_lt_cons_iff]
      simp [differ]

/-- If all of one of the texts is the start of the other one, the sizes decide. -/
theorem lowered_lt_iff_length (same : ∀ k < min s1.length s2.length, Same s1 s2 k) :
    lowered s1 < lowered s2 ↔ s1.length < s2.length := by
  rw [lowered_lt_iff_drop same (Nat.min_le_left ..) (Nat.min_le_right ..)]
  obtain first | second := Nat.le_total s1.length s2.length
  · rw [Nat.min_eq_left first, List.drop_length]
    cases rest : s2.drop s1.length with
    | nil => exact iff_of_false (List.not_lt_nil _) (Nat.not_lt.mpr (List.drop_eq_nil_iff.mp rest))
    | cons c rest' =>
      refine iff_of_true List.Lex.nil (Nat.lt_of_not_le fun none => ?_)
      rw [List.drop_eq_nil_of_le none] at rest
      cases rest
  · rw [Nat.min_eq_right second, List.drop_length]
    exact iff_of_false (List.not_lt_nil _) (Nat.not_lt.mpr second)

/-- What the loop answers from a place on, if there is no difference before it. -/
theorem compareFrom_answers_iff {left : Nat} (same : ∀ k < i, Same s1 s2 k) :
    Answers (compareFrom s1 s2 left i) (lowered s1 < lowered s2) ↔
      (∀ k, i ≤ k → k < i + left → (∀ j < k, Same s1 s2 j) → Readable s1 k ∧ Readable s2 k) ∧
        ((∀ k < i + left, Same s1 s2 k) → (s1.length < s2.length ↔ lowered s1 < lowered s2)) := by
  induction left generalizing i with
  | zero =>
    unfold compareFrom
    rw [answers_ok, decide_eq_true_iff, and_iff_right (by omega), Nat.add_zero, imp_iff_right same]
  | succ left ih =>
    by_cases readable : Readable s1 i ∧ Readable s2 i
    · obtain ⟨⟨a, here1, plain1⟩, ⟨b, here2, plain2⟩⟩ := readable
      unfold compareFrom
      rw [lowerAt_some here1 plain1, lowerAt_some here2 plain2]
      dsimp only
      have read : Same s1 s2 i ↔ (lowerCase a).toNat = (lowerCase b).toNat := by
        unfold Same
        rw [lowered_getElem? here1, lowered_getElem? here2, Option.some_inj]
      by_cases equal : (lowerCase a).toNat = (lowerCase b).toNat
      · have further : ∀ k < i + 1, Same s1 s2 k := by
          intro k earlier
          obtain before | rfl := Nat.lt_or_eq_of_le (Nat.le_of_lt_succ earlier)
          · exact same k before
          · exact read.mpr equal
        rw [if_neg (by simp [equal]), ih further, show i + 1 + left = i + (left + 1) by omega]
        refine and_congr_left fun _ => ⟨fun later k place => ?_, fun all k place => all k (by omega)⟩
        obtain here | behind := Nat.eq_or_lt_of_le place
        · subst here
          exact fun _ _ => ⟨⟨a, here1, plain1⟩, ⟨b, here2, plain2⟩⟩
        · exact later k behind
      · have inside1 := Readable.le_length ⟨a, here1, plain1⟩
        have inside2 := Readable.le_length ⟨b, here2, plain2⟩
        rw [if_pos (by exact_mod_cast equal), answers_ok, decide_eq_true_iff, Int.ofNat_lt,
          lowered_lt_iff_first same inside1 inside2 here1 here2 equal]
        refine iff_of_true Iff.rfl ⟨fun k place _ earlier => ?_, fun all => ?_⟩
        · obtain here | behind := Nat.eq_or_lt_of_le place
          · subst here
            exact ⟨⟨a, here1, plain1⟩, ⟨b, here2, plain2⟩⟩
          · exact absurd (read.mp (earlier i behind)) equal
        · exact absurd (read.mp (all i (by omega))) equal
    · refine iff_of_false ?_ fun all => readable (all.1 i (Nat.le_refl i) (by omega) same)
      unfold compareFrom
      by_cases first : Readable s1 i
      · obtain ⟨a, here1, plain1⟩ := first
        obtain ⟨outside, failed⟩ := lowerAt_error fun second => readable ⟨⟨a, here1, plain1⟩, second⟩
        rw [lowerAt_some here1 plain1, failed]
        exact not_answers_error
      · obtain ⟨outside, failed⟩ := lowerAt_error first
        rw [failed]
        exact not_answers_error

/-- The comparison answers exactly the order of the comparable texts. -/
theorem compare_answers_iff :
    Answers (sCaseInsensitiveCompare s1 s2) (lowered s1 < lowered s2) ↔ Comparable s1 s2 := by
  unfold sCaseInsensitiveCompare
  rw [compareFrom_answers_iff fun k none => absurd none (Nat.not_lt_zero k)]
  simp only [Nat.zero_le, true_implies, Nat.zero_add]
  constructor
  · rintro ⟨readable, sizes⟩
    exact ⟨fun k inside => readable k inside, fun _ => sizes⟩
  · rintro ⟨readable, sizes⟩
    refine ⟨fun k inside => readable k inside, fun same => ?_⟩
    obtain less | more := Nat.lt_or_ge (minSize s1.length s2.length).toNat (min s1.length s2.length)
    · exact sizes less same
    · exact (lowered_lt_iff_length fun k inside => same k (inside.trans_le more)).symm

end Order

section Plain

/-- The difference if it is negative, and zero otherwise. -/
theorem and_sshiftRight (d : BitVec 32) : d &&& d.sshiftRight 31 = if d.msb then d else 0#32 := by
  refine BitVec.eq_of_getLsbD_eq fun k inside => ?_
  have sign : (d.sshiftRight 31).getLsbD k = d.msb := by
    rw [BitVec.getLsbD_sshiftRight, decide_eq_false (Nat.not_le.mpr inside), BitVec.msb_eq_getLsbD_last]
    split
    case isTrue first => simp [show k = 0 by omega]
    case isFalse => simp
  rw [BitVec.getLsbD_and, sign]
  cases d.msb
  · simp
  · simp

/-- Sizes of an `int` give the smaller one. -/
theorem minSize_toNat {size1 size2 : Nat} (small1 : size1 < 2 ^ 31) (small2 : size2 < 2 ^ 31) :
    (minSize size1 size2).toNat = min size1 size2 := by
  have difference : (BitVec.ofNat 32 size1 - BitVec.ofNat 32 size2).toNat =
      if size1 < size2 then 2 ^ 32 + size1 - size2 else size1 - size2 := by
    rw [BitVec.toNat_sub, BitVec.toNat_ofNat, BitVec.toNat_ofNat]
    split <;> omega
  have negative : (BitVec.ofNat 32 size1 - BitVec.ofNat 32 size2).msb = decide (size1 < size2) := by
    rw [BitVec.msb_eq_decide, difference]
    refine decide_eq_decide.mpr ?_
    split <;> omega
  unfold minSize
  dsimp only
  rw [and_sshiftRight, negative, BitVec.toNat_add, BitVec.toNat_signExtend]
  by_cases less : size1 < size2
  · rw [if_pos (decide_eq_true less), negative, if_pos (decide_eq_true less), BitVec.toNat_setWidth, difference,
      if_pos less, BitVec.toNat_ofNat]
    omega
  · rw [if_neg (by simpa using less)]
    simp only [BitVec.msb_zero, Bool.false_eq_true, if_false, BitVec.toNat_setWidth, BitVec.toNat_ofNat]
    omega

variable {s1 s2 : List UInt8}

/-- Characters below 128 in texts with sizes of an `int` are all that is needed. -/
theorem comparable_of_plain (plain1 : ∀ c ∈ s1, c < 128) (plain2 : ∀ c ∈ s2, c < 128)
    (small1 : s1.length < 2 ^ 31) (small2 : s2.length < 2 ^ 31) : Comparable s1 s2 := by
  have readable {s : List UInt8} (plain : ∀ c ∈ s, c < 128) {i : Nat} (inside : i < s.length) : Readable s i := by
    refine ⟨s[i], ?_, plain _ (List.getElem_mem inside)⟩
    rw [List.getElem?_append_left inside, List.getElem?_eq_getElem inside]
    rfl
  have size := minSize_toNat small1 small2
  refine ⟨fun i inside _ => ⟨readable plain1 (by omega), readable plain2 (by omega)⟩, fun less => ?_⟩
  omega

theorem toLower_toNat {c : UInt8} (plain : c < 128) : (Char.ofUInt8 c).toLower.toNat = (lowerCase c).toNat := by
  have all : ∀ n < 128, (Char.ofUInt8 (UInt8.ofNat n)).toLower.toNat = (lowerCase (UInt8.ofNat n)).toNat := by
    decide
  have found := all c.toNat (UInt8.lt_iff_toNat_lt.mp plain)
  rwa [UInt8.ofNat_toNat] at found

theorem nameLess_iff (plain1 : ∀ c ∈ s1, c < 128) (plain2 : ∀ c ∈ s2, c < 128) :
    nameLess (s1.map Char.ofUInt8) (s2.map Char.ofUInt8) = true ↔ lowered s1 < lowered s2 := by
  induction s1 generalizing s2 with
  | nil =>
    cases s2 with
    | nil => exact iff_of_false nofun (List.not_lt_nil _)
    | cons b s2 => exact iff_of_true rfl List.Lex.nil
  | cons a s1 ih =>
    cases s2 with
    | nil => exact iff_of_false nofun (List.not_lt_nil _)
    | cons b s2 =>
      obtain ⟨first1, rest1⟩ := List.forall_mem_cons.mp plain1
      obtain ⟨first2, rest2⟩ := List.forall_mem_cons.mp plain2
      have lower1 := toLower_toNat first1
      have lower2 := toLower_toNat first2
      have equal : (Char.ofUInt8 a).toLower = (Char.ofUInt8 b).toLower ↔
          (lowerCase a).toNat = (lowerCase b).toNat := by
        rw [← lower1, ← lower2]
        exact Char.toNat_inj.symm
      show (if (Char.ofUInt8 a).toLower ≠ (Char.ofUInt8 b).toLower then
        decide ((Char.ofUInt8 a).toLower < (Char.ofUInt8 b).toLower) else
        nameLess (s1.map Char.ofUInt8) (s2.map Char.ofUInt8)) = true ↔
          (lowerCase a).toNat :: lowered s1 < (lowerCase b).toNat :: lowered s2
      rw [List.cons_lt_cons_iff, ← ih rest1 rest2]
      by_cases same : (lowerCase a).toNat = (lowerCase b).toNat
      · rw [if_neg (Classical.not_not.mpr (equal.mpr same))]
        simp [same]
      · rw [if_pos (mt equal.mp same), decide_eq_true_iff]
        have less : (Char.ofUInt8 a).toLower < (Char.ofUInt8 b).toLower ↔
            (Char.ofUInt8 a).toLower.toNat < (Char.ofUInt8 b).toLower.toNat := Iff.rfl
        rw [less, lower1, lower2]
        exact (or_iff_left fun later => same later.1).symm

/-- On such texts it is the comparison of the names of fields. -/
theorem sCaseInsensitiveCompare_plain (plain1 : ∀ c ∈ s1, c < 128) (plain2 : ∀ c ∈ s2, c < 128)
    (small1 : s1.length < 2 ^ 31) (small2 : s2.length < 2 ^ 31) :
    sCaseInsensitiveCompare s1 s2 = .ok (nameLess (s1.map Char.ofUInt8) (s2.map Char.ofUInt8)) := by
  have answers := compare_answers_iff.mpr (comparable_of_plain plain1 plain2 small1 small2)
  rw [← nameLess_iff plain1 plain2] at answers
  obtain ⟨b, same, truth⟩ := answers
  rw [same, Bool.eq_iff_iff.mpr truth]

end Plain

/-- On these names the comparison answers the order of the texts without their case, it is a strict weak order,
and a map that is ordered by it finds exactly the field with a name. -/
structure OrdersNames (names : Set (List UInt8)) : Prop where
  answers : ∀ s1 ∈ names, ∀ s2 ∈ names, Answers (sCaseInsensitiveCompare s1 s2) (lowered s1 < lowered s2)
  irreflexive : ∀ s ∈ names, sCaseInsensitiveCompare s s = .ok false
  transitive : ∀ s1 ∈ names, ∀ s2 ∈ names, ∀ s3 ∈ names, sCaseInsensitiveCompare s1 s2 = .ok true →
    sCaseInsensitiveCompare s2 s3 = .ok true → sCaseInsensitiveCompare s1 s3 = .ok true
  incomparable : ∀ s1 ∈ names, ∀ s2 ∈ names,
    sCaseInsensitiveCompare s1 s2 = .ok false ∧ sCaseInsensitiveCompare s2 s1 = .ok false ↔ lowered s1 = lowered s2
  find : ∀ (nameToInfo : SearchTree (List UInt8) DataInfo), (∀ entry ∈ nameToInfo.entries, entry.1 ∈ names) →
    (nameToInfo.Ordered fun s1 s2 => sCaseInsensitiveCompare s1 s2 = .ok true) → ∀ name ∈ names,
      ∃ found, nameToInfo.find sCaseInsensitiveCompare name = .ok found ∧
        ∀ entry, found = some entry ↔ entry ∈ nameToInfo.entries ∧ lowered entry.1 = lowered name

/-- It does exactly on names that are comparable with each other. -/
theorem ordersNames_iff (names : Set (List UInt8)) :
    OrdersNames names ↔ ∀ s1 ∈ names, ∀ s2 ∈ names, Comparable s1 s2 := by
  constructor
  · rintro ⟨answers, -⟩ s1 member1 s2 member2
    exact compare_answers_iff.mp (answers s1 member1 s2 member2)
  · intro comparable
    have answers : ∀ s1 ∈ names, ∀ s2 ∈ names,
        Answers (sCaseInsensitiveCompare s1 s2) (lowered s1 < lowered s2) :=
      fun s1 member1 s2 member2 => compare_answers_iff.mpr (comparable s1 member1 s2 member2)
    have less {s1 s2 : List UInt8} (member1 : s1 ∈ names) (member2 : s2 ∈ names) :
        sCaseInsensitiveCompare s1 s2 = .ok true ↔ lowered s1 < lowered s2 :=
      (answers s1 member1 s2 member2).eq_true_iff
    have notLess {s1 s2 : List UInt8} (member1 : s1 ∈ names) (member2 : s2 ∈ names) :
        sCaseInsensitiveCompare s1 s2 = .ok false ↔ ¬lowered s1 < lowered s2 :=
      (answers s1 member1 s2 member2).eq_false_iff
    refine ⟨answers, ?_, ?_, ?_, ?_⟩
    · exact fun s member => (notLess member member).mpr (lt_irrefl _)
    · intro s1 member1 s2 member2 s3 member3 first second
      exact (less member1 member3).mpr (lt_trans ((less member1 member2).mp first) ((less member2 member3).mp second))
    · intro s1 member1 s2 member2
      rw [notLess member1 member2, notLess member2 member1, not_lt, not_lt, and_comm]
      exact le_antisymm_iff.symm
    · intro nameToInfo known ordered name member
      have ranked : nameToInfo.Ordered fun s1 s2 => lowered s1 < lowered s2 := by
        refine List.Pairwise.imp_of_mem ?_ ordered
        exact fun first second => (less (known _ first) (known _ second)).mp
      exact SearchTree.find_exactly ranked fun entry inside =>
        ⟨answers _ (known entry inside) _ member, answers _ member _ (known entry inside)⟩

/-- A lookup of `é` looks in the table for a negative character. -/
theorem accented_name_outside : sCaseInsensitiveCompare [0x74, 0x69, 0x6d, 0x65] [0xc3, 0xa9] = .error .table ∧
    ¬OrdersNames {[0x74, 0x69, 0x6d, 0x65], [0xc3, 0xa9]} := by
  have outside : sCaseInsensitiveCompare [0x74, 0x69, 0x6d, 0x65] [0xc3, 0xa9] = .error .table := by
    decide +kernel
  refine ⟨outside, fun orders => ?_⟩
  obtain ⟨less, answer, -⟩ := orders.answers [0x74, 0x69, 0x6d, 0x65] (.inl rfl) [0xc3, 0xa9] (.inr rfl)
  rw [outside] at answer
  cases answer

end InertialSense.DataLog.FieldNames
