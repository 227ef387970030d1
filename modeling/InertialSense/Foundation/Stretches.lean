import Mathlib.Data.List.Basic

/-! The stretches of neighbouring places where something holds, as a scan finds them. -/

namespace Foundation

/-- Some neighbouring places, the last one excluded. -/
structure Stretch where
  head : Nat
  tail : Nat

def Stretch.Has (stretch : Stretch) (place : Nat) : Prop := stretch.head ≤ place ∧ place < stretch.tail

section Scan

variable (holds : Nat → Prop) [DecidablePred holds] (bound : Nat)

def stretchEnd (place : Nat) : Nat :=
  if place < bound ∧ holds place then stretchEnd (place + 1) else place
termination_by bound - place

variable {holds bound} {place : Nat}

/-- What the end of a stretch is, in one induction. -/
private theorem stretchEnd_facts (place : Nat) :
    place ≤ stretchEnd holds bound place ∧
      (∀ k, place ≤ k → k < stretchEnd holds bound place → k < bound ∧ holds k) ∧
      ¬(stretchEnd holds bound place < bound ∧ holds (stretchEnd holds bound place)) := by
  induction more : bound - place generalizing place with
  | zero =>
    rw [stretchEnd, if_neg (by omega)]
    exact ⟨Nat.le_refl place, fun k begins ends => by omega, fun inside => by omega⟩
  | succ more ih =>
    rw [stretchEnd]
    by_cases here : place < bound ∧ holds place
    · rw [if_pos here]
      obtain ⟨behind, all, ends⟩ := ih (place + 1) (by omega)
      refine ⟨by omega, fun k begins inside => ?_, ends⟩
      obtain rfl | later := Nat.eq_or_lt_of_le begins
      · exact here
      · exact all k later inside
    · rw [if_neg here]
      exact ⟨Nat.le_refl place, fun k begins inside => by omega, here⟩

theorem le_stretchEnd (place : Nat) : place ≤ stretchEnd holds bound place := (stretchEnd_facts place).1

theorem holds_of_lt_stretchEnd {k : Nat} (begins : place ≤ k) (inside : k < stretchEnd holds bound place) :
    k < bound ∧ holds k := (stretchEnd_facts place).2.1 k begins inside

theorem stretchEnd_ends (place : Nat) :
    ¬(stretchEnd holds bound place < bound ∧ holds (stretchEnd holds bound place)) :=
  (stretchEnd_facts place).2.2

theorem lt_stretchEnd (inside : place < bound) (here : holds place) :
    place < stretchEnd holds bound place := by
  rw [stretchEnd, if_pos ⟨inside, here⟩]
  exact le_stretchEnd (place + 1)

theorem stretchEnd_le (inside : place ≤ bound) : stretchEnd holds bound place ≤ bound := by
  by_contra beyond
  exact Nat.lt_irrefl bound (holds_of_lt_stretchEnd inside (Nat.lt_of_not_le beyond)).1

variable (holds bound)

/-- The stretches from this place on. The place that ends one is not looked at again. -/
def stretches (place : Nat) : List Stretch :=
  if place < bound then
    if holds place then
      ⟨place, stretchEnd holds bound place⟩ :: stretches (stretchEnd holds bound place + 1)
    else stretches (place + 1)
  else []
termination_by bound - place
decreasing_by
  · have behind : place ≤ stretchEnd holds bound place := le_stretchEnd place
    omega
  · omega

variable {holds bound}

theorem stretches_inside {stretch : Stretch} (found : stretch ∈ stretches holds bound place) :
    place ≤ stretch.head ∧ stretch.head < stretch.tail ∧ stretch.tail ≤ bound := by
  induction place using stretches.induct holds bound with
  | case1 place inside here ih =>
    rw [stretches, if_pos inside, if_pos here] at found
    have behind := lt_stretchEnd inside here
    obtain rfl | later := List.mem_cons.mp found
    · exact ⟨Nat.le_refl place, behind, stretchEnd_le (Nat.le_of_lt inside)⟩
    · have rest := ih later
      exact ⟨by omega, rest.2⟩
  | case2 place inside other ih =>
    rw [stretches, if_pos inside, if_neg other] at found
    have rest := ih found
    exact ⟨by omega, rest.2⟩
  | case3 place outside =>
    rw [stretches, if_neg outside] at found
    cases found

theorem stretches_apart (place : Nat) :
    (stretches holds bound place).Pairwise fun first second => first.tail < second.head := by
  induction place using stretches.induct holds bound with
  | case1 place inside here ih =>
    rw [stretches, if_pos inside, if_pos here]
    exact .cons (fun second later => (stretches_inside later).1) ih
  | case2 place inside other ih =>
    rw [stretches, if_pos inside, if_neg other]
    exact ih
  | case3 place outside =>
    rw [stretches, if_neg outside]
    exact .nil

theorem stretches_cover {k : Nat} (begins : place ≤ k) :
    (∃ stretch ∈ stretches holds bound place, stretch.Has k) ↔ k < bound ∧ holds k := by
  induction place using stretches.induct holds bound with
  | case1 place inside here ih =>
    rw [stretches, if_pos inside, if_pos here, List.exists_mem_cons_iff]
    by_cases short : k < stretchEnd holds bound place
    · exact iff_of_true (.inl ⟨begins, short⟩) (holds_of_lt_stretchEnd begins short)
    · rw [or_iff_right fun has : Stretch.Has _ k => short has.2]
      obtain rfl | later := Nat.eq_or_lt_of_le (Nat.le_of_not_lt short)
      · refine iff_of_false ?_ (stretchEnd_ends place)
        rintro ⟨stretch, found, has⟩
        have behind := (stretches_inside found).1
        have first := has.1
        omega
      · exact ih later
  | case2 place inside other ih =>
    rw [stretches, if_pos inside, if_neg other]
    obtain rfl | later := Nat.eq_or_lt_of_le begins
    · refine iff_of_false ?_ fun both => other both.2
      rintro ⟨stretch, found, has⟩
      have behind := (stretches_inside found).1
      have first := has.1
      omega
    · exact ih later
  | case3 place outside =>
    rw [stretches, if_neg outside]
    exact iff_of_false nofun (by omega)

section Congr

variable {holds' : Nat → Prop} [DecidablePred holds']

theorem stretchEnd_congr (same : ∀ k, place ≤ k → k < bound → (holds k ↔ holds' k)) :
    stretchEnd holds bound place = stretchEnd holds' bound place := by
  induction more : bound - place generalizing place with
  | zero =>
    unfold stretchEnd
    rw [if_neg (by omega), if_neg (by omega)]
  | succ more ih =>
    have here := same place (Nat.le_refl place) (by omega)
    unfold stretchEnd
    by_cases inside : place < bound ∧ holds place
    · rw [if_pos inside, if_pos ⟨inside.1, here.mp inside.2⟩]
      exact ih (fun k behind => same k (by omega)) (by omega)
    · rw [if_neg inside, if_neg fun both => inside ⟨both.1, here.mpr both.2⟩]

theorem stretches_congr (same : ∀ k, place ≤ k → k < bound → (holds k ↔ holds' k)) :
    stretches holds bound place = stretches holds' bound place := by
  induction place using stretches.induct holds bound with
  | case1 place inside here ih =>
    have begins : place ≤ stretchEnd holds bound place := le_stretchEnd place
    have later := ih fun k behind => same k (by omega)
    unfold stretches
    rw [if_pos inside, if_pos here, if_pos inside, if_pos ((same place (Nat.le_refl place) inside).mp here),
      later, stretchEnd_congr same]
  | case2 place inside other ih =>
    have later := ih fun k behind => same k (by omega)
    unfold stretches
    rw [if_pos inside, if_neg other, if_pos inside,
      if_neg (mt (same place (Nat.le_refl place) inside).mpr other), later]
  | case3 place outside =>
    unfold stretches
    rw [if_neg outside, if_neg outside]

end Congr

end Scan

end Foundation
