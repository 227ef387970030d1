import Mathlib.Data.List.Induction

/-! What a loop leaves in a place that each of its passes either sets or lets be. -/

namespace Foundation

variable {σ α β : Type*}

def lastOf (sets : α → Option β) : List α → Option β
  | [] => none
  | x :: rest => (lastOf sets rest).or (sets x)

variable {sets sets' : α → Option β}

theorem lastOf_append (first second : List α) :
    lastOf sets (first ++ second) = (lastOf sets second).or (lastOf sets first) := by
  induction first with
  | nil => simp [lastOf]
  | cons x rest ih => rw [List.cons_append, lastOf, ih, lastOf, Option.or_assoc]

theorem lastOf_concat (first : List α) (x : α) :
    lastOf sets (first ++ [x]) = (sets x).or (lastOf sets first) := by
  rw [lastOf_append]
  rfl

theorem lastOf_isSome_iff {items : List α} :
    (lastOf sets items).isSome ↔ ∃ x ∈ items, (sets x).isSome := by
  induction items with
  | nil => simp [lastOf]
  | cons x rest ih => simp [lastOf, ih, or_comm]

theorem lastOf_eq_none_iff {items : List α} :
    lastOf sets items = none ↔ ∀ x ∈ items, sets x = none := by
  induction items with
  | nil => simp [lastOf]
  | cons x rest ih => rw [lastOf, Option.or_eq_none_iff, ih, List.forall_mem_cons, And.comm]

/-- Items that all set the place to one value, if to any. -/
theorem lastOf_of_all {items : List α} {value : β}
    (all : ∀ x ∈ items, sets x = none ∨ sets x = some value) :
    lastOf sets items = none ∨ lastOf sets items = some value := by
  induction items with
  | nil => exact .inl rfl
  | cons x rest ih =>
    obtain ⟨here, later⟩ := List.forall_mem_cons.mp all
    rw [lastOf]
    obtain rest | rest := ih later
    · rwa [rest, Option.none_or]
    · exact .inr (by rw [rest]; rfl)

/-- A loop leaves what was set last, or what was there before. -/
theorem foldl_lastOf {step : σ → α → σ} {place : σ → β}
    (each : ∀ state x, place (step state x) = (sets x).getD (place state)) (items : List α)
    (state : σ) : place (items.foldl step state) = (lastOf sets items).getD (place state) := by
  induction items generalizing state with
  | nil => rfl
  | cons x rest ih =>
    rw [List.foldl_cons, ih, each, lastOf]
    cases lastOf sets rest <;> rfl

/-- Two loops of which one sets the place at some items, to a known value, where the other lets it be:
they leave the same exactly when a later item sets it, or the last one before has set the value. -/
theorem lastOf_eq_iff {special : α → Prop} {value : β}
    (apart : ∀ x, special x → sets x = some value ∧ sets' x = none)
    (other : ∀ x, ¬special x → sets x = sets' x) {items : List α} :
    lastOf sets items = lastOf sets' items ↔
      ∀ before x after, items = before ++ x :: after → special x →
        (lastOf sets' after).isSome ∨ lastOf sets' before = some value := by
  constructor
  · rintro same before x after rfl here
    obtain ⟨set, unset⟩ := apart x here
    refine or_iff_not_imp_left.mpr fun later => ?_
    have later := Option.not_isSome_iff_eq_none.mp later
    have known : lastOf sets after = none ∨ lastOf sets after = some value := by
      refine lastOf_of_all fun y member => ?_
      by_cases this : special y
      · exact .inr (apart y this).1
      · exact .inl ((other y this).trans (lastOf_eq_none_iff.mp later y member))
    rw [lastOf_append, lastOf_append, lastOf, lastOf, later, set, unset] at same
    obtain after | after := known
    · rw [after] at same
      exact same.symm
    · rw [after] at same
      exact same.symm
  · intro settled
    induction items using List.reverseRecOn with
    | nil => rfl
    | append_singleton init y ih =>
      rw [lastOf_concat, lastOf_concat]
      by_cases here : special y
      · obtain ⟨set, unset⟩ := apart y here
        have before := (settled init y [] rfl here).resolve_left (by simp [lastOf])
        rw [set, unset, before]
        rfl
      · rw [other y here]
        cases set : sets' y with
        | some v => rfl
        | none =>
          rw [Option.none_or, Option.none_or]
          refine ih fun before x after split this => ?_
          have later := settled before x (after ++ [y]) (by rw [split]; simp) this
          rwa [lastOf_concat, set, Option.none_or] at later

end Foundation
