import Mathlib.Data.Nat.Notation
import Mathlib.Data.List.Basic

/-! Loops without fuel. The body of a loop goes on with a state or leaves the loop with a
result; a loop ends if some number of passes leads out of it, and nothing is said of one that
does not. The body is a relation, so that a pass may itself contain loops. -/

namespace Foundation

variable {σ ρ : Type*} {pass : σ → σ ⊕ ρ → Prop} {state : σ} {result result' : ρ}

/-- The loop that starts in the state comes to an end with the result. -/
inductive Ends (pass : σ → σ ⊕ ρ → Prop) : σ → ρ → Prop where
  | leave {state : σ} {result : ρ} (left : pass state (.inr result)) : Ends pass state result
  | again {state next : σ} {result : ρ} (goes : pass state (.inl next))
      (rest : Ends pass next result) : Ends pass state result

namespace Ends

theorem unique (determined : ∀ state answer answer', pass state answer → pass state answer' →
      answer = answer')
    (first : Ends pass state result) (second : Ends pass state result') : result = result' := by
  induction first with
  | leave left =>
    cases second with
    | leave left' => exact Sum.inr.inj (determined _ _ _ left left')
    | again goes' => cases determined _ _ _ left goes'
  | again goes _ ih =>
    cases second with
    | leave left' => cases determined _ _ _ goes left'
    | again goes' rest' =>
      cases determined _ _ _ goes goes'
      exact ih rest'

/-- The loop ends if every pass from a state of the invariant has an answer, and goes on only
with a smaller measure. What a single pass establishes for its result, and hands back from the
rest of the loop, the result has. -/
theorem of_measure (invariant : σ → Prop) (post : σ → ρ → Prop) (measure : σ → ℕ)
    (passes : ∀ state, invariant state →
      (∃ result, pass state (.inr result) ∧ post state result) ∨
        ∃ next, pass state (.inl next) ∧ invariant next ∧ measure next < measure state ∧
          ∀ result, post next result → post state result)
    (initial : invariant state) : ∃ result, Ends pass state result ∧ post state result := by
  induction bound : measure state using Nat.strongRecOn generalizing state with
  | ind bound ih =>
    subst bound
    obtain ⟨result, left, done⟩ | ⟨next, goes, kept, less, back⟩ := passes state initial
    · exact ⟨result, .leave left, done⟩
    · obtain ⟨result, rest, done⟩ := ih (measure next) less kept rfl
      exact ⟨result, .again goes rest, back result done⟩

theorem satisfies {invariant : σ → Prop} {post : ρ → Prop}
    (kept : ∀ state next, invariant state → pass state (.inl next) → invariant next)
    (established : ∀ state result, invariant state → pass state (.inr result) → post result)
    (initial : invariant state) (ends : Ends pass state result) : post result := by
  induction ends with
  | leave left => exact established _ _ initial left
  | again goes _ ih => exact ih (kept _ _ initial goes)

/-- A loop that can only go on within a set of states never ends. -/
theorem endless {stuck : σ → Prop}
    (goes : ∀ state answer, stuck state → pass state answer → ∃ next, answer = .inl next ∧ stuck next)
    (initial : stuck state) : ¬Ends pass state result := by
  intro ends
  induction ends with
  | leave left =>
    obtain ⟨_, same, _⟩ := goes _ _ initial left
    cases same
  | again goes' _ ih =>
    obtain ⟨_, same, next⟩ := goes _ _ initial goes'
    cases same
    exact ih next

end Ends

/-! ### What a counted loop still has before it -/

section Counted

variable {α : Type*} {m count : ℕ}

theorem counted_next (work : ℕ → α) (inside : m < count) :
    ((List.range count).map work).drop m =
      work m :: ((List.range count).map work).drop (m + 1) := by
  rw [List.drop_eq_getElem_cons (by rwa [List.length_map, List.length_range]), List.getElem_map,
    List.getElem_range]

theorem counted_done (work : ℕ → α) (outside : count ≤ m) :
    ((List.range count).map work).drop m = [] :=
  List.drop_eq_nil_of_le (by rwa [List.length_map, List.length_range])

end Counted

end Foundation
