import Mathlib.Algebra.Group.Nat.Defs
import Mathlib.Data.List.Basic

/-! Machines that take steps of their own until nothing is left to do, and report on the
way. What a machine does before it rests is described by a relation, so that neither fuel
nor the way the steps are grouped into calls appears in it. -/

namespace Foundation

variable {σ ρ : Type*}

/-- Some steps lead from the first state to the second and give these reports. -/
inductive Reaches (step : σ → Option (σ × List ρ)) : σ → List ρ → σ → Prop where
  | refl (state : σ) : Reaches step state [] state
  | head {state next final : σ} {now later : List ρ} (taken : step state = some (next, now))
      (rest : Reaches step next later final) : Reaches step state (now ++ later) final

/-- The machine comes to rest. -/
def Settles (step : σ → Option (σ × List ρ)) (state : σ) (reports : List ρ) (final : σ) : Prop :=
  Reaches step state reports final ∧ step final = none

/-- Every state on the way satisfies the predicate. -/
def Visits (step : σ → Option (σ × List ρ)) (predicate : σ → Prop) (state : σ) : Prop :=
  ∀ reports next, Reaches step state reports next → predicate next

variable {step step' : σ → Option (σ × List ρ)} {state next final final' : σ}
  {reports reports' now later : List ρ} {predicate : σ → Prop}

namespace Reaches

theorem single (taken : step state = some (next, now)) : Reaches step state now next := by
  simpa using Reaches.head taken (.refl next)

theorem trans (first : Reaches step state now next) (second : Reaches step next later final) :
    Reaches step state (now ++ later) final := by
  induction first with
  | refl => simpa using second
  | head taken _ ih => simpa using Reaches.head taken (ih second)

theorem map {carry : σ → σ}
    (commutes : ∀ state next now, step state = some (next, now) →
      step (carry state) = some (carry next, now))
    (path : Reaches step state reports final) :
    Reaches step (carry state) reports (carry final) := by
  induction path with
  | refl state => exact .refl _
  | head taken _ ih => exact .head (commutes _ _ _ taken) ih

theorem invariant
    (preserved : ∀ state next now, predicate state → step state = some (next, now) →
      predicate next)
    (path : Reaches step state reports final) (initial : predicate state) : predicate final := by
  induction path with
  | refl => exact initial
  | head taken _ ih => exact ih (preserved _ _ _ initial taken)

/-- Two machines that take the same steps wherever the path leads share the path. -/
theorem transfer (agree : ∀ state, predicate state → step' state = step state)
    (visits : Visits step predicate state) (path : Reaches step state reports final) :
    Reaches step' state reports final := by
  induction path with
  | refl => exact .refl _
  | head taken _ ih =>
    refine .head ((agree _ (visits _ _ (.refl _))).trans taken) (ih ?_)
    intro reports next rest
    exact visits _ _ (.head taken rest)

end Reaches

theorem Settles.rest (idle : step state = none) : Settles step state [] state :=
  ⟨.refl state, idle⟩

theorem Settles.prepend (path : Reaches step state now next)
    (rest : Settles step next later final) : Settles step state (now ++ later) final :=
  ⟨path.trans rest.1, rest.2⟩

/-- Where the machine rests and what it reports before is determined. -/
theorem Settles.unique (first : Settles step state reports final)
    (second : Settles step state reports' final') : reports = reports' ∧ final = final' := by
  obtain ⟨path, rest⟩ := first
  induction path generalizing reports' with
  | refl state =>
    obtain ⟨path', _⟩ := second
    cases path' with
    | refl => exact ⟨rfl, rfl⟩
    | head taken _ => simp [rest] at taken
  | head taken _ ih =>
    obtain ⟨path', rest'⟩ := second
    cases path' with
    | refl => simp [rest'] at taken
    | head taken' path' =>
      obtain ⟨rfl, rfl⟩ : _ ∧ _ := by simpa [taken] using taken'
      obtain ⟨rfl, rfl⟩ := ih ⟨path', rest'⟩ rest
      exact ⟨rfl, rfl⟩

/-- Check a predicate on every state of the next steps; the machine has to rest in time. -/
def visitsWithin (step : σ → Option (σ × List ρ)) (predicate : σ → Prop) [DecidablePred predicate] :
    Nat → σ → Bool
  | 0, _ => false
  | fuel + 1, state =>
    decide (predicate state) &&
      match step state with
      | none => true
      | some (next, _) => visitsWithin step predicate fuel next

theorem visits_of_within [DecidablePred predicate] {fuel : Nat}
    (checked : visitsWithin step predicate fuel state) : Visits step predicate state := by
  induction fuel generalizing state with
  | zero => cases checked
  | succ fuel ih =>
    obtain ⟨here, later⟩ := Bool.and_eq_true_iff.mp checked
    intro reports next path
    cases path with
    | refl => exact of_decide_eq_true here
    | head taken rest =>
      rw [taken] at later
      exact ih later _ _ rest

end Foundation
