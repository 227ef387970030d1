import Mathlib.Algebra.Group.Nat.Defs
import Mathlib.Data.List.Basic

/-! Deterministic machines that answer every input, and the two rules by which
whole runs are verified: an invariant carried by each step, and a simulation
between two machines that read the same inputs. -/

namespace Foundation

variable {σ τ ι ο η : Type*}

/-- Feed the inputs one after another and collect the answers in order. -/
def run (step : σ → ι → σ × ο) : σ → List ι → σ × List ο
  | state, [] => (state, [])
  | state, input :: rest =>
    ((run step (step state input).1 rest).1,
      (step state input).2 :: (run step (step state input).1 rest).2)

/-- Every step of the run meets the guard in the state it is taken from. -/
def Along (step : σ → ι → σ × ο) (guard : σ → ι → Prop) : σ → List ι → Prop
  | _, [] => True
  | state, input :: rest => guard state input ∧ Along step guard (step state input).1 rest

/-- What an observer has noted at the end of a run. -/
def noted (step : σ → ι → σ × ο) (note : η → σ → ι → ο → η) : η → σ → List ι → η
  | history, _, [] => history
  | history, state, input :: rest =>
    noted step note (note history state input (step state input).2) (step state input).1 rest

variable {step : σ → ι → σ × ο} {guard : σ → ι → Prop}

@[simp] theorem run_nil (state : σ) : run step state [] = (state, []) := rfl

@[simp] theorem run_cons (state : σ) (input : ι) (rest : List ι) :
    run step state (input :: rest) =
      ((run step (step state input).1 rest).1,
        (step state input).2 :: (run step (step state input).1 rest).2) := rfl

@[simp] theorem run_length (state : σ) (inputs : List ι) :
    (run step state inputs).2.length = inputs.length := by
  induction inputs generalizing state with
  | nil => rfl
  | cons input rest ih => simp [ih]

theorem run_fst (state : σ) (inputs : List ι) :
    (run step state inputs).1 = inputs.foldl (fun state input => (step state input).1) state := by
  induction inputs generalizing state with
  | nil => rfl
  | cons input rest ih => exact ih _

theorem run_append (state : σ) (first second : List ι) :
    run step state (first ++ second) =
      ((run step (run step state first).1 second).1,
        (run step state first).2 ++ (run step (run step state first).1 second).2) := by
  induction first generalizing state with
  | nil => rfl
  | cons input rest ih => simp [ih]

/-- What is noted of two runs, one after the other. -/
theorem noted_append {note : η → σ → ι → ο → η} (history : η) (state : σ)
    (first second : List ι) :
    noted step note history state (first ++ second) =
      noted step note (noted step note history state first) (run step state first).1 second := by
  induction first generalizing history state with
  | nil => rfl
  | cons input rest ih => exact ih ..

theorem Along.append {state : σ} {first second : List ι} :
    Along step guard state (first ++ second) ↔
      Along step guard state first ∧ Along step guard (run step state first).1 second := by
  induction first generalizing state with
  | nil => simp [Along]
  | cons input rest ih => simp [Along, ih, and_assoc]

theorem Along.mono {guard' : σ → ι → Prop}
    (weaker : ∀ state input, guard state input → guard' state input) {state : σ} {inputs : List ι}
    (guarded : Along step guard state inputs) : Along step guard' state inputs := by
  induction inputs generalizing state with
  | nil => trivial
  | cons input rest ih => exact ⟨weaker _ _ guarded.1, ih guarded.2⟩

theorem Along.and {guard' : σ → ι → Prop} {state : σ} {inputs : List ι}
    (first : Along step guard state inputs) (second : Along step guard' state inputs) :
    Along step (fun state input => guard state input ∧ guard' state input) state inputs := by
  induction inputs generalizing state with
  | nil => trivial
  | cons input rest ih => exact ⟨⟨first.1, second.1⟩, ih first.2 second.2⟩

/-- Guards that agree on the states of an invariant, which the guarded steps keep. -/
theorem Along.congr {guard' : σ → ι → Prop} {invariant : σ → Prop}
    (same : ∀ state input, invariant state → (guard state input ↔ guard' state input))
    (kept : ∀ state input, invariant state → guard state input → invariant (step state input).1)
    {state : σ} {inputs : List ι} (initial : invariant state) :
    Along step guard state inputs ↔ Along step guard' state inputs := by
  induction inputs generalizing state with
  | nil => exact Iff.rfl
  | cons input rest ih =>
    constructor
    · rintro ⟨now, later⟩
      exact ⟨(same state input initial).mp now, (ih (kept state input initial now)).mp later⟩
    · rintro ⟨now, later⟩
      have now := (same state input initial).mpr now
      exact ⟨now, (ih (kept state input initial now)).mpr later⟩

theorem Along.of_forall {allowed : ι → Prop} {state : σ} {inputs : List ι}
    (all : ∀ input ∈ inputs, allowed input) :
    Along step (fun _ input => allowed input) state inputs := by
  induction inputs generalizing state with
  | nil => trivial
  | cons input rest ih =>
    refine ⟨all input (List.mem_cons_self ..), ih ?_⟩
    intro later member
    exact all later (List.mem_cons_of_mem _ member)

theorem Along.iff_forall {state : σ} {inputs : List ι} :
    Along step guard state inputs ↔
      ∀ before input after, inputs = before ++ input :: after →
        guard (run step state before).1 input := by
  induction inputs generalizing state with
  | nil =>
    refine iff_of_true trivial fun before input after same => ?_
    cases before <;> cases same
  | cons first rest ih =>
    constructor
    · rintro ⟨now, later⟩ before input after same
      cases before with
      | nil =>
        obtain ⟨rfl, -⟩ := List.cons.inj same
        exact now
      | cons other before =>
        obtain ⟨rfl, rest⟩ := List.cons.inj same
        exact ih.mp later before input after rest
    · intro all
      refine ⟨all [] first rest rfl, ih.mpr fun before input after same => ?_⟩
      exact all (first :: before) input after (congrArg (first :: ·) same)

instance Along.decidable [∀ state input, Decidable (guard state input)] :
    (state : σ) → (inputs : List ι) → Decidable (Along step guard state inputs)
  | _, [] => isTrue trivial
  | state, input :: rest =>
    haveI := Along.decidable (step state input).1 rest
    inferInstanceAs (Decidable (_ ∧ _))

/-- What the first state satisfies and each guarded step keeps, the last state satisfies. -/
theorem run_invariant {invariant : σ → Prop}
    (preserved : ∀ state input, invariant state → guard state input →
      invariant (step state input).1)
    {state : σ} {inputs : List ι} (initial : invariant state)
    (guarded : Along step guard state inputs) : invariant (run step state inputs).1 := by
  induction inputs generalizing state with
  | nil => exact initial
  | cons input rest ih =>
    obtain ⟨now, later⟩ := guarded
    exact ih (preserved state input initial now) later

/-- What no step restores, and each step keeps exactly under its guard, the last state satisfies
exactly when the first one does and every step meets the guard. -/
theorem run_iff_along {good : σ → Prop}
    (each : ∀ state input, good (step state input).1 ↔ good state ∧ guard state input)
    (state : σ) (inputs : List ι) :
    good (run step state inputs).1 ↔ good state ∧ Along step guard state inputs := by
  induction inputs generalizing state with
  | nil => exact (and_iff_left trivial).symm
  | cons input rest ih =>
    have later := ih (step state input).1
    rw [each, and_assoc] at later
    exact later

/-- The same rule for a relation between the state and what an observer has noted. -/
theorem noted_invariant {note : η → σ → ι → ο → η} {invariant : η → σ → Prop}
    (preserved : ∀ history state input, invariant history state → guard state input →
      invariant (note history state input (step state input).2) (step state input).1)
    {history : η} {state : σ} {inputs : List ι} (initial : invariant history state)
    (guarded : Along step guard state inputs) :
    invariant (noted step note history state inputs) (run step state inputs).1 := by
  induction inputs generalizing history state with
  | nil => exact initial
  | cons input rest ih =>
    obtain ⟨now, later⟩ := guarded
    exact ih (preserved history state input initial now) later

/-- If every step ends the run or lowers a measure, a run with more inputs than the measure
says has ended. -/
theorem run_ends {invariant : σ → Prop} {measure : σ → Nat} {ended : ο → Prop}
    (falls : ∀ state input, invariant state → ended (step state input).2 ∨
      invariant (step state input).1 ∧ measure (step state input).1 < measure state)
    {state : σ} {inputs : List ι} (initial : invariant state)
    (long : measure state < inputs.length) : ∃ answer ∈ (run step state inputs).2, ended answer := by
  induction inputs generalizing state with
  | nil => exact absurd long (Nat.not_lt_zero _)
  | cons input rest ih =>
    obtain done | ⟨kept, less⟩ := falls state input initial
    · exact ⟨_, List.mem_cons_self .., done⟩
    · obtain ⟨answer, member, done⟩ :=
        ih kept (Nat.lt_of_lt_of_le less (Nat.le_of_lt_succ long))
      exact ⟨answer, List.mem_cons_of_mem _ member, done⟩

/-- A run whose guarded steps all lower a measure has at most as many of them as it says. -/
theorem Along.length_le {invariant : σ → Prop} {measure : σ → Nat}
    (falls : ∀ state input, invariant state → guard state input →
      invariant (step state input).1 ∧ measure (step state input).1 < measure state)
    {state : σ} {inputs : List ι} (initial : invariant state)
    (guarded : Along step guard state inputs) : inputs.length ≤ measure state := by
  induction inputs generalizing state with
  | nil => exact Nat.zero_le _
  | cons input rest ih =>
    obtain ⟨now, later⟩ := guarded
    obtain ⟨kept, less⟩ := falls state input initial now
    exact Nat.lt_of_le_of_lt (ih kept later) less

/-- A relation kept by every guarded step, under which both machines give the
same answer, makes all their answers agree and relates the states they end in. -/
theorem run_refines {step' : τ → ι → τ × ο} {related : σ → τ → Prop}
    (simulated : ∀ state state' input, related state state' → guard state input →
      related (step state input).1 (step' state' input).1 ∧
        (step state input).2 = (step' state' input).2)
    {state : σ} {state' : τ} {inputs : List ι} (initial : related state state')
    (guarded : Along step guard state inputs) :
    related (run step state inputs).1 (run step' state' inputs).1 ∧
      (run step state inputs).2 = (run step' state' inputs).2 := by
  induction inputs generalizing state state' with
  | nil => exact ⟨initial, rfl⟩
  | cons input rest ih =>
    obtain ⟨now, later⟩ := guarded
    obtain ⟨next, answer⟩ := simulated state state' input initial now
    obtain ⟨final, answers⟩ := ih next later
    exact ⟨final, by simp [answer, answers]⟩

end Foundation
