import Mathlib.Data.List.Basic

/-! Computations that write a journal until they stop for a reason. What is written stays written. -/

namespace Foundation

variable {α β ω ε : Type*}

/-- What has been written in the end, and the reason to stop, if there was one. -/
structure Journal (ω ε : Type*) where
  written : List ω
  stopped : Option ε

namespace Journal

def of : Except ε (List ω) → Journal ω ε
  | .ok written => { written, stopped := none }
  | .error reason => { written := [], stopped := some reason }

/-- The second follows, unless the first has stopped. -/
def andThen (first second : Journal ω ε) : Journal ω ε :=
  match first.stopped with
  | none => { written := first.written ++ second.written, stopped := second.stopped }
  | some _ => first

def forEach (body : α → Journal ω ε) : List α → Journal ω ε
  | [] => { written := [], stopped := none }
  | element :: rest => (body element).andThen (forEach body rest)

theorem andThen_assoc (first second third : Journal ω ε) :
    (first.andThen second).andThen third = first.andThen (second.andThen third) := by
  cases stopped : first.stopped with
  | some reason => simp [andThen, stopped]
  | none =>
    cases later : second.stopped with
    | some reason => simp [andThen, stopped, later]
    | none => simp [andThen, stopped, later]

@[simp] theorem nothing_andThen (second : Journal ω ε) :
    andThen { written := [], stopped := none } second = second := rfl

theorem forEach_append (body : α → Journal ω ε) (first second : List α) :
    forEach body (first ++ second) = (forEach body first).andThen (forEach body second) := by
  induction first with
  | nil => rfl
  | cons element rest ih =>
    show (body element).andThen (forEach body (rest ++ second)) = _
    rw [ih, ← andThen_assoc]
    rfl

/-- A loop in a loop is a loop over all the elements, one after another. -/
theorem forEach_flatMap (body : β → Journal ω ε) (pieces : α → List β) (elements : List α) :
    forEach body (elements.flatMap pieces) = forEach (fun a => forEach body (pieces a)) elements := by
  induction elements with
  | nil => rfl
  | cons element rest ih =>
    rw [List.flatMap_cons, forEach_append, ih]
    rfl

theorem forEach_map (body : β → Journal ω ε) (change : α → β) (elements : List α) :
    forEach body (elements.map change) = forEach (fun a => body (change a)) elements := by
  induction elements with
  | nil => rfl
  | cons element rest ih =>
    rw [List.map_cons]
    exact congrArg (body (change element)).andThen ih

section Checks

variable {check : α → Except ε (List ω)} {elements : List α}

/-- A loop stops at the first element that does not pass its check. -/
theorem forEach_of_stopped_iff {reason : ε} :
    (forEach (fun a => of (check a)) elements).stopped = some reason ↔
      ∃ before element after, elements = before ++ element :: after ∧
        (∀ earlier ∈ before, ∃ written, check earlier = .ok written) ∧
        check element = .error reason := by
  induction elements with
  | nil =>
    refine iff_of_false (by simp [forEach]) ?_
    rintro ⟨before, element, after, same, -⟩
    cases before with
    | nil => cases same
    | cons => cases same
  | cons first rest ih =>
    show ((of (check first)).andThen _).stopped = _ ↔ _
    cases checked : check first with
    | ok written =>
      show (forEach _ rest).stopped = _ ↔ _
      rw [ih]
      constructor
      · rintro ⟨before, element, after, rfl, passed, failed⟩
        refine ⟨first :: before, element, after, rfl, fun earlier member => ?_, failed⟩
        rcases List.mem_cons.mp member with rfl | later
        · exact ⟨written, checked⟩
        · exact passed earlier later
      · rintro ⟨before, element, after, same, passed, failed⟩
        cases before with
        | nil =>
          obtain ⟨rfl, rfl⟩ := List.cons.inj same
          cases checked.symm.trans failed
        | cons head before =>
          obtain ⟨rfl, rfl⟩ := List.cons.inj same
          exact ⟨before, element, after, rfl,
            fun earlier member => passed earlier (List.mem_cons_of_mem _ member), failed⟩
    | error stop =>
      show some stop = some reason ↔ _
      constructor
      · intro same
        obtain rfl := Option.some.inj same
        exact ⟨[], first, rest, rfl, by simp, checked⟩
      · rintro ⟨before, element, after, same, passed, failed⟩
        cases before with
        | nil =>
          obtain ⟨rfl, rfl⟩ := List.cons.inj same
          cases checked.symm.trans failed
          rfl
        | cons head before =>
          obtain ⟨rfl, rfl⟩ := List.cons.inj same
          obtain ⟨written, passed⟩ := passed first (List.mem_cons_self ..)
          cases checked.symm.trans passed

/-- Where every check that is passed writes something, nothing is written exactly if there is
no element or the first one does not pass. -/
theorem forEach_of_written_eq_nil_iff
    (writes : ∀ element written, check element = .ok written → written ≠ []) :
    (forEach (fun a => of (check a)) elements).written = [] ↔
      ∀ first rest, elements = first :: rest → ∃ reason, check first = .error reason := by
  cases elements with
  | nil => simp [forEach]
  | cons first rest =>
    show ((of (check first)).andThen _).written = [] ↔ _
    cases checked : check first with
    | ok written =>
      refine iff_of_false ?_ fun none => ?_
      · intro empty
        exact writes first written checked (List.append_eq_nil_iff.mp empty).1
      · obtain ⟨reason, failed⟩ := none first rest rfl
        cases checked.symm.trans failed
    | error reason =>
      refine iff_of_true rfl fun head tail same => ?_
      obtain ⟨rfl, -⟩ := List.cons.inj same
      exact ⟨reason, checked⟩

end Checks

end Journal

end Foundation
