import Mathlib.Order.Lattice
import Mathlib.Data.List.Basic

/-! Search trees with a comparison that may fail, and that a lookup finds the entry whose key has the rank of
the one that is looked up. -/

namespace Foundation

variable {κ ν ρ ε : Type*}

def Answers (answer : Except ε Bool) (truth : Prop) : Prop := ∃ b, answer = .ok b ∧ (b = true ↔ truth)

theorem answers_ok {b : Bool} {truth : Prop} : Answers (.ok b : Except ε Bool) truth ↔ (b = true ↔ truth) := by
  constructor
  · rintro ⟨_, ⟨⟩, same⟩
    exact same
  · exact fun same => ⟨b, rfl, same⟩

theorem not_answers_error {failure : ε} {truth : Prop} : ¬Answers (.error failure) truth := by
  rintro ⟨_, ⟨⟩, -⟩

section Truth

variable {answer : Except ε Bool} {truth : Prop} (answers : Answers answer truth)

include answers

theorem Answers.eq_true_iff : answer = .ok true ↔ truth := by
  obtain ⟨b, rfl, same⟩ := answers
  exact ⟨fun yes => same.mp (Except.ok.inj yes), fun yes => congrArg _ (same.mpr yes)⟩

theorem Answers.eq_false_iff : answer = .ok false ↔ ¬truth := by
  obtain ⟨b, rfl, same⟩ := answers
  rw [← same, Bool.not_eq_true]
  exact ⟨Except.ok.inj, congrArg _⟩

end Truth

/-- A binary tree with entries. -/
inductive SearchTree (κ ν : Type*) where
  | leaf
  | node (left : SearchTree κ ν) (key : κ) (value : ν) (right : SearchTree κ ν)

namespace SearchTree

/-- The entries, in their order. -/
def entries : SearchTree κ ν → List (κ × ν)
  | leaf => []
  | node left key value right => left.entries ++ (key, value) :: right.entries

/-- Each key is related to those behind it. -/
def Ordered (before : κ → κ → Prop) (tree : SearchTree κ ν) : Prop :=
  tree.entries.Pairwise fun first second => before first.1 second.1

/-- The first entry whose key is not less, or this one. -/
def lowerBound (less : κ → κ → Except ε Bool) (key : κ) :
    SearchTree κ ν → Option (κ × ν) → Except ε (Option (κ × ν))
  | leaf, last => .ok last
  | node left key' value right, last =>
    match less key' key with
    | .error failure => .error failure
    | .ok true => right.lowerBound less key last
    | .ok false => left.lowerBound less key (some (key', value))

/-- The entry with a key that is neither less nor greater. -/
def find (less : κ → κ → Except ε Bool) (key : κ) (tree : SearchTree κ ν) : Except ε (Option (κ × ν)) :=
  match tree.lowerBound less key none with
  | .error failure => .error failure
  | .ok none => .ok none
  | .ok (some entry) =>
    match less key entry.1 with
    | .error failure => .error failure
    | .ok true => .ok none
    | .ok false => .ok (some entry)

section Lookup

variable [LinearOrder ρ] {rank : κ → ρ} {less : κ → κ → Except ε Bool} {key : κ} {tree : SearchTree κ ν}

theorem Ordered.node {before : κ → κ → Prop} {left right : SearchTree κ ν} {value : ν}
    (ordered : (node left key value right).Ordered before) :
    left.Ordered before ∧ right.Ordered before ∧ ∀ entry ∈ left.entries, before entry.1 key := by
  obtain ⟨first, second, across⟩ := List.pairwise_append.mp ordered
  exact ⟨first, (List.pairwise_cons.mp second).2, fun entry member => across entry member _ (List.mem_cons_self ..)⟩

theorem lowerBound_eq (ordered : tree.Ordered fun first second => rank first < rank second)
    (answers : ∀ entry ∈ tree.entries, Answers (less entry.1 key) (rank entry.1 < rank key))
    (last : Option (κ × ν)) :
    tree.lowerBound less key last = .ok ((tree.entries.find? fun entry => ¬rank entry.1 < rank key).or last) := by
  induction tree generalizing last with
  | leaf => rfl
  | node left key' value right first second =>
    obtain ⟨ordered, ordered', across⟩ := ordered.node
    have here := answers (key', value) (by simp [entries])
    have first := first ordered fun entry member => answers entry (by simp [entries, member])
    have second := second ordered' fun entry member => answers entry (by simp [entries, member])
    obtain ⟨answer, same, truth⟩ := here
    unfold lowerBound entries
    rw [same, List.find?_append]
    cases answer with
    | true =>
      have smaller := truth.mp rfl
      have below : left.entries.find? (fun entry => ¬rank entry.1 < rank key) = none := by
        refine List.find?_eq_none.mpr fun entry member => ?_
        simpa using lt_trans (across entry member) smaller
      dsimp only
      rw [second, below, Option.none_or, List.find?_cons_of_neg (by simpa using smaller)]
    | false =>
      have larger : ¬rank key' < rank key := fun smaller => Bool.noConfusion (truth.mpr smaller)
      dsimp only
      rw [first, List.find?_cons_of_pos (by simpa using larger), Option.or_assoc, Option.some_or]

theorem find_exactly (ordered : tree.Ordered fun first second => rank first < rank second)
    (answers : ∀ entry ∈ tree.entries, Answers (less entry.1 key) (rank entry.1 < rank key) ∧
      Answers (less key entry.1) (rank key < rank entry.1)) :
    ∃ found, tree.find less key = .ok found ∧
      ∀ entry, found = some entry ↔ entry ∈ tree.entries ∧ rank entry.1 = rank key := by
  unfold find
  rw [lowerBound_eq ordered (fun entry member => (answers entry member).1), Option.or_none]
  cases bound : tree.entries.find? fun entry => ¬rank entry.1 < rank key with
  | none =>
    refine ⟨none, rfl, fun entry => iff_of_false nofun ?_⟩
    rintro ⟨member, same⟩
    have smaller := List.find?_eq_none.mp bound entry member
    simp [same] at smaller
  | some first =>
    obtain ⟨larger, before, after, same, earlier⟩ := List.find?_eq_some_iff_append.mp bound
    have larger : rank key ≤ rank first.1 := by simpa using larger
    have member : first ∈ tree.entries := by simp [same]
    unfold Ordered at ordered
    rw [same, List.pairwise_append, List.pairwise_cons] at ordered
    -- only the first entry that is not below can have the rank
    have only {entry : κ × ν} (member : entry ∈ tree.entries) (rank_eq : rank entry.1 = rank key) : entry = first := by
      rw [same] at member
      obtain inside | inside := List.mem_append.mp member
      · have smaller := earlier entry inside
        simp [rank_eq] at smaller
      · obtain rfl | behind := List.mem_cons.mp inside
        · rfl
        · have less := ordered.2.1.1 entry behind
          exact absurd (rank_eq ▸ less) (not_lt_of_ge larger)
    obtain ⟨answer, given, truth⟩ := (answers first member).2
    dsimp only
    rw [given]
    cases answer with
    | true =>
      refine ⟨none, rfl, fun entry => iff_of_false nofun ?_⟩
      rintro ⟨member', rank_eq⟩
      obtain rfl := only member' rank_eq
      exact absurd (truth.mp rfl) (rank_eq ▸ lt_irrefl _)
    | false =>
      have equal : rank first.1 = rank key := by
        refine le_antisymm (le_of_not_gt fun less => ?_) larger
        exact Bool.noConfusion (truth.mpr less)
      refine ⟨some first, rfl, fun entry => ?_⟩
      constructor
      · rintro ⟨rfl⟩
        exact ⟨member, equal⟩
      · rintro ⟨member', rank_eq⟩
        rw [only member' rank_eq]

end Lookup

end SearchTree

end Foundation
