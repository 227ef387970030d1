import Mathlib.Data.List.Basic

/-! A memory under layers that each replace some of its cells, the last one on top. -/

namespace Foundation

variable {α β γ : Type*}

/-- What the last layer that replaces the cell puts there. -/
def topmost : List (α → Option β) → α → Option β
  | [], _ => none
  | layer :: layers, cell => (topmost layers cell).or (layer cell)

def overlay (base : α → β) (layers : List (α → Option β)) (cell : α) : β :=
  (topmost layers cell).getD (base cell)

variable {base : α → β} {layers : List (α → Option β)} {cell : α} {value : β}

theorem topmost_append (first second : List (α → Option β)) :
    topmost (first ++ second) cell = (topmost second cell).or (topmost first cell) := by
  induction first with
  | nil => exact Option.or_none.symm
  | cons layer rest ih =>
    show (topmost (rest ++ second) cell).or (layer cell) = _
    rw [ih, Option.or_assoc]
    rfl

theorem topmost_eq_none : topmost layers cell = none ↔ ∀ layer ∈ layers, layer cell = none := by
  induction layers with
  | nil => exact ⟨fun _ => nofun, fun _ => rfl⟩
  | cons layer rest ih =>
    show (topmost rest cell).or (layer cell) = none ↔ _
    rw [Option.or_eq_none_iff, ih, List.forall_mem_cons]
    exact and_comm

theorem topmost_source (top : topmost layers cell = some value) :
    ∃ layer ∈ layers, layer cell = some value := by
  induction layers with
  | nil => cases top
  | cons layer rest ih =>
    rcases Option.or_eq_some_iff.mp top with later | ⟨-, here⟩
    · obtain ⟨found, member, same⟩ := ih later
      exact ⟨found, .tail _ member, same⟩
    · exact ⟨layer, .head _, here⟩

theorem topmost_agreed (agree : ∀ layer ∈ layers, layer cell = none ∨ layer cell = some value)
    (replaced : ∃ layer ∈ layers, layer cell = some value) : topmost layers cell = some value := by
  cases top : topmost layers cell with
  | none =>
    obtain ⟨layer, member, found⟩ := replaced
    rw [topmost_eq_none.mp top layer member] at found
    cases found
  | some value' =>
    obtain ⟨layer, member, found⟩ := topmost_source top
    rcases agree layer member with none | same
    · rw [none] at found
      cases found
    · exact found.symm.trans same

/-- Groups of layers, of which one knows what is on top. -/
theorem topmost_flatMap {groups : List γ} {group : γ → List (α → Option β)}
    {single : γ → α → Option β}
    (known : ∀ part ∈ groups, topmost (group part) cell = single part cell) :
    topmost (groups.flatMap group) cell = topmost (groups.map single) cell := by
  induction groups with
  | nil => rfl
  | cons part rest ih =>
    rw [List.flatMap_cons, topmost_append, known part (.head _),
      ih fun later member => known later (.tail _ member)]
    rfl

/-- What is found whatever is below is on top. -/
theorem eq_some_of_getD [Nontrivial β] {top : Option β} (always : ∀ below, top.getD below = value) :
    top = some value := by
  cases top with
  | none =>
    obtain ⟨other, different⟩ := exists_ne value
    exact absurd (always other) different
  | some value' => exact congrArg some (always value)

theorem eq_none_of_getD [Nontrivial β] {top : Option β} (always : ∀ below, top.getD below = below) :
    top = none := by
  cases top with
  | none => rfl
  | some value =>
    obtain ⟨other, different⟩ := exists_ne value
    exact absurd (always other).symm different

end Foundation
