import InertialSense.DataLog.Mappings

/-! What of an element `FieldData` has checked when it returns a pointer into a packet: the place
where the element starts, in 32 bits, and nothing of where it ends. -/

namespace InertialSense.DataLog

def DataInfo.place (info : DataInfo) (arrayIndex : Nat) (hdr : DataHdr) : Int :=
  info.offset + arrayIndex * info.elementSize - hdr.offset.toNat

/-- How many elements a field has. -/
def DataInfo.count (info : DataInfo) : Nat := max 1 info.arraySize

/-- An element of a field that is completely in the packet, and where. -/
structure ElementAt (info : DataInfo) (arrayIndex : Nat) (hdr : DataHdr) (ptr : Nat) : Prop where
  element : arrayIndex < info.count
  place : (ptr : Int) = info.place arrayIndex hdr
  inside : ptr + info.elementSize ≤ hdr.size.toNat

/-- Every pointer is to an element that is completely in the packet. -/
def FieldInside (dataSize : Nat) (info : DataInfo) (arrayIndex : Nat) (hdr : DataHdr) : Prop :=
  ∀ ptr, fieldData dataSize info arrayIndex hdr = some ptr → ElementAt info arrayIndex hdr ptr

/-- An index that is not compared, or one below the size of the array. -/
def DataInfo.Admits (info : DataInfo) (arrayIndex : Nat) : Prop :=
  info.arraySize = 0 ∨ arrayIndex < info.arraySize

/-- The place of an element, in 32 bits, is below the size that stands for the packet. -/
def StartsInside (dataSize : Nat) (info : DataInfo) (arrayIndex : Nat) (hdr : DataHdr) : Prop :=
  0 ≤ Int.bmod (info.place arrayIndex hdr) (2 ^ 32) ∧
    Int.bmod (info.place arrayIndex hdr) (2 ^ 32) <
      (if hdr.size = 0 then dataSize else hdr.size.toNat : Nat)

section Access

variable (dataSize : Nat) (info : DataInfo) (arrayIndex : Nat) (hdr : DataHdr)

private theorem bmod_self_iff (value : Int) :
    Int.bmod value (2 ^ 32) = value ↔ -2 ^ 31 ≤ value ∧ value < 2 ^ 31 := by
  constructor
  · intro same
    have low : -((2 ^ 32 : Nat) : Int) / 2 ≤ Int.bmod value (2 ^ 32) :=
      Int.le_bmod (by norm_num)
    have high : Int.bmod value (2 ^ 32) < (((2 ^ 32 : Nat) : Int) + 1) / 2 :=
      Int.bmod_lt (by norm_num)
    rw [same] at low high
    norm_num at low high
    exact ⟨low, high⟩
  · rintro ⟨low, high⟩
    exact Int.bmod_eq_of_le (by omega) (by omega)

/-- What is checked before a pointer is returned. -/
theorem fieldData_eq_some_iff {ptr : Nat} :
    fieldData dataSize info arrayIndex hdr = some ptr ↔
      info.Admits arrayIndex ∧ StartsInside dataSize info arrayIndex hdr ∧
        (ptr : Int) = Int.bmod (info.place arrayIndex hdr) (2 ^ 32) := by
  have place : Int.bmod (info.offset + arrayIndex * info.elementSize - hdr.offset.toNat) (2 ^ 32) =
      Int.bmod (info.place arrayIndex hdr) (2 ^ 32) := rfl
  unfold fieldData
  simp only [place]
  by_cases admitted : info.Admits arrayIndex
  · have inRange : ¬(info.arraySize ≠ 0 ∧ info.arraySize ≤ arrayIndex) := by
      unfold DataInfo.Admits at admitted
      omega
    rw [if_neg inRange]
    by_cases starts : StartsInside dataSize info arrayIndex hdr
    · have low := starts.1
      have both := starts
      unfold StartsInside at both
      rw [if_pos both, Option.some_inj]
      constructor
      · rintro rfl
        exact ⟨admitted, starts, Int.toNat_of_nonneg low⟩
      · rintro ⟨-, -, same⟩
        rw [← same, Int.toNat_natCast]
    · have either := starts
      unfold StartsInside at either
      rw [if_neg either]
      exact iff_of_false (by simp) fun ⟨_, inside, _⟩ => starts inside
  · have refused : info.arraySize ≠ 0 ∧ info.arraySize ≤ arrayIndex := by
      unfold DataInfo.Admits at admitted
      omega
    rw [if_pos refused]
    exact iff_of_false (by simp) fun ⟨allowed, _⟩ => admitted allowed

/-- A pointer is to a whole element unless an index is not compared, a place does not fit into 32
bits, or an element that starts in the packet ends behind it. -/
theorem fieldInside_iff :
    FieldInside dataSize info arrayIndex hdr ↔
      ¬info.Admits arrayIndex ∨ ¬StartsInside dataSize info arrayIndex hdr ∨
        (info.arraySize = 0 → arrayIndex = 0) ∧
          (-2 ^ 31 ≤ info.place arrayIndex hdr ∧ info.place arrayIndex hdr < 2 ^ 31) ∧
          info.place arrayIndex hdr + info.elementSize ≤ hdr.size.toNat := by
  constructor
  · intro inside
    by_cases admitted : info.Admits arrayIndex
    · by_cases starts : StartsInside dataSize info arrayIndex hdr
      · obtain ⟨ptr, same⟩ := Int.eq_ofNat_of_zero_le starts.1
        have found := inside ptr
          ((fieldData_eq_some_iff dataSize info arrayIndex hdr).mpr ⟨admitted, starts, same.symm⟩)
        have near := found.place
        have element := found.element
        have ends := found.inside
        unfold DataInfo.count at element
        refine .inr (.inr ⟨fun scalar => by omega, ?_, by omega⟩)
        exact (bmod_self_iff _).mp (by rw [same, ← near])
      · exact .inr (.inl starts)
    · exact .inl admitted
  · intro condition ptr found
    obtain ⟨admitted, starts, same⟩ :=
      (fieldData_eq_some_iff dataSize info arrayIndex hdr).mp found
    obtain refused | outside | ⟨scalar, near, ends⟩ := condition
    · exact absurd admitted refused
    · exact absurd starts outside
    · rw [(bmod_self_iff _).mpr near] at same
      refine ⟨?_, same, by omega⟩
      unfold DataInfo.count
      unfold DataInfo.Admits at admitted
      omega

end Access

/-- Of a field of four bytes, two are behind the end of the packet. -/
theorem fieldData_cut :
    ¬FieldInside 16
      { offset := 4, size := 4, type := .uint32, arraySize := 0, elementSize := 4, flags := 0,
        name := ['t'] }
      0 { id := 4, size := 6, offset := 0 } := by
  intro inside
  have ends := (inside 4 (by decide)).inside
  exact absurd ends (by decide)

/-- An element of a field of a data set is completely in a packet, or no pointer to it is returned,
if the packet does not end in the element. -/
theorem fieldInside_of_set {set : DataSet} {info : DataInfo} (known : info ∈ set.nameToInfo)
    {arrayIndex : Nat} (element : arrayIndex < info.count) {hdr : DataHdr} (some : hdr.size ≠ 0) :
    FieldInside set.size info arrayIndex hdr ↔
      ¬(0 ≤ info.place arrayIndex hdr ∧ info.place arrayIndex hdr < hdr.size.toNat ∧
        hdr.size.toNat < info.place arrayIndex hdr + info.elementSize) := by
  have inside := set.inside info known
  have small := set.small
  have elements := (set.mapped info known).elements
  have start := hdr.offset.toNat_lt
  have admitted : info.Admits arrayIndex := by
    unfold DataInfo.count at element
    unfold DataInfo.Admits
    omega
  have scalar : info.arraySize = 0 → arrayIndex = 0 := by
    unfold DataInfo.count at element
    omega
  have near : arrayIndex * info.elementSize ≤ info.size := by
    obtain single | below := admitted
    · rw [scalar single, Nat.zero_mul]
      exact Nat.zero_le _
    · exact Nat.le_trans (Nat.mul_le_mul_right _ below.le) elements
  have place : info.place arrayIndex hdr =
      ((info.offset + arrayIndex * info.elementSize : Nat) : Int) - hdr.offset.toNat := by
    unfold DataInfo.place
    push_cast
    rfl
  have bounds : -2 ^ 31 ≤ info.place arrayIndex hdr ∧ info.place arrayIndex hdr < 2 ^ 31 := by
    omega
  have starts : StartsInside set.size info arrayIndex hdr ↔
      0 ≤ info.place arrayIndex hdr ∧ info.place arrayIndex hdr < hdr.size.toNat := by
    unfold StartsInside
    rw [(bmod_self_iff _).mpr bounds, if_neg some]
  rw [fieldInside_iff, starts]
  constructor
  · rintro (refused | outside | ⟨-, -, ends⟩) ⟨low, high, cut⟩
    · exact refused admitted
    · exact outside ⟨low, high⟩
    · omega
  · intro whole
    by_cases reached : 0 ≤ info.place arrayIndex hdr ∧ info.place arrayIndex hdr < hdr.size.toNat
    · exact .inr (.inr ⟨scalar, bounds, by omega⟩)
    · exact .inr (.inl reached)

end InertialSense.DataLog
