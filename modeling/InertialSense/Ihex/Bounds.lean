import InertialSense.Ihex.Model

/-! What holds of the sections that `ihex_load_sections` returns, whatever the text is. -/

namespace InertialSense.Ihex

open Foundation

/-- A section with bytes in it, no more than the buffer has. -/
structure Filled (part : ImageSection) : Prop where
  some : part.len ≠ 0
  small : part.len.toNat ≤ maxIhexSectionLen

/-- It is at the start of 64 KiB, too. -/
structure Regular (part : ImageSection) : Prop extends Filled part where
  whole : part.address.toNat % 65536 = 0

theorem Filled.positive {part : ImageSection} (filled : Filled part) : 0 < part.len.toNat := by
  refine Nat.pos_of_ne_zero fun none => filled.some ?_
  exact UInt32.toNat_inj.mp none

theorem Filled.last {part : ImageSection} (filled : Filled part) :
    (part.len - 1).toNat = part.len.toNat - 1 := by
  have positive := filled.positive
  have bound := part.len.toNat_lt
  rw [UInt32.toNat_sub]
  show (2 ^ 32 - 1 + part.len.toNat) % 2 ^ 32 = _
  omega

variable {malloc : Nat → Bool} {leftover : Leftover}

private theorem copyBytes_address {l after : Loading} {addr : Int} {bytes : List UInt8}
    (copied : l.copyBytes addr bytes = some after) : after.address = l.address := by
  induction bytes generalizing l addr with
  | nil =>
    cases copied
    rfl
  | cons byte rest ih =>
    unfold Loading.copyBytes at copied
    split at copied
    · cases copied
    · exact (ih copied).trans rfl

private theorem address_whole (high low : UInt8) :
    (low.toUInt32 <<< 16 ||| high.toUInt32 <<< 24).toNat % 65536 = 0 := by
  rw [UInt32.toNat_or, UInt32.toNat_shiftLeft, UInt32.toNat_shiftLeft, Nat.shiftLeft_eq,
    Nat.shiftLeft_eq]
  show (_ % 2 ^ 32 ||| _ % 2 ^ 32) % 2 ^ 16 = 0
  rw [Nat.or_mod_two_pow]
  have first : low.toUInt32.toNat * 2 ^ (UInt32.toNat 16 % 32) % 2 ^ 32 % 2 ^ 16 = 0 := by
    show low.toUInt32.toNat * 2 ^ 16 % 2 ^ 32 % 2 ^ 16 = 0
    omega
  have second : high.toUInt32.toNat * 2 ^ (UInt32.toNat 24 % 32) % 2 ^ 32 % 2 ^ 16 = 0 := by
    show high.toUInt32.toNat * 2 ^ 24 % 2 ^ 32 % 2 ^ 16 = 0
    omega
  rw [first, second]
  rfl

private theorem loadLines_whole {l after : Loading} {file file' : HexFile} {eof : Bool}
    (ended : loadLines leftover l file = .ended after eof file')
    (whole : l.address.toNat % 65536 = 0) : after.address.toNat % 65536 = 0 := by
  fun_induction loadLines leftover l file with
  | case1 l file atEnd =>
    cases ended
    exact whole
  | case2 | case3 => cases ended
  | case4 l file atEnd read scanned parsed l' status l'' copied ih =>
    exact ih ended ((congrArg (fun address => address.toNat % 65536 = 0)
      (copyBytes_address copied)).mpr whole)
  | case5 | case6 =>
    obtain ⟨rfl, -, -⟩ := LoopEnd.ended.inj ended
    exact whole
  | case7 l file atEnd read scanned parsed l' _ _ _ _ address ih =>
    exact ih ended (address_whole _ _)
  | case8 l file atEnd read scanned parsed l' _ _ _ ih => exact ih ended whole

theorem ihexLoadSection_regular {file file' : HexFile} {eof : Bool} {result : ImageSection}
    (loaded : ihexLoadSection malloc leftover file = .loaded eof file' result) : Regular result := by
  unfold ihexLoadSection at loaded
  split at loaded
  · split at loaded
    case h_1 => cases loaded
    case h_2 l eof' file'' ended =>
      unfold finishSection at loaded
      dsimp only at loaded
      split at loaded
      case isTrue some =>
        split at loaded
        case isTrue fits =>
          cases loaded
          exact ⟨⟨some.2, by dsimp only; omega⟩, loadLines_whole ended rfl⟩
        case isFalse => cases loaded
      case isFalse => cases loaded
  · cases loaded

theorem loadSections_regular {slots : Nat} {file : HexFile} {sections : List ImageSection}
    (loaded : loadSections malloc leftover slots file = some sections) :
    sections.length ≤ slots ∧ ∀ part ∈ sections, Regular part := by
  induction slots generalizing file sections with
  | zero => cases loaded
  | succ slots ih =>
    unfold loadSections at loaded
    split at loaded
    case h_1 => cases loaded
    case h_2 =>
      cases loaded
      exact ⟨Nat.zero_le _, nofun⟩
    case h_3 eof file' result found =>
      have regular := ihexLoadSection_regular found
      split at loaded
      · cases loaded
        refine ⟨Nat.le_add_left .., fun part member => ?_⟩
        obtain rfl := List.mem_singleton.mp member
        exact regular
      · obtain ⟨rest, later, rfl⟩ := Option.map_eq_some_iff.mp loaded
        obtain ⟨few, all⟩ := ih later
        exact ⟨Nat.succ_le_succ few, List.forall_mem_cons.mpr ⟨regular, all⟩⟩

end InertialSense.Ihex
