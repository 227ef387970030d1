import InertialSense.Bootloader.Downloading
import InertialSense.Ihex.Bounds

/-! Whether `download_image` puts every byte of the sections in its place, in pages that were
erased: what the sections leave in the flash memory, one over the other. -/

namespace InertialSense.Bootloader

open Foundation Ihex

def leaves (part : ImageSection) (cell : UInt32) : Option UInt8 :=
  let offset := (cell - part.address).toNat
  if offset < 2048 * blocks part then some (part.image.getD offset 0xFF) else none

section Layers

variable {part : ImageSection} {cell : UInt32} {m : Nat}

theorem leaves_isSome : (leaves part cell).isSome ↔
    (cell - part.address).toNat < 2048 * blocks part := by
  unfold leaves
  dsimp only
  split
  case isTrue inside => exact iff_of_true rfl inside
  case isFalse outside => exact iff_of_false nofun outside

private theorem blockAddress_offset (small : 2048 * m < 2 ^ 18) (i : Nat) (inside : i < 2048) :
    (cell - blockAddress part m).toNat = i ↔ (cell - part.address).toNat = 2048 * m + i := by
  have bound := cell.toNat_lt
  have bound' := part.address.toNat_lt
  unfold blockAddress
  rw [UInt32.toNat_sub, UInt32.toNat_add, UInt32.toNat_ofNat', UInt32.toNat_sub]
  omega

private theorem blockData_getElem? (i : Nat) : (blockData part m)[i]? =
    if i < 2048 then some (part.image.getD (2048 * m + i) 0xFF) else none := by
  unfold blockData
  dsimp only
  rw [List.getElem?_append, List.getElem?_replicate, List.getElem?_take, List.getElem?_drop,
    List.length_take, List.length_drop, List.getD_eq_getElem?_getD]
  by_cases inside : i < 2048
  · simp only [if_pos inside]
    by_cases written : i < part.image.length - 2048 * m
    · rw [if_pos (by omega), List.getElem?_eq_getElem (by omega)]
      rfl
    · rw [if_neg (by omega), if_pos (by omega), List.getElem?_eq_none (by omega)]
      rfl
  · simp only [if_neg inside]
    rw [if_neg (by omega), if_neg (by omega)]

private theorem write_layer (small : 2048 * m < 2 ^ 18) :
    (Access.write (blockAddress part m) (blockData part m)).layer 2048 cell =
      if (cell - part.address).toNat / 2048 = m then
        some (part.image.getD (cell - part.address).toNat 0xFF)
      else none := by
  show (blockData part m)[(cell - blockAddress part m).toNat]? = _
  rw [blockData_getElem?]
  have offset := @blockAddress_offset part cell m small
  by_cases inside : (cell - blockAddress part m).toNat < 2048
  · have same := (offset _ inside).mp rfl
    rw [if_pos inside, if_pos (by omega), same]
  · rw [if_neg inside, if_neg]
    intro here
    have same := (offset ((cell - part.address).toNat % 2048) (by omega)).mpr (by omega)
    omega

theorem writes_topmost (small : part.len.toNat ≤ maxIhexSectionLen) :
    topmost ((writes part).map (Access.layer 2048)) cell = leaves part cell := by
  have layer (m : Nat) (inside : m < blocks part) := @write_layer part cell m
    (Nat.lt_trans (blocks_few small inside) (by decide))
  unfold leaves
  dsimp only
  split
  case isTrue inside =>
    apply topmost_agreed
    · intro layer' member
      obtain ⟨access, write, rfl⟩ := List.mem_map.mp member
      obtain ⟨m, number, rfl⟩ := List.mem_map.mp write
      rw [layer m (List.mem_range.mp number)]
      split
      · exact .inr rfl
      · exact .inl rfl
    · have number : (cell - part.address).toNat / 2048 < blocks part := by omega
      refine ⟨_, List.mem_map_of_mem (List.mem_map_of_mem (List.mem_range.mpr number)), ?_⟩
      rw [layer _ number, if_pos rfl]
  case isFalse outside =>
    apply topmost_eq_none.mpr
    intro layer' member
    obtain ⟨access, write, rfl⟩ := List.mem_map.mp member
    obtain ⟨m, number, rfl⟩ := List.mem_map.mp write
    have inside := List.mem_range.mp number
    rw [layer m inside, if_neg (by omega)]

theorem erases_page (small : part.len.toNat ≤ maxIhexSectionLen)
    (aligned : part.address &&& stm32PageErrorMask = 0) :
    (∃ access ∈ erases part, access.layer 2048 cell ≠ none) ↔ (leaves part cell).isSome := by
  have even : part.address.toNat % 2048 = 0 := by
    have same := congrArg UInt32.toNat aligned
    rw [UInt32.toNat_and] at same
    exact (Nat.and_two_pow_sub_one_eq_mod part.address.toNat 11).symm.trans same
  have bound := cell.toNat_lt
  have bound' := part.address.toNat_lt
  have offset : (cell - part.address).toNat =
      (2 ^ 32 - part.address.toNat + cell.toNat) % 2 ^ 32 := UInt32.toNat_sub ..
  have place (m : Nat) (inside : m < blocks part) :
      (blockAddress part m).toNat = (part.address.toNat + 2048 * m) % 2 ^ 32 := by
    have few := blocks_few small inside
    unfold blockAddress
    rw [UInt32.toNat_add, UInt32.toNat_ofNat']
    omega
  have erased : erases part = (List.range (blocks part)).map fun m => .erase (blockAddress part m) :=
    if_neg (not_not_intro aligned)
  rw [leaves_isSome, erased, offset]
  constructor
  · rintro ⟨access, member, replaced⟩
    obtain ⟨m, number, rfl⟩ := List.mem_map.mp member
    have inside := List.mem_range.mp number
    have few := blocks_few small inside
    have page : pageOf 2048 cell = pageOf 2048 (blockAddress part m) :=
      not_not.mp fun different => replaced (if_neg different)
    unfold pageOf at page
    rw [place m inside] at page
    omega
  · intro inside
    have number : (2 ^ 32 - part.address.toNat + cell.toNat) % 2 ^ 32 / 2048 < blocks part := by
      omega
    refine ⟨_, List.mem_map_of_mem (List.mem_range.mpr number), ?_⟩
    have page : pageOf 2048 cell = pageOf 2048
        (blockAddress part ((2 ^ 32 - part.address.toNat + cell.toNat) % 2 ^ 32 / 2048)) := by
      unfold pageOf
      rw [place _ number]
      omega
    intro none
    rw [Access.layer, if_pos page] at none
    cases none

end Layers

/-! ### The whole image -/

namespace Dfu

section Image

variable {image : List ImageSection} {cell : UInt32}

def left? (image : List ImageSection) (cell : UInt32) : Option UInt8 :=
  topmost (image.map leaves) cell

theorem left?_isSome : (left? image cell).isSome ↔ ∃ part ∈ image, (leaves part cell).isSome := by
  constructor
  · intro found
    obtain ⟨value, top⟩ := Option.isSome_iff_exists.mp found
    obtain ⟨layer, member, replaced⟩ := topmost_source top
    obtain ⟨part, known, rfl⟩ := List.mem_map.mp member
    exact ⟨part, known, Option.isSome_iff_exists.mpr ⟨value, replaced⟩⟩
  · rintro ⟨part, known, reached⟩
    by_contra nothing
    have none := topmost_eq_none.mp (Option.not_isSome_iff_eq_none.mp nothing) _
      (List.mem_map_of_mem known)
    rw [none] at reached
    cases reached

/-- What is on top after all planned accesses: they erase nothing that is not written later. -/
theorem planned_topmost (small : ∀ part ∈ image, part.len.toNat ≤ maxIhexSectionLen) :
    topmost ((planned image).map (Access.layer 2048)) cell = left? image cell := by
  have writing : topmost ((image.flatMap writes).map (Access.layer 2048)) cell = left? image cell := by
    rw [List.map_flatMap]
    exact topmost_flatMap fun part member => writes_topmost (small part member)
  unfold planned
  rw [List.map_append, topmost_append, writing]
  cases written : left? image cell with
  | some value => rfl
  | none =>
    refine Option.eq_none_iff_forall_ne_some.mpr fun value erased => ?_
    obtain ⟨layer, member, replaced⟩ := topmost_source erased
    obtain ⟨access, inside, rfl⟩ := List.mem_map.mp member
    obtain ⟨part, known, erase⟩ := List.mem_flatMap.mp inside
    have aligned : part.address &&& stm32PageErrorMask = 0 := by
      by_contra unaligned
      rw [erases, if_pos unaligned] at erase
      cases erase
    have reached := (erases_page (small part known) aligned).mp
      ⟨access, erase, by rw [replaced]; nofun⟩
    have found := left?_isSome.mpr ⟨part, known, reached⟩
    rw [written] at found
    cases found

end Image

end Dfu

def Access.WritesTo (page : Nat) : Access → Prop
  | .erase _ => False
  | .write address data => ∃ cell, (cell - address).toNat < data.length ∧ pageOf 2048 cell = page

def ErasedFirst (history : List Access) (page : Nat) : Prop :=
  ∃ before address after, history = before ++ .erase address :: after ∧
    pageOf 2048 address = page ∧ ∀ access ∈ before, ¬access.WritesTo page

namespace Dfu

/-- `download_image` ends, and if it returns `IS_OP_OK`, every byte of every section is in its
place, in a page that was erased before it was written. -/
def DownloadsRight (sections : List ImageSection) : Prop :=
  ∀ d : Device, d.pageSize = 2048 → d.transferSize = 2048 → d.history = [] →
    (∃ answer, DownloadImage sections d answer) ∧
    ∀ answer, DownloadImage sections d answer → answer.1 = .ok →
      ∀ part ∈ placed sections, ∀ k (inside : k < part.image.length),
        answer.2.flash (part.address + UInt32.ofNat k) = part.image[k] ∧
          ErasedFirst answer.2.history (pageOf 2048 (part.address + UInt32.ofNat k))

/-- No section is empty; whichever section comes last to the place of a byte has this byte there;
and some section that comes there begins with a page. -/
structure Placeable (image : List ImageSection) : Prop where
  some : ∀ part ∈ image, part.len ≠ 0
  kept : ∀ part ∈ image, ∀ k (inside : k < part.image.length),
    left? image (part.address + UInt32.ofNat k) = .some part.image[k]
  erased : ∀ part ∈ image, ∀ k < part.image.length, ∃ other ∈ image,
    other.address &&& stm32PageErrorMask = 0 ∧
      (leaves other (part.address + UInt32.ofNat k)).isSome

section Placement

variable {sections image : List ImageSection} {d : Device} {answer : OperationResult × Device}

/-- A place that a section comes to which begins with a page. -/
private theorem erased_planned (small : ∀ part ∈ image, part.len.toNat ≤ maxIhexSectionLen)
    (cell : UInt32) : ErasedFirst (planned image) (pageOf 2048 cell) ↔
      ∃ other ∈ image, other.address &&& stm32PageErrorMask = 0 ∧ (leaves other cell).isSome := by
  constructor
  · rintro ⟨before, address, after, order, page, -⟩
    have member : Access.erase address ∈ planned image := by
      rw [order]
      exact List.mem_append_right _ (.head _)
    rcases List.mem_append.mp member with erase | write
    · obtain ⟨other, known, inside⟩ := List.mem_flatMap.mp erase
      have aligned : other.address &&& stm32PageErrorMask = 0 := by
        by_contra unaligned
        rw [erases, if_pos unaligned] at inside
        cases inside
      refine ⟨other, known, aligned, (erases_page (small other known) aligned).mp
        ⟨_, inside, fun none => ?_⟩⟩
      rw [Access.layer, if_pos page.symm] at none
      cases none
    · obtain ⟨other, -, inside⟩ := List.mem_flatMap.mp write
      obtain ⟨m, -, same⟩ := List.mem_map.mp inside
      cases same
  · rintro ⟨other, known, aligned, reached⟩
    obtain ⟨access, erase, replaced⟩ := (erases_page (small other known) aligned).mpr reached
    have member : access ∈ image.flatMap erases := List.mem_flatMap.mpr ⟨other, known, erase⟩
    rw [erases, if_neg (not_not_intro aligned)] at erase
    obtain ⟨m, -, rfl⟩ := List.mem_map.mp erase
    obtain ⟨before, after, order⟩ := List.append_of_mem member
    refine ⟨before, blockAddress other m, after ++ image.flatMap writes, ?_, ?_, ?_⟩
    · unfold planned
      rw [order, List.append_assoc]
      rfl
    · by_contra different
      exact replaced (if_neg (Ne.symm different))
    · intro access early writes
      have erase' : access ∈ image.flatMap erases := by
        rw [order]
        exact List.mem_append_left _ early
      obtain ⟨part, -, inside⟩ := List.mem_flatMap.mp erase'
      unfold erases at inside
      split at inside
      · cases inside
      · obtain ⟨n, -, rfl⟩ := List.mem_map.mp inside
        exact writes

private theorem flash_planned (small : ∀ part ∈ image, part.len.toNat ≤ maxIhexSectionLen)
    (size : d.pageSize = 2048) (history : d.history = planned image) (cell : UInt32) :
    d.flash cell = (left? image cell).getD (d.initial cell) := by
  unfold Device.flash overlay
  rw [size, history, planned_topmost small]

private theorem placed_from {part : ImageSection} (member : part ∈ placed sections) :
    ∃ before ∈ sections, part.len = before.len ∧
      (part.address = before.address ∨ part.address = before.address + 0x08000000) := by
  unfold placed at member
  split at member
  · cases member
  · split at member
    · obtain ⟨before, known, rfl⟩ := List.mem_map.mp member
      exact ⟨before, known, rfl, .inr rfl⟩
    · exact ⟨part, member, rfl, .inl rfl⟩

private theorem placed_small (small : ∀ part ∈ sections, part.len.toNat ≤ maxIhexSectionLen) :
    ∀ part ∈ placed sections, part.len.toNat ≤ maxIhexSectionLen := by
  intro part member
  obtain ⟨before, known, len, -⟩ := placed_from member
  rw [len]
  exact small before known

/-- A device that does everything at once. -/
def promptDevice (initial : UInt32 → UInt8) : Device :=
  .prompt ⟨2048, 2048, by decide⟩ .idle initial

private theorem placeable_of_right
    (small : ∀ part ∈ placed sections, part.len.toNat ≤ maxIhexSectionLen)
    (right : DownloadsRight sections) : Placeable (placed sections) := by
  have ready (initial : UInt32 → UInt8) : (promptDevice initial).Ready := .inl rfl
  have nonempty : ∀ part ∈ placed sections, part.len ≠ 0 := by
    intro part member none
    obtain ⟨answer, returns⟩ := (right (promptDevice fun _ => 0) rfl rfl rfl).1
    exact download_endless small ⟨part, member, none⟩ (ready _) (fun _ => rfl) returns
  have filled : ∀ part ∈ placed sections, Filled part :=
    fun part member => ⟨nonempty part member, small part member⟩
  have succeeds (initial : UInt32 → UInt8) (some : sections ≠ []) :
      ∃ after : Device, DownloadImage sections (promptDevice initial) (.ok, after) ∧
        after.initial = initial ∧ after.pageSize = 2048 ∧ after.history = planned (placed sections) := by
    obtain ⟨⟨result, after⟩, returns⟩ := (right (promptDevice initial) rfl rfl rfl).1
    obtain ⟨done, always⟩ := download_done filled rfl rfl returns
    obtain rfl : result = .ok := always (fun _ => rfl) (ready initial) some
    obtain ⟨kept, geometry, history⟩ := done rfl
    exact ⟨after, returns, kept, congrArg Geometry.pageSize geometry, history⟩
  have some {part : ImageSection} (member : part ∈ placed sections) : sections ≠ [] := by
    rintro rfl
    cases member
  refine ⟨nonempty, fun part member k inside => ?_, fun part member k inside => ?_⟩
  · have bytes : Nontrivial UInt8 := ⟨0, 1, by decide⟩
    apply eq_some_of_getD
    intro below
    obtain ⟨after, returns, kept, size, history⟩ := succeeds (fun _ => below) (some member)
    have found :=
      ((right (promptDevice fun _ => below) rfl rfl rfl).2 _ returns rfl part member k inside).1
    rw [flash_planned small size history, kept] at found
    exact found
  · obtain ⟨after, returns, -, -, history⟩ := succeeds (fun _ => 0) (some member)
    have first := ((right (promptDevice fun _ => 0) rfl rfl rfl).2 _ returns rfl part member k inside).2
    rw [history] at first
    exact (erased_planned small _).mp first

private theorem right_of_placeable
    (small : ∀ part ∈ placed sections, part.len.toNat ≤ maxIhexSectionLen)
    (placeable : Placeable (placed sections)) : DownloadsRight sections := by
  have filled : ∀ part ∈ placed sections, Filled part :=
    fun part member => ⟨placeable.some part member, small part member⟩
  intro d page size fresh
  refine ⟨download_ends filled size fresh, fun answer returns success part member k inside => ?_⟩
  obtain ⟨kept, geometry, history⟩ := (download_done filled size fresh returns).1 success
  have page' : answer.2.pageSize = 2048 := (congrArg Geometry.pageSize geometry).trans page
  constructor
  · rw [flash_planned small page' history, placeable.kept part member k inside]
    rfl
  · rw [history]
    exact (erased_planned small _).mpr (placeable.erased part member k inside)

/-- Exactly the sections for which `download_image` does what it should. -/
theorem downloads_right_iff (small : ∀ part ∈ sections, part.len.toNat ≤ maxIhexSectionLen) :
    DownloadsRight sections ↔ Placeable (placed sections) :=
  ⟨placeable_of_right (placed_small small), right_of_placeable (placed_small small)⟩

/-- Three bytes for the start of the flash memory. -/
def startSection : ImageSection where
  address := 0
  len := 3
  image := [1, 2, 3]
  sized := rfl

/-- Two bytes for the page behind it. -/
def nextSection : ImageSection where
  address := 0x800
  len := 2
  image := [4, 5]
  sized := rfl

theorem downloads_right_pages : DownloadsRight [startSection, nextSection] := by
  refine (downloads_right_iff ?_).mpr ⟨?_, ?_, ?_⟩
  · intro part member
    rcases List.mem_cons.mp member with rfl | later
    · decide
    · obtain rfl := List.mem_singleton.mp later
      decide
  · intro part member
    rcases List.mem_cons.mp member with rfl | later
    · decide
    · obtain rfl := List.mem_singleton.mp later
      decide
  · have first : ∀ k : Fin 3, left? (placed [startSection, nextSection])
        (0x08000000 + UInt32.ofNat k) = some ([1, 2, 3].get k) := by decide
    have second : ∀ k : Fin 2, left? (placed [startSection, nextSection])
        (0x08000800 + UInt32.ofNat k) = some ([4, 5].get k) := by decide
    intro part member k inside
    rcases List.mem_cons.mp member with rfl | later
    · exact first ⟨k, inside⟩
    · obtain rfl := List.mem_singleton.mp later
      exact second ⟨k, inside⟩
  · have first : ∀ k : Fin 3, (leaves { startSection with address := 0x08000000 }
        (0x08000000 + UInt32.ofNat k)).isSome := by decide
    have second : ∀ k : Fin 2, (leaves { nextSection with address := 0x08000800 }
        (0x08000800 + UInt32.ofNat k)).isSome := by decide
    intro part member k inside
    rcases List.mem_cons.mp member with rfl | later
    · exact ⟨_, .head _, rfl, first ⟨k, inside⟩⟩
    · obtain rfl := List.mem_singleton.mp later
      exact ⟨_, .tail _ (.head _), rfl, second ⟨k, inside⟩⟩

/-- So many zeros at the start of the flash memory. -/
def zeroSection (len : UInt32) : ImageSection where
  address := 0x08000000
  len
  image := List.replicate len.toNat 0
  sized := List.length_replicate ..

/-- The last of 2049 bytes is not written, nor is its page erased. -/
theorem last_byte_lost : ¬DownloadsRight [zeroSection 2049] := by
  intro right
  have small : ∀ part ∈ [zeroSection 2049], part.len.toNat ≤ maxIhexSectionLen := by
    intro part member
    obtain rfl := List.mem_singleton.mp member
    show 2049 ≤ 0x20000
    decide
  have inside : 2048 < (zeroSection 2049).image.length := by
    rw [(zeroSection 2049).sized]
    show 2048 < 2049
    decide
  have kept := (placeable_of_right (placed_small small) right).kept _ (.head _) 2048 inside
  obtain ⟨part, member, reached⟩ := left?_isSome.mp (Option.isSome_of_eq_some kept)
  obtain rfl := List.mem_singleton.mp member
  have offset := leaves_isSome.mp reached
  revert offset
  decide

private theorem placed_aligned (regular : ∀ part ∈ sections, Regular part) :
    ∀ part ∈ placed sections, part.address &&& stm32PageErrorMask = 0 := by
  intro part member
  obtain ⟨before, known, -, address⟩ := placed_from member
  have whole := (regular before known).whole
  apply UInt32.toNat_inj.mp
  rw [UInt32.toNat_and]
  refine (Nat.and_two_pow_sub_one_eq_mod part.address.toNat 11).trans ?_
  show part.address.toNat % 2048 = 0
  rcases address with same | shifted
  · rw [same]
    omega
  · rw [shifted, UInt32.toNat_add]
    show (before.address.toNat + 0x08000000) % 2 ^ 32 % 2048 = 0
    omega

/-- The loader itself returns no empty section, and all of them begin with a page. -/
theorem loaded_right_iff {malloc : Nat → Bool} {leftover : Leftover} {text : List Char}
    (loaded : ihexLoadSections malloc leftover text maxNumIhexSections = some sections) :
    DownloadsRight sections ↔ ∀ part ∈ placed sections, ∀ k (inside : k < part.image.length),
      left? (placed sections) (part.address + UInt32.ofNat k) = some part.image[k] := by
  obtain ⟨-, regular⟩ := loadSections_regular loaded
  have small := placed_small fun part member => (regular part member).small
  constructor
  · exact fun right => (placeable_of_right small right).kept
  · intro kept
    refine right_of_placeable small ⟨fun part member => ?_, kept, fun part member k inside => ?_⟩
    · obtain ⟨before, known, len, -⟩ := placed_from member
      rw [len]
      exact (regular before known).some
    · obtain ⟨other, known, reached⟩ :=
        left?_isSome.mp (Option.isSome_of_eq_some (kept part member k inside))
      exact ⟨other, known, placed_aligned regular other known, reached⟩

end Placement

end Dfu

end InertialSense.Bootloader
