import InertialSense.Ihex.Sections
import Mathlib.Data.List.Nodup

/-! When the sections that are loaded from a file are its address map. The address of a section is
its segment's, though its image starts at the lowest address that was written; bytes before the
first record that sets an upper half get that record's; and a file without bytes has a section that
is nearly as long as memory. -/

namespace InertialSense.Ihex

open Foundation

/-- The bytes before the first segment are a segment of their own. -/
def HexContent.front (content : HexContent) : Segment where
  upper := 0
  writes := content.leading

/-- The segments of a file. -/
def HexContent.parts (content : HexContent) : List Segment :=
  if content.leading = [] then content.segments else content.front :: content.segments

/-- All bytes of a file, with their addresses. -/
def HexContent.writes (content : HexContent) : List (Nat × UInt8) :=
  content.parts.flatMap fun part => shifted part.base part.writes

/-- The sections are the address map of the file. -/
structure Denotes (sections : List ImageSection) (content : HexContent) : Prop where
  covered : ∀ address, (lastAt content.writes address).isSome →
    ∃ loaded ∈ sections, ∃ k < loaded.image.length, address = loaded.address.toNat + k
  image : ∀ loaded ∈ sections, ∀ k, (inside : k < loaded.image.length) →
    loaded.image[k] = (lastAt content.writes (loaded.address.toNat + k)).getD 0xFF
  within : ∀ loaded ∈ sections, ∀ k < loaded.image.length, ∃ part ∈ content.parts,
    part.base + part.low ≤ loaded.address.toNat + k ∧
      loaded.address.toNat + k ≤ part.base + part.high

/-- Bytes before the first segment are the first segment's, and there is no gap between them. -/
def HexContent.Joined (content : HexContent) : Prop :=
  ∀ first ∈ content.segments.head?, content.leading ≠ [] →
    first.upper = 0 ∧ first.low ≤ content.front.high + 1 ∧ content.front.low ≤ first.high + 1

/-- A file that is loaded as it should be: every segment has a byte at its start, and none that
another segment replaces. -/
def HexContent.LoadsRight (content : HexContent) (malloc : Nat → Bool) (numSlots : Nat) : Prop :=
  if content.parts = [] then malloc 0xFFFF0001 = false ∧ 0 < numSlots
  else content.Joined ∧ ∀ segment ∈ content.loaded, segment.low = 0 ∧
    ∀ offset ≤ segment.high, segment.at offset =
      (lastAt content.writes (segment.base + offset)).getD 0xFF

/-- No upper half is set twice. -/
structure HexContent.Apart (content : HexContent) : Prop where
  segments : (content.segments.map Segment.upper).Nodup
  front : content.leading ≠ [] → ∀ segment ∈ content.segments.tail, segment.upper ≠ 0

section Parts

variable {content : HexContent}

theorem mem_parts {part : Segment} : part ∈ content.parts ↔
    part ∈ content.segments ∨ content.leading ≠ [] ∧ part = content.front := by
  unfold HexContent.parts
  split
  case isTrue none => simp [none]
  case isFalse some => simp [some, or_comm]

/-- A byte of the file is one of a segment. -/
theorem lastAt_writes_isSome {address : Nat} : (lastAt content.writes address).isSome ↔
    ∃ part ∈ content.parts, ∃ write ∈ part.writes, address = part.base + write.1 := by
  rw [lastAt_isSome_iff]
  constructor
  · rintro ⟨⟨_, value⟩, member, rfl⟩
    obtain ⟨part, known, moved⟩ := List.mem_flatMap.mp member
    obtain ⟨offset, rfl, inside⟩ := mem_shifted.mp moved
    exact ⟨part, known, (offset, value), inside, rfl⟩
  · rintro ⟨part, known, write, inside, rfl⟩
    exact ⟨_, List.mem_flatMap.mpr ⟨part, known, mem_shifted.mpr ⟨_, rfl, inside⟩⟩, rfl⟩

/-- The bytes of a loaded segment come from segments of the file. -/
theorem loaded_writes {segment : Segment} (loaded : segment ∈ content.loaded)
    {write : Nat × UInt8} (member : write ∈ segment.writes) :
    ∃ part ∈ content.parts, write ∈ part.writes ∧
      (part.upper = segment.upper ∨ content.leading ≠ [] ∧ part = content.front ∧
        content.segments.head?.map Segment.upper = some segment.upper) := by
  unfold HexContent.loaded at loaded
  split at loaded
  case h_1 none =>
    obtain rfl := List.mem_singleton.mp loaded
    have some : content.leading ≠ [] := List.ne_nil_of_mem member
    exact ⟨content.front, mem_parts.mpr (.inr ⟨some, rfl⟩), member, .inl rfl⟩
  case h_2 first rest some =>
    obtain rfl | later := List.mem_cons.mp loaded
    · obtain front | inside := List.mem_append.mp member
      · have some' : content.leading ≠ [] := List.ne_nil_of_mem front
        refine ⟨content.front, mem_parts.mpr (.inr ⟨some', rfl⟩), front, .inr ⟨some', rfl, ?_⟩⟩
        rw [some]
        rfl
      · exact ⟨first, mem_parts.mpr (.inl (some ▸ .head _)), inside, .inl rfl⟩
    · exact ⟨segment, mem_parts.mpr (.inl (some ▸ .tail _ later)), member, .inl rfl⟩

theorem loaded_cons {first : Segment} {rest : List Segment}
    (segments : content.segments = first :: rest) :
    content.loaded = { first with writes := content.leading ++ first.writes } :: rest := by
  unfold HexContent.loaded
  rw [segments]

/-- Where nothing is misplaced, a segment's bytes are loaded for its address. -/
theorem loaded_of_part (upper : ∀ first ∈ content.segments.head?, content.leading ≠ [] →
    first.upper = 0) {part : Segment} (known : part ∈ content.parts) :
    ∃ segment ∈ content.loaded, segment.upper = part.upper ∧
      ∀ write ∈ part.writes, write ∈ segment.writes := by
  cases segments : content.segments with
  | nil =>
    refine ⟨content.front, ?_, ?_⟩
    · unfold HexContent.loaded
      rw [segments]
      exact .head _
    · obtain inside | ⟨-, rfl⟩ := mem_parts.mp known
      · rw [segments] at inside
        cases inside
      · exact ⟨rfl, fun _ member => member⟩
  | cons first rest =>
    rw [loaded_cons segments]
    obtain inside | ⟨some, rfl⟩ := mem_parts.mp known
    · rw [segments] at inside
      obtain rfl | later := List.mem_cons.mp inside
      · exact ⟨_, .head _, rfl, fun _ member => List.mem_append_right _ member⟩
      · exact ⟨part, .tail _ later, rfl, fun _ member => member⟩
    · refine ⟨_, .head _, ?_, fun _ member => List.mem_append_left _ member⟩
      exact upper first (by rw [segments]; rfl) some

theorem HexContent.Joined.between (joined : content.Joined) {segment : Segment}
    (loaded : segment ∈ content.loaded) (some : segment.writes ≠ []) {offset : Nat}
    (low : segment.low ≤ offset) (high : offset ≤ segment.high) :
    ∃ part ∈ content.parts, part.upper = segment.upper ∧ part.low ≤ offset ∧
      offset ≤ part.high := by
  cases segments : content.segments with
  | nil =>
    unfold HexContent.loaded at loaded
    rw [segments] at loaded
    obtain rfl := List.mem_singleton.mp loaded
    exact ⟨content.front, mem_parts.mpr (.inr ⟨some, rfl⟩), rfl, low, high⟩
  | cons first rest =>
    have known : ∀ segment ∈ first :: rest, segment ∈ content.parts := fun _ member =>
      mem_parts.mpr (.inl (segments ▸ member))
    rw [loaded_cons segments] at loaded
    obtain rfl | later := List.mem_cons.mp loaded
    · by_cases none : content.leading = []
      · rw [none] at low high
        exact ⟨first, known _ (.head _), rfl, low, high⟩
      · obtain ⟨upper, above, below⟩ := joined first (by rw [segments]; rfl) none
        have front : content.front ∈ content.parts := mem_parts.mpr (.inr ⟨none, rfl⟩)
        change lowest 65536 (content.leading ++ first.writes) ≤ offset at low
        change offset ≤ highest (content.leading ++ first.writes) at high
        rw [lowest_append] at low
        rw [highest_append] at high
        change min content.front.low first.low ≤ offset at low
        change offset ≤ max content.front.high first.high at high
        by_cases inside : content.front.low ≤ offset ∧ offset ≤ content.front.high
        · exact ⟨content.front, front, upper.symm, inside⟩
        · exact ⟨first, known _ (.head _), rfl, by omega, by omega⟩
    · exact ⟨segment, known _ (.tail _ later), rfl, low, high⟩

end Parts

section Images

variable {segment : Segment}

theorem Segment.Fits.image_length (fits : segment.Fits) :
    segment.imageSection.image.length = segment.high + 1 - segment.low :=
  segment.imageSection.sized.trans fits.imageSection_len

theorem Segment.image_getElem {k : Nat} (inside : k < segment.imageSection.image.length) :
    segment.imageSection.image[k] = segment.at (segment.low + k) := by
  simp [Segment.imageSection, window]

/-- Addresses in 64 KiB are the same only for the same upper half. -/
theorem Segment.base_inj {other : Segment} {offset place : Nat} (small : offset < 65536)
    (small' : place < 65536) (same : segment.base + offset = other.base + place) :
    segment.upper = other.upper ∧ offset = place := by
  unfold Segment.base at same
  exact ⟨UInt16.toNat_inj.mp (by omega), by omega⟩

end Images

section Denotes

variable {content : HexContent}

theorem denotes_of_joined (fits : ∀ segment ∈ content.loaded, segment.Fits)
    (joined : content.Joined)
    (right : ∀ segment ∈ content.loaded, segment.low = 0 ∧ ∀ offset ≤ segment.high,
      segment.at offset = (lastAt content.writes (segment.base + offset)).getD 0xFF) :
    Denotes (content.loaded.map Segment.imageSection) content where
  covered address some := by
    obtain ⟨part, known, write, inside, rfl⟩ := lastAt_writes_isSome.mp some
    obtain ⟨segment, loaded, same, all⟩ :=
      loaded_of_part (fun first head some => (joined first head some).1) known
    have high := le_highest (all write inside)
    change write.1 ≤ segment.high at high
    refine ⟨_, List.mem_map_of_mem loaded, write.1, ?_, ?_⟩
    · rw [(fits segment loaded).image_length, (right segment loaded).1]
      omega
    · show part.base + write.1 = segment.address.toNat + write.1
      rw [segment.address_toNat, Segment.base, Segment.base, same]
  image section' member k inside := by
    obtain ⟨segment, loaded, rfl⟩ := List.mem_map.mp member
    have small := inside
    rw [(fits segment loaded).image_length, (right segment loaded).1] at small
    rw [Segment.image_getElem, (right segment loaded).1, Nat.zero_add]
    show segment.at k = (lastAt content.writes (segment.address.toNat + k)).getD 0xFF
    rw [segment.address_toNat]
    exact (right segment loaded).2 k (by omega)
  within section' member k inside := by
    obtain ⟨segment, loaded, rfl⟩ := List.mem_map.mp member
    have start := (right segment loaded).1
    rw [(fits segment loaded).image_length, start] at inside
    show ∃ part ∈ content.parts, part.base + part.low ≤ segment.address.toNat + k ∧
      segment.address.toNat + k ≤ part.base + part.high
    rw [segment.address_toNat]
    obtain ⟨part, known, same, low, high⟩ :=
      joined.between loaded (fits segment loaded).some (by omega) (by omega : k ≤ segment.high)
    have base : part.base = segment.base := by rw [Segment.base, Segment.base, same]
    exact ⟨part, known, by omega, by omega⟩

section Apart

variable (fits : ∀ segment ∈ content.loaded, segment.Fits)
  (parts_fit : ∀ part ∈ content.parts, part.Fits)
  (denotes : Denotes (content.loaded.map Segment.imageSection) content)

include fits parts_fit denotes

private theorem covered_loaded {part : Segment} (known : part ∈ content.parts)
    {write : Nat × UInt8} (member : write ∈ part.writes) :
    ∃ segment ∈ content.loaded, segment.upper = part.upper ∧
      write.1 < segment.high + 1 - segment.low := by
  obtain ⟨section', inside, k, small, same⟩ := denotes.covered (part.base + write.1)
    (lastAt_writes_isSome.mpr ⟨part, known, write, member, rfl⟩)
  obtain ⟨segment, loaded, rfl⟩ := List.mem_map.mp inside
  rw [(fits segment loaded).image_length] at small
  change _ = segment.address.toNat + k at same
  rw [segment.address_toNat] at same
  have bounds := (fits segment loaded).bounds
  obtain ⟨upper, rfl⟩ :=
    Segment.base_inj ((parts_fit part known).within write member) (by omega) same
  exact ⟨segment, loaded, upper.symm, small⟩

private theorem front_upper (apart : content.Apart) :
    ∀ first ∈ content.segments.head?, content.leading ≠ [] → first.upper = 0 := by
  intro first head some
  obtain ⟨write, member⟩ := List.exists_mem_of_ne_nil _ some
  obtain ⟨segment, loaded, upper, -⟩ :=
    covered_loaded fits parts_fit denotes (mem_parts.mpr (.inr ⟨some, rfl⟩)) member
  obtain ⟨rest, segments⟩ := List.head?_eq_some_iff.mp head
  rw [loaded_cons segments] at loaded
  obtain rfl | later := List.mem_cons.mp loaded
  · exact upper
  · have other := apart.front some segment (by rw [segments]; exact later)
    exact absurd upper other

omit fits parts_fit denotes in
private theorem loaded_inj (apart : content.Apart) {segment other : Segment}
    (loaded : segment ∈ content.loaded) (loaded' : other ∈ content.loaded)
    (same : segment.upper = other.upper) : segment = other := by
  have nodup : (content.loaded.map Segment.upper).Nodup := by
    have distinct := apart.segments
    unfold HexContent.loaded
    split
    case h_1 => exact List.nodup_singleton _
    case h_2 first rest segments =>
      rw [segments] at distinct
      exact distinct
  exact List.inj_on_of_nodup_map nodup loaded loaded' same

private theorem loaded_low (apart : content.Apart) {segment : Segment}
    (loaded : segment ∈ content.loaded) : segment.low = 0 := by
  obtain ⟨last, member, high⟩ := highest_mem (fits segment loaded).some
  change last.1 = segment.high at high
  obtain ⟨part, known, inside, upper⟩ := loaded_writes loaded member
  have upper : part.upper = segment.upper := by
    obtain same | ⟨some, rfl, head⟩ := upper
    · exact same
    · obtain ⟨first, first_head, same⟩ := Option.map_eq_some_iff.mp head
      rw [← same, front_upper fits parts_fit denotes apart first first_head some]
      rfl
  obtain ⟨other, loaded', same, small⟩ := covered_loaded fits parts_fit denotes known inside
  obtain rfl := loaded_inj apart loaded' loaded (same.trans upper)
  omega

/-- There is no gap behind the bytes before the first segment. -/
private theorem joined_of_denotes (apart : content.Apart) : content.Joined := by
  intro first head some
  have upper := front_upper fits parts_fit denotes apart first head some
  obtain ⟨rest, segments⟩ := List.head?_eq_some_iff.mp head
  let merged : Segment := { first with writes := content.leading ++ first.writes }
  have loaded : merged ∈ content.loaded := by
    rw [loaded_cons segments]
    exact .head _
  have low : merged.low = 0 := loaded_low fits parts_fit denotes apart loaded
  have high : merged.high = max content.front.high first.high := highest_append ..
  have front_fits : content.front.Fits := parts_fit _ (mem_parts.mpr (.inr ⟨some, rfl⟩))
  have first_fits : first.Fits := parts_fit _ (mem_parts.mpr (.inl (segments ▸ .head _)))
  have front_bounds := front_fits.bounds
  have first_bounds := first_fits.bounds
  have between (offset : Nat) (below : offset ≤ merged.high) :
      content.front.low ≤ offset ∧ offset ≤ content.front.high ∨
        first.low ≤ offset ∧ offset ≤ first.high := by
    have inside : offset < merged.imageSection.image.length := by
      rw [(fits _ loaded).image_length, low]
      omega
    obtain ⟨part, known, after, before⟩ :=
      denotes.within _ (List.mem_map_of_mem loaded) offset inside
    have bounds := (parts_fit part known).bounds
    change _ ≤ merged.address.toNat + offset at after
    change merged.address.toNat + offset ≤ _ at before
    rw [merged.address_toNat] at after before
    have place : merged.base + offset = part.base + (merged.base + offset - part.base) := by omega
    obtain ⟨same, offset_eq⟩ := Segment.base_inj (by omega) (by omega) place
    obtain inside | ⟨-, rfl⟩ := mem_parts.mp known
    · rw [segments] at inside
      obtain rfl | later := List.mem_cons.mp inside
      · exact .inr ⟨by omega, by omega⟩
      · exact absurd (same.symm.trans upper) (apart.front some part (by rw [segments]; exact later))
    · exact .inl ⟨by omega, by omega⟩
  refine ⟨upper, ?_, ?_⟩
  · by_contra gap
    have missing := between (content.front.high + 1) (by omega)
    omega
  · by_contra gap
    have missing := between (first.high + 1) (by omega)
    omega

/-- What is the address map is loaded right. -/
theorem joined_of_apart (apart : content.Apart) :
    content.Joined ∧ ∀ segment ∈ content.loaded, segment.low = 0 ∧ ∀ offset ≤ segment.high,
      segment.at offset = (lastAt content.writes (segment.base + offset)).getD 0xFF := by
  refine ⟨joined_of_denotes fits parts_fit denotes apart, fun segment loaded => ?_⟩
  have low := loaded_low fits parts_fit denotes apart loaded
  refine ⟨low, fun offset below => ?_⟩
  have inside : offset < segment.imageSection.image.length := by
    rw [(fits segment loaded).image_length, low]
    omega
  have right := denotes.image _ (List.mem_map_of_mem loaded) offset inside
  rw [Segment.image_getElem, low, Nat.zero_add] at right
  rw [right, ← segment.address_toNat]
  rfl

end Apart

end Denotes

section File

variable {records : List HexRecord} {text : List Char} (written : HexText records text)
  (filled : ∀ segment ∈ (contentOf records).segments, segment.writes ≠ [])

include written filled

private theorem parts_fits : ∀ part ∈ (contentOf records).parts, part.Fits := by
  intro part known
  obtain inside | ⟨some, rfl⟩ := mem_parts.mp known
  · exact ⟨filled part inside, written.within.2 part inside⟩
  · exact ⟨some, written.within.1⟩

private theorem loaded_fits (some : (contentOf records).parts ≠ []) :
    ∀ segment ∈ (contentOf records).loaded, segment.Fits := by
  intro segment loaded
  have fit := parts_fits written filled
  refine ⟨?_, fun write member => ?_⟩
  · cases segments : (contentOf records).segments with
    | nil =>
      obtain ⟨part, known⟩ := List.exists_mem_of_ne_nil _ some
      unfold HexContent.loaded at loaded
      rw [segments] at loaded
      obtain rfl := List.mem_singleton.mp loaded
      obtain inside | ⟨some, -⟩ := mem_parts.mp known
      · rw [segments] at inside
        cases inside
      · exact some
    | cons first rest =>
      rw [loaded_cons segments] at loaded
      obtain rfl | later := List.mem_cons.mp loaded
      · exact List.append_ne_nil_of_right_ne_nil _ (filled first (segments ▸ .head _))
      · exact filled segment (segments ▸ .tail _ later)
  · obtain ⟨part, known, inside, -⟩ := loaded_writes loaded member
    exact (fit part known).within write inside

end File

private theorem loaded_length {content : HexContent} (some : content.parts ≠ []) :
    content.loaded.length ≤ content.parts.length := by
  have longer : content.segments.length ≤ content.parts.length := by
    unfold HexContent.parts
    split
    · exact Nat.le_refl _
    · exact Nat.le_succ _
  unfold HexContent.loaded
  split
  case h_1 => exact List.length_pos_iff.mpr some
  case h_2 first rest segments =>
    rw [segments] at longer
    exact longer

/-- The sections of a file are loaded, and they are its address map. -/
def Loaded (malloc : Nat → Bool) (leftover : Leftover) (text : List Char) (numSlots : Nat)
    (content : HexContent) : Prop :=
  ∃ sections, ihexLoadSections malloc leftover text numSlots = some sections ∧
    Denotes sections content

/-- A file without any byte has no sections, unless its length can be served. -/
private theorem loaded_empty {malloc : Nat → Bool} (leftover : Leftover)
    {records : List HexRecord} {text : List Char} (numSlots : Nat)
    (serves : ∀ size ≤ maxIhexSectionLen, malloc size = true) (written : HexText records text)
    (empty : contentOf records = { leading := [], segments := [] }) :
    Loaded malloc leftover text numSlots (contentOf records) ↔
      malloc 0xFFFF0001 = false ∧ 0 < numSlots := by
  have section' := ihexLoadSection_empty leftover serves written empty
  cases numSlots with
  | zero =>
    constructor
    · rintro ⟨sections, same, -⟩
      cases same
    · rintro ⟨-, some⟩
      cases some
  | succ slots =>
    unfold Loaded ihexLoadSections
    rw [loadSections, section']
    cases malloc 0xFFFF0001 with
    | true =>
      constructor
      · rintro ⟨sections, same, -⟩
        cases same
      · rintro ⟨refused, -⟩
        cases refused
    | false =>
      refine ⟨fun _ => ⟨rfl, Nat.succ_pos _⟩, fun _ => ⟨[], rfl, ?_⟩⟩
      rw [empty]
      exact ⟨fun _ some => absurd some Bool.false_ne_true,
        fun _ member => absurd member List.not_mem_nil,
        fun _ member => absurd member List.not_mem_nil⟩

/-- A file whose segments start with their first byte, with none before the first of them, none
replaced and no gaps at all in what is joined, is loaded as its address map. Where no upper half is
set twice, only such a file is. -/
theorem loaded_iff_right {malloc : Nat → Bool} (leftover : Leftover) {records : List HexRecord}
    {text : List Char} {numSlots : Nat} (written : HexText records text)
    (filled : ∀ segment ∈ (contentOf records).segments, segment.writes ≠ [])
    (enough : (contentOf records).parts.length ≤ numSlots)
    (serves : ∀ size ≤ maxIhexSectionLen, malloc size = true) :
    ((contentOf records).LoadsRight malloc numSlots →
        Loaded malloc leftover text numSlots (contentOf records)) ∧
      ((contentOf records).Apart → Loaded malloc leftover text numSlots (contentOf records) →
        (contentOf records).LoadsRight malloc numSlots) := by
  by_cases none : (contentOf records).parts = []
  · have empty : contentOf records = { leading := [], segments := [] } := by
      unfold HexContent.parts at none
      split at none
      case isTrue front =>
        rw [← none, ← front]
      case isFalse => cases none
    have loaded := loaded_empty leftover numSlots serves written empty
    unfold HexContent.LoadsRight
    rw [if_pos none]
    exact ⟨loaded.mpr, fun _ => loaded.mp⟩
  · have fits := loaded_fits written filled none
    have loads := loadSections_loaded leftover serves written fits
      ((loaded_length none).trans enough)
    unfold HexContent.LoadsRight
    rw [if_neg none]
    refine ⟨fun ⟨joined, right⟩ => ⟨_, loads, denotes_of_joined fits joined right⟩, ?_⟩
    rintro apart ⟨sections, same, denotes⟩
    obtain rfl := Option.some.inj (loads.symm.trans same)
    exact joined_of_apart fits (parts_fits written filled) denotes apart

/-- A file of one segment, with one byte. -/
def oneByte (offset : UInt16) : List HexRecord :=
  [.extendedAddress 0x0800, .data offset [0x41]]

def oneByteText (line : String) : List Char :=
  ":020000040800F2".toList ++ ['\n'] ++ (line.toList ++ ['\n'] ++ (":00000001FF".toList ++ ['\n']))

private theorem upper_line : (HexRecord.extendedAddress 0x0800).Line ":020000040800F2".toList :=
  ⟨0, by decide, 0xF2, "020000040800F2".toList, by decide +kernel, by decide +kernel,
    by decide +kernel⟩

private theorem last_line : RecordLine 1 0 [] ":00000001FF".toList :=
  ⟨by decide, 0xFF, "00000001FF".toList, by decide +kernel, by decide +kernel, by decide +kernel⟩

private theorem start_line : (HexRecord.data 0 [0x41]).Line ":0100000041BE".toList :=
  ⟨⟨by decide, 0xBE, "0100000041BE".toList, by decide +kernel, by decide +kernel,
    by decide +kernel⟩, by decide⟩

private theorem oneByte_text {offset : UInt16} {line : String}
    (written : (HexRecord.data offset [0x41]).Line line.toList) (short : line.toList.length < 511) :
    HexText (oneByte offset) (oneByteText line) :=
  .record upper_line (by decide +kernel) (.head _) (.record written short (.head _)
    (.last last_line (.tail _ (.head _))))

/-- The variables of `parse_hex_line`, all zero. -/
def noLeftover : Leftover where
  scanned := { addr := 0, n := 0, status := 0, bytes := fun _ => 0 }
  len := 0
  cksum := 0

private theorem oneByte_filled (offset : UInt16) :
    ∀ segment ∈ (contentOf (oneByte offset)).segments, segment.writes ≠ [] := by
  intro segment member
  obtain rfl := List.mem_singleton.mp member
  exact List.cons_ne_nil _ _

def twoSegments : List HexRecord :=
  [.extendedAddress 0x0800, .data 0 [0x41], .extendedAddress 0x0801, .data 0 [0x42, 0x43]]

def twoSegmentsText : List Char :=
  ":020000040800F2".toList ++ ['\n'] ++ (":0100000041BE".toList ++ ['\n'] ++
    (":020000040801F1".toList ++ ['\n'] ++ (":02000000424379".toList ++ ['\n'] ++
      (":00000001FF".toList ++ ['\n']))))

private theorem twoSegments_text : HexText twoSegments twoSegmentsText := by
  have next : (HexRecord.extendedAddress 0x0801).Line ":020000040801F1".toList :=
    ⟨0, by decide, 0xF1, "020000040801F1".toList, by decide +kernel, by decide +kernel,
      by decide +kernel⟩
  have data : (HexRecord.data 0 [0x42, 0x43]).Line ":02000000424379".toList :=
    ⟨⟨by decide, 0x79, "02000000424379".toList, by decide +kernel, by decide +kernel,
      by decide +kernel⟩, by decide⟩
  exact .record upper_line (by decide +kernel) (.head _)
    (.record start_line (by decide +kernel) (.head _)
      (.record next (by decide +kernel) (.head _) (.record data (by decide +kernel) (.head _)
        (.last last_line (.tail _ (.head _))))))

theorem loaded_iff_right_segments :
    Loaded (· ≤ maxIhexSectionLen) noLeftover twoSegmentsText 2 (contentOf twoSegments) := by
  have filled : ∀ segment ∈ (contentOf twoSegments).segments, segment.writes ≠ [] := by
    intro segment member
    obtain rfl | later := List.mem_cons.mp member
    · exact List.cons_ne_nil _ _
    · obtain rfl := List.mem_singleton.mp later
      exact List.cons_ne_nil _ _
  refine (loaded_iff_right noLeftover twoSegments_text filled (Nat.le_refl 2)
    (fun _ small => decide_eq_true small)).1 ?_
  have some : (contentOf twoSegments).parts ≠ [] := List.cons_ne_nil _ _
  unfold HexContent.LoadsRight
  rw [if_neg some]
  refine ⟨fun _ _ some => absurd rfl some, fun segment loaded => ?_⟩
  obtain rfl | later := List.mem_cons.mp loaded
  · refine ⟨rfl, fun offset below => ?_⟩
    obtain rfl := Nat.le_zero.mp below
    decide
  · obtain rfl := List.mem_singleton.mp later
    refine ⟨rfl, fun offset below => ?_⟩
    obtain rfl | rfl := Nat.le_one_iff_eq_zero_or_eq_one.mp below
    · decide
    · decide

/-- A segment that starts behind its first address is loaded at that address. -/
theorem later_start_misplaced :
    ¬∀ (malloc : Nat → Bool) (leftover : Leftover) (records : List HexRecord) (text : List Char)
      (numSlots : Nat), HexText records text →
      (∀ segment ∈ (contentOf records).segments, segment.writes ≠ []) →
      (contentOf records).parts.length ≤ numSlots →
      (∀ size ≤ maxIhexSectionLen, malloc size = true) →
      Loaded malloc leftover text numSlots (contentOf records) := by
  intro claim
  have data : (HexRecord.data 4 [0x41]).Line ":0100040041BA".toList :=
    ⟨⟨by decide, 0xBA, "0100040041BA".toList, by decide +kernel, by decide +kernel,
      by decide +kernel⟩, by decide⟩
  have written := oneByte_text data (by decide +kernel)
  have serves : ∀ size ≤ maxIhexSectionLen, decide (size ≤ maxIhexSectionLen) = true :=
    fun _ small => decide_eq_true small
  obtain ⟨sections, same, denotes⟩ :=
    claim _ noLeftover _ _ 1 written (oneByte_filled 4) (Nat.le_refl 1) serves
  have loads := loadSections_loaded noLeftover serves written
    (loaded_fits written (oneByte_filled 4) (List.cons_ne_nil _ _)) (Nat.le_refl 1)
  obtain rfl := Option.some.inj (loads.symm.trans same)
  obtain ⟨loaded, member, k, small, place⟩ := denotes.covered 0x08000004 (by decide)
  obtain rfl := List.mem_singleton.mp member
  change k < 1 at small
  change 0x08000004 = 0x08000000 + k at place
  omega

end InertialSense.Ihex
