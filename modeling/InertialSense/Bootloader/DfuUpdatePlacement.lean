import InertialSense.Bootloader.Updating

/-! Whether `updateFirmware` puts every byte of the sections in its place, and changes no other
page: the sections are written one behind the other, wherever they are meant to be. -/

namespace InertialSense.Bootloader

open Foundation Ihex

variable {cell address : UInt32}

/-- A download puts the bytes where they belong. -/
theorem Geometry.transfers_topmost (g : Geometry) {buf : List UInt8} (small : buf.length ≤ 65536) :
    topmost ((g.transfers address buf).map (Access.layer g.pageSize)) cell =
      buf[(cell - address).toNat]? := by
  induction size : buf.length using Nat.strongRecOn generalizing address buf with
  | ind size ih =>
    subst size
    have fits := g.commandFits
    have bound := cell.toNat_lt
    have bound' := address.toNat_lt
    rw [Geometry.transfers, List.map_cons]
    show (topmost _ cell).or (buf.take g.transferSize)[(cell - address).toNat]? = _
    rw [List.getElem?_take]
    split
    case isTrue whole =>
      show (if _ then _ else _) = _
      split
      case isTrue => rfl
      case isFalse outside => exact (List.getElem?_eq_none (by omega)).symm
    case isFalse more =>
      have rest : (buf.drop g.transferSize).length = buf.length - g.transferSize :=
        List.length_drop
      rw [ih _ (by omega) (by omega) rfl, List.getElem?_drop]
      have offset : (cell - (address + UInt32.ofNat g.transferSize)).toNat =
          if (cell - address).toNat < g.transferSize then
            2 ^ 32 + (cell - address).toNat - g.transferSize
          else (cell - address).toNat - g.transferSize := by
        rw [UInt32.toNat_sub, UInt32.toNat_add, UInt32.toNat_ofNat', UInt32.toNat_sub]
        split
        all_goals omega
      rw [offset]
      split
      case isTrue inside =>
        rw [List.getElem?_eq_none (by omega)]
        rfl
      case isFalse outside =>
        rw [Nat.add_sub_cancel' (by omega), Option.or_none]

namespace Update

/-- What the pages leave in a cell, one behind the other from the start: their bytes, and 0xFF
where only the erasing has come. -/
def left? (pageSize : Nat) (start : UInt32) (pages : List (List UInt8)) (cell : UInt32) :
    Option UInt8 :=
  let offset := (cell - start).toNat
  (pages[offset / pageSize]?.bind (·[offset % pageSize]?)).or
    (if ∃ n < pages.length, pageOf pageSize cell = pageOf pageSize (pageAt pageSize start n) then
      some 0xFF
    else none)

section Layers

variable {start : UInt32} {pageSize : Nat} {pages : List (List UInt8)}

private theorem erased_topmost (count : Nat) :
    topmost ((erased pageSize start count).map (Access.layer pageSize)) cell =
      if ∃ n < count, pageOf pageSize cell = pageOf pageSize (pageAt pageSize start n) then
        some 0xFF
      else none := by
  have layer (n : Nat) : (Access.erase (pageAt pageSize start n)).layer pageSize cell =
      if pageOf pageSize cell = pageOf pageSize (pageAt pageSize start n) then some 0xFF
      else none := rfl
  unfold erased
  split
  case isTrue reached =>
    obtain ⟨n, inside, same⟩ := reached
    apply topmost_agreed
    · intro layer' member
      obtain ⟨access, erase, rfl⟩ := List.mem_map.mp member
      obtain ⟨m, -, rfl⟩ := List.mem_map.mp erase
      rw [layer]
      split
      · exact .inr rfl
      · exact .inl rfl
    · refine ⟨_, List.mem_map_of_mem (List.mem_map_of_mem (List.mem_range.mpr inside)), ?_⟩
      rw [layer, if_pos same]
  case isFalse outside =>
    apply topmost_eq_none.mpr
    intro layer' member
    obtain ⟨access, erase, rfl⟩ := List.mem_map.mp member
    obtain ⟨m, inside, rfl⟩ := List.mem_map.mp erase
    rw [layer, if_neg fun same => outside ⟨m, List.mem_range.mp inside, same⟩]

private theorem pageAt_offset {n : Nat} (positive : 0 < pageSize)
    (room : pageSize * (n + 1) < 2 ^ 32) (i : Nat) (inside : i < pageSize) :
    (cell - pageAt pageSize start n).toNat = i ↔
      (cell - start).toNat / pageSize = n ∧ (cell - start).toNat % pageSize = i := by
  have bound := cell.toNat_lt
  have bound' := start.toNat_lt
  rw [Nat.mul_succ] at room
  have whole : (cell - pageAt pageSize start n).toNat = i ↔
      (cell - start).toNat = pageSize * n + i := by
    unfold pageAt
    rw [UInt32.toNat_sub, UInt32.toNat_add, UInt32.toNat_ofNat', UInt32.toNat_sub]
    omega
  rw [whole]
  constructor
  · intro same
    rw [same, Nat.mul_add_div positive, Nat.mul_add_mod, Nat.div_eq_of_lt inside,
      Nat.mod_eq_of_lt inside]
    exact ⟨rfl, rfl⟩
  · rintro ⟨rfl, rfl⟩
    exact (Nat.div_add_mod _ _).symm

private def pageLeaves (pageSize : Nat) (start : UInt32) (page : List UInt8 × Nat) (cell : UInt32) :
    Option UInt8 :=
  page.1[(cell - pageAt pageSize start page.2).toNat]?

private theorem written_topmost (g : Geometry) (positive : 0 < g.pageSize)
    (room : g.pageSize * pages.length < 2 ^ 32) (few : g.pageSize ≤ 65536)
    (full : ∀ page ∈ pages, page.length ≤ g.pageSize) :
    topmost ((written g start pages).map (Access.layer g.pageSize)) cell =
      pages[(cell - start).toNat / g.pageSize]?.bind (·[(cell - start).toNat % g.pageSize]?) := by
  -- a page leaves something in a cell if the cell is in it
  have single (page : List UInt8 × Nat) (member : page ∈ pages.zipIdx) :
      pageLeaves g.pageSize start page cell =
        if (cell - start).toNat / g.pageSize = page.2 then
          page.1[(cell - start).toNat % g.pageSize]?
        else none := by
    have place := List.mem_zipIdx_iff_getElem?.mp member
    obtain ⟨inside, here⟩ := List.getElem?_eq_some_iff.mp place
    have length := full page.1 (here ▸ List.getElem_mem inside)
    have room' : g.pageSize * (page.2 + 1) < 2 ^ 32 :=
      Nat.lt_of_le_of_lt (Nat.mul_le_mul_left _ inside) room
    unfold pageLeaves
    split
    case isTrue same =>
      have offset := (pageAt_offset positive room' _ (Nat.mod_lt _ positive)).mpr ⟨same, rfl⟩
      rw [offset]
    case isFalse different =>
      apply List.getElem?_eq_none
      refine Nat.le_trans length (Nat.le_of_not_lt fun near => different ?_)
      exact ((pageAt_offset positive room' _ near).mp rfl).1
  have layers : topmost ((written g start pages).map (Access.layer g.pageSize)) cell =
      topmost (pages.zipIdx.map (pageLeaves g.pageSize start)) cell := by
    unfold written
    rw [List.map_flatMap]
    apply topmost_flatMap
    intro page member
    have place := List.mem_zipIdx_iff_getElem?.mp member
    obtain ⟨inside, here⟩ := List.getElem?_eq_some_iff.mp place
    exact g.transfers_topmost (Nat.le_trans (full page.1 (here ▸ List.getElem_mem inside)) few)
  rw [layers]
  cases found : pages[(cell - start).toNat / g.pageSize]?.bind
      (·[(cell - start).toNat % g.pageSize]?) with
  | some value =>
    obtain ⟨page, here, byte⟩ := Option.bind_eq_some_iff.mp found
    apply topmost_agreed
    · intro layer member
      obtain ⟨other, known, rfl⟩ := List.mem_map.mp member
      rw [single other known]
      split
      case isTrue same =>
        have place := List.mem_zipIdx_iff_getElem?.mp known
        rw [← same, here] at place
        rw [← Option.some.inj place]
        exact .inr byte
      case isFalse => exact .inl rfl
    · have known : (page, (cell - start).toNat / g.pageSize) ∈ pages.zipIdx :=
        List.mem_zipIdx_iff_getElem?.mpr here
      refine ⟨_, List.mem_map_of_mem known, ?_⟩
      rw [single _ known, if_pos rfl]
      exact byte
  | none =>
    apply topmost_eq_none.mpr
    intro layer member
    obtain ⟨other, known, rfl⟩ := List.mem_map.mp member
    rw [single other known]
    split
    case isTrue same =>
      have place := List.mem_zipIdx_iff_getElem?.mp known
      rw [← same] at place
      rw [place] at found
      exact found
    case isFalse => rfl

end Layers

/-! ### The whole image -/

section Image

variable {image : List ImageSection} {pageSize : Nat}

private theorem chunks_full : ∀ page ∈ chunks pageSize image, page.length ≤ pageSize := by
  intro page member
  obtain ⟨part, -, inside⟩ := List.mem_flatMap.mp member
  obtain ⟨m, -, rfl⟩ := List.mem_map.mp inside
  rw [chunk_length]
  exact Nat.min_le_left ..

/-- The pages of so many sections do not go round the address space. -/
private theorem chunks_room (size : FlashPages pageSize) (filled : ∀ part ∈ image, Filled part)
    (few : image.length ≤ maxNumIhexSections) :
    pageSize * (chunks pageSize image).length < 2 ^ 32 := by
  obtain ⟨large, small, -⟩ := size.bounds
  have bound : pageSize * (chunks pageSize image).length ≤ image.length * 163840 := by
    clear few
    induction image with
    | nil => exact Nat.le_refl 0
    | cons part rest ih =>
      have single : pageSize * pages pageSize part.len ≤ 163840 := by
        have fits := (filled part (.head _)).small
        have whole := Nat.div_mul_le_self (part.len.toNat + pageSize - 2) pageSize
        unfold maxIhexSectionLen at fits
        unfold pages
        rw [← Nat.mul_max_mul_left, Nat.mul_comm pageSize (_ / _)]
        omega
      have later := ih fun part member => filled part (.tail _ member)
      have order : (chunks pageSize (part :: rest)).length =
          pages pageSize part.len + (chunks pageSize rest).length := by
        unfold chunks
        rw [List.flatMap_cons, List.length_append, List.length_map, List.length_range]
      rw [order, Nat.mul_add, List.length_cons]
      omega
  unfold maxNumIhexSections at few
  omega

theorem planned_topmost {g : Geometry} (size : FlashPages g.pageSize)
    (filled : ∀ part ∈ image, Filled part) (few : image.length ≤ maxNumIhexSections)
    (start : UInt32) :
    topmost ((planned g start image).map (Access.layer g.pageSize)) cell =
      left? g.pageSize start (chunks g.pageSize image) cell := by
  obtain ⟨large, small, -⟩ := size.bounds
  unfold planned
  rw [List.map_append, topmost_append, erased_topmost,
    written_topmost g (by omega) (chunks_room size filled few) (by omega) chunks_full]
  rfl

end Image

/-- If `updateFirmware` returns `DFU_ERROR_NONE`, every byte of every section is in its place, and
every page without one is as it was. -/
def UpdatesRight (sections : List ImageSection) (baseAddress : UInt64) (mem : DfuMemory)
    (connected : Bool) (leftover : DfuError) (state : DfuState) : Prop :=
  ∀ d : Device, d.pageSize = mem.pageSize.toNat → d.Performing → d.state = state →
    d.history = [] → ∀ answer,
      UpdateFirmware sections baseAddress mem connected leftover d answer → answer.1 = .none →
        (∀ part ∈ shifted sections baseAddress, ∀ k (inside : k < part.image.length),
          answer.2.flash (part.address + UInt32.ofNat k) = part.image[k]) ∧
        ∀ cell, (∀ part ∈ shifted sections baseAddress, ∀ k < part.image.length,
          pageOf d.pageSize (part.address + UInt32.ofNat k) ≠ pageOf d.pageSize cell) →
            answer.2.flash cell = d.flash cell

/-- The sections one behind the other from the first one on, each in whole pages, come to where
they are meant to be, and each of these pages has a byte of a section. -/
structure Fitting (pageSize : Nat) (image : List ImageSection) : Prop where
  kept : ∀ part ∈ image, ∀ k (inside : k < part.image.length),
    left? pageSize (startOf image) (chunks pageSize image) (part.address + UInt32.ofNat k) =
      some part.image[k]
  held : ∀ cell, (left? pageSize (startOf image) (chunks pageSize image) cell).isSome →
    ∃ part ∈ image, ∃ k < part.image.length,
      pageOf pageSize (part.address + UInt32.ofNat k) = pageOf pageSize cell

/-- The device lets itself be aborted. -/
def Abortable (state : DfuState) : Prop := ¬(state = .dnbusy ∨ state = .error)

instance (state : DfuState) : Decidable (Abortable state) :=
  inferInstanceAs (Decidable ¬(state = .dnbusy ∨ state = .error))

section Placement

variable {sections image : List ImageSection} {baseAddress : UInt64} {mem : DfuMemory}
  {connected : Bool} {leftover : DfuError} {state : DfuState} {d : Device}
  {answer : DfuError × Device}

private theorem shifted_from {part : ImageSection} (member : part ∈ shifted sections baseAddress) :
    ∃ before ∈ sections, part.len = before.len := by
  unfold shifted at member
  split at member
  · cases member
  · split at member
    · obtain ⟨before, known, rfl⟩ := List.mem_map.mp member
      exact ⟨before, known, rfl⟩
    · exact ⟨part, member, rfl⟩

private theorem shifted_length : (shifted sections baseAddress).length = sections.length := by
  unfold shifted
  split
  · rfl
  · split
    · exact List.length_map ..
    · rfl

private theorem shifted_ne (some : sections ≠ []) : shifted sections baseAddress ≠ [] := by
  intro none
  have length : (shifted sections baseAddress).length = sections.length := shifted_length
  rw [none] at length
  exact some (List.length_eq_zero_iff.mp length.symm)

private theorem shifted_filled (filled : ∀ part ∈ sections, Filled part) :
    ∀ part ∈ shifted sections baseAddress, Filled part := by
  intro part member
  obtain ⟨before, known, len⟩ := shifted_from member
  have fill := filled before known
  exact ⟨len ▸ fill.some, len ▸ fill.small⟩

/-- A device that lets itself be aborted is idle before the loops. -/
private theorem update_abortable (some : sections ≠ []) (abortable : Abortable d.state) :
    UpdateFirmware sections baseAddress mem connected leftover d answer ↔
      Ends (fun state next => next = step (shifted sections baseAddress) mem state)
        ⟨.eraseFrom (shifted sections baseAddress),
          firstOffset (shifted sections baseAddress) mem, { d with state := .idle }⟩ answer := by
  have aborted (d : Device) (abortable : Abortable d.state) (result : DfuError) :
      UpdateOpened sections baseAddress mem d result answer ↔
        Ends (fun state next => next = step (shifted sections baseAddress) mem state)
          ⟨.eraseFrom (shifted sections baseAddress),
            firstOffset (shifted sections baseAddress) mem, { d with state := .idle }⟩ answer := by
    unfold UpdateOpened
    rw [if_neg some, show d.abort = ({ d with state := .idle }, true) from if_neg abortable]
    exact Iff.of_eq (if_pos rfl)
  unfold UpdateFirmware
  cases connected with
  | true =>
    rw [if_pos rfl]
    exact aborted d abortable leftover
  | false =>
    have idle : ({ d with state := .idle } : Device).Ready := .inl rfl
    have opened : d.openDevice = ({ d with state := .idle }, .none) := by
      unfold Device.openDevice Device.waitForState
      rw [show d.abort = ({ d with state := .idle }, true) from if_neg abortable]
      dsimp only
      rw [if_pos rfl, idle.waitLoop]
    rw [if_neg Bool.false_ne_true, opened]
    dsimp only
    rw [if_neg (not_not_intro rfl)]
    have abortable' : Abortable .idle := by
      unfold Abortable
      decide
    exact aborted { d with state := .idle } abortable' .none

private theorem update_stalled (some : sections ≠ []) (stalls : ¬Abortable d.state) :
    UpdateFirmware sections baseAddress mem connected leftover d answer ↔
      answer = (if connected then leftover else .status, { d with state := .error }) := by
  have aborted : d.abort = ({ d with state := .error }, false) := if_pos (not_not.mp stalls)
  unfold UpdateFirmware
  cases connected with
  | true =>
    rw [if_pos rfl]
    unfold UpdateOpened
    rw [if_neg some, aborted]
    exact Iff.of_eq (if_neg Bool.false_ne_true)
  | false =>
    have opened : d.openDevice = ({ d with state := .error }, .status) := by
      unfold Device.openDevice
      rw [aborted]
      rfl
    rw [if_neg Bool.false_ne_true, opened]
    exact Iff.of_eq (if_pos (show DfuError.status ≠ .none by decide))

private theorem update_nothing (sections : List ImageSection) (none : sections = [])
    (returns : UpdateFirmware sections baseAddress mem connected leftover d answer) :
    answer.1 ≠ .none := by
  unfold UpdateFirmware at returns
  split at returns
  · unfold UpdateOpened at returns
    rw [if_pos none] at returns
    subst returns
    nofun
  · dsimp only at returns
    split at returns
    case isTrue failed =>
      subst returns
      exact failed
    case isFalse =>
      unfold UpdateOpened at returns
      rw [if_pos none] at returns
      subst returns
      nofun

private theorem flash_planned {after : Device} (size : FlashPages mem.pageSize.toNat)
    (page : d.pageSize = mem.pageSize.toNat) (filled : ∀ part ∈ image, Filled part)
    (few : image.length ≤ maxNumIhexSections) (kept : after.initial = d.initial)
    (geometry : after.toGeometry = d.toGeometry)
    (history : after.history = planned d.toGeometry (startOf image) image) (cell : UInt32) :
    after.flash cell = (left? mem.pageSize.toNat (startOf image)
      (chunks mem.pageSize.toNat image) cell).getD (d.initial cell) := by
  unfold Device.flash overlay
  rw [geometry, history, planned_topmost (page ▸ size) filled few, kept, page]

/-- With a device that lets itself be aborted, and a first section that begins with a page. -/
private theorem right_iff_fitting (size : FlashPages mem.pageSize.toNat)
    (few : sections.length ≤ maxNumIhexSections) (filled : ∀ part ∈ sections, Filled part)
    (some : sections ≠ []) (abortable : Abortable state)
    (aligned : startOf (shifted sections baseAddress) &&& stm32PageErrorMask = 0) :
    UpdatesRight sections baseAddress mem connected leftover state ↔
      Fitting mem.pageSize.toNat (shifted sections baseAddress) := by
  have few' : (shifted sections baseAddress).length ≤ maxNumIhexSections := by
    rw [shifted_length]
    exact few
  have filled' : ∀ part ∈ shifted sections baseAddress, Filled part := shifted_filled filled
  have some' : shifted sections baseAddress ≠ [] := shifted_ne some
  constructor
  · intro right
    have bytes : Nontrivial UInt8 := ⟨0, 1, by decide⟩
    have succeeds (initial : UInt32 → UInt8) : ∃ answer,
        UpdateFirmware sections baseAddress mem connected leftover
          (.prompt ⟨mem.pageSize.toNat, 2048, by decide⟩ state initial) answer ∧
        answer.1 = .none ∧ ∀ cell, answer.2.flash cell = (left? mem.pageSize.toNat
          (startOf (shifted sections baseAddress))
          (chunks mem.pageSize.toNat (shifted sections baseAddress)) cell).getD (initial cell) := by
      let d : Device := .prompt ⟨mem.pageSize.toNat, 2048, by decide⟩ state initial
      have performing := Device.prompt_performing ⟨mem.pageSize.toNat, 2048, by decide⟩ .idle initial
      have ready : ({ d with state := .idle } : Device).Ready := .inl rfl
      obtain ⟨answer, ends⟩ := loops_end size rfl filled' some' performing aligned ready rfl
      obtain ⟨done, always⟩ := loops_finish size rfl filled' some' performing aligned ready rfl ends
      have success := always fun _ => rfl
      obtain ⟨kept, geometry, history⟩ := done success
      exact ⟨answer, (update_abortable some abortable).mpr ends, success,
        flash_planned size rfl filled' few' kept geometry history⟩
    refine ⟨fun part member k inside => ?_, fun cell reached => ?_⟩
    · apply eq_some_of_getD
      intro below
      obtain ⟨answer, returns, success, flash⟩ := succeeds fun _ => below
      have found := (right _ rfl (Device.prompt_performing _ _ _) rfl rfl answer returns success).1
        part member k inside
      rw [flash] at found
      exact found
    · by_contra nobody
      have none : left? mem.pageSize.toNat (startOf (shifted sections baseAddress))
          (chunks mem.pageSize.toNat (shifted sections baseAddress)) cell = none := by
        apply eq_none_of_getD
        intro below
        obtain ⟨answer, returns, success, flash⟩ := succeeds fun _ => below
        have kept := (right _ rfl (Device.prompt_performing _ _ _) rfl rfl answer returns success).2 cell
          fun part member k inside same => nobody ⟨part, member, k, inside, same⟩
        rw [flash] at kept
        exact kept
      rw [none] at reached
      cases reached
  · intro fitting d page performing same fresh answer returns success
    subst same
    have ends := (update_abortable some abortable).mp returns
    have ready : ({ d with state := .idle } : Device).Ready := .inl rfl
    obtain ⟨kept, geometry, history⟩ := (@loops_finish _ mem { d with state := .idle } size page
      filled' some' performing aligned ready fresh answer ends).done success
    have flash := flash_planned size page filled' few' kept geometry history
    refine ⟨fun part member k inside => ?_, fun cell outside => ?_⟩
    · rw [flash, fitting.kept part member k inside]
      rfl
    · have none : left? mem.pageSize.toNat (startOf (shifted sections baseAddress))
          (chunks mem.pageSize.toNat (shifted sections baseAddress)) cell = none := by
        by_contra reached
        obtain ⟨part, member, k, inside, same⟩ :=
          fitting.held cell (Option.isSome_iff_ne_none.mpr reached)
        exact outside part member k inside (page ▸ same)
      rw [flash, none]
      unfold Device.flash
      rw [fresh]
      rfl

/-- Exactly when `updateFirmware` does what it should. -/
theorem updates_right_iff (size : FlashPages mem.pageSize.toNat)
    (few : sections.length ≤ maxNumIhexSections) (filled : ∀ part ∈ sections, Filled part) :
    UpdatesRight sections baseAddress mem connected leftover state ↔
      if Abortable state then
        startOf (shifted sections baseAddress) &&& stm32PageErrorMask = 0 →
          Fitting mem.pageSize.toNat (shifted sections baseAddress)
      else connected = true → leftover = .none → sections = [] := by
  by_cases some : sections = []
  · -- no section: an error is returned, and there is nothing to put anywhere
    have right : UpdatesRight sections baseAddress mem connected leftover state :=
      fun _ _ _ _ _ _ returns success => absurd success (update_nothing sections some returns)
    subst some
    refine iff_of_true right ?_
    split
    · refine fun _ => ⟨nofun, fun cell reached => ?_⟩
      have nothing : left? mem.pageSize.toNat 0 [] cell = .none := by
        unfold left?
        rw [if_neg (by rintro ⟨n, few, -⟩; exact Nat.not_lt_zero n few)]
        rfl
      have reached' : (left? mem.pageSize.toNat 0 [] cell).isSome := reached
      rw [nothing] at reached'
      cases reached'
    · exact fun _ _ => rfl
  · split
    case isTrue abortable =>
      by_cases aligned : startOf (shifted sections baseAddress) &&& stm32PageErrorMask = 0
      · rw [right_iff_fitting size few filled some abortable aligned]
        exact ⟨fun fitting _ => fitting, fun fitting => fitting aligned⟩
      · refine iff_of_true ?_ fun no => absurd no aligned
        intro d _ _ same _ answer returns success
        subst same
        have ends := (update_abortable some abortable).mp returns
        rw [loops_refuse (shifted_ne some) aligned ends] at success
        cases success
    case isFalse stalls =>
      constructor
      · rintro right rfl rfl
        exfalso
        obtain ⟨part, member⟩ := List.exists_mem_of_ne_nil (shifted sections baseAddress) (shifted_ne some)
        have inside : 0 < part.image.length := by
          rw [part.sized]
          exact (shifted_filled filled part member).positive
        have unchanged (value : UInt8) : value = part.image[0] :=
          (right (.prompt ⟨mem.pageSize.toNat, 2048, by decide⟩ state fun _ => value) rfl
            (Device.prompt_performing _ _ _) rfl rfl _ ((update_stalled some stalls).mpr rfl) rfl).1
              part member 0 inside
        have differ : (0 : UInt8) = 1 := (unchanged 0).trans (unchanged 1).symm
        cases differ
      · intro none d _ _ same _ answer returns success
        subst same
        have same := (update_stalled some stalls).mp returns
        subst same
        cases connected with
        | true => exact absurd (none rfl success) some
        | false => cases success

/-- A flash memory of pages of 2 KiB. -/
def internalFlash : DfuMemory where
  address := 0x08000000
  pageSize := 0x800

/-- A single byte. -/
def byteSection (address : UInt32) (byte : UInt8) : ImageSection where
  address
  len := 1
  image := [byte]
  sized := List.length_singleton

private theorem internalFlash_pages : FlashPages internalFlash.pageSize.toNat :=
  ⟨0, by decide, rfl⟩

private theorem bytes_filled {sections : List ImageSection}
    (bytes : ∀ part ∈ sections, part.len = 1) : ∀ part ∈ sections, Filled part := by
  intro part member
  have len := bytes part member
  exact ⟨by rw [len]; decide, by rw [len]; decide⟩

private theorem two_pages (cell : UInt32)
    (reached : (left? 2048 0x08000000 [[7], [9]] cell).isSome) :
    pageOf 2048 cell = pageOf 2048 0x08000000 ∨ pageOf 2048 cell = pageOf 2048 0x08000800 := by
  by_contra different
  obtain ⟨first, second⟩ := not_or.mp different
  have bound := cell.toNat_lt
  have offset : (cell - 0x08000000).toNat = (2 ^ 32 - 0x08000000 + cell.toNat) % 2 ^ 32 :=
    UInt32.toNat_sub ..
  have start : pageAt 2048 0x08000000 0 = 0x08000000 := by decide
  have next : pageAt 2048 0x08000000 1 = 0x08000800 := by decide
  have behind : ¬cell.toNat / 2048 = 65536 := first
  have behind' : ¬cell.toNat / 2048 = 65537 := second
  have none : left? 2048 0x08000000 [[7], [9]] cell = .none := by
    unfold left?
    dsimp only
    rw [if_neg, List.getElem?_eq_none]
    · rfl
    · show 2 ≤ (cell - 0x08000000).toNat / 2048
      omega
    · rintro ⟨n, few, same⟩
      have few : n < 2 := few
      obtain rfl | rfl : n = 0 ∨ n = 1 := by omega
      · rw [start] at same
        exact first same
      · rw [next] at same
        exact second same
  rw [none] at reached
  cases reached

/-- A byte at the start of each of two pages. -/
theorem updates_right_pages : UpdatesRight [byteSection 0 7, byteSection 0x800 9] 0x08000000
    internalFlash true .none .idle := by
  refine (updates_right_iff internalFlash_pages (by decide) (bytes_filled ?_)).mpr
    fun _ => ⟨?_, ?_⟩
  · intro part member
    rcases List.mem_cons.mp member with rfl | later
    · rfl
    · obtain rfl := List.mem_singleton.mp later
      rfl
  · have first : left? 2048 0x08000000 [[7], [9]] 0x08000000 = .some 7 := by decide
    have second : left? 2048 0x08000000 [[7], [9]] 0x08000800 = .some 9 := by decide
    intro part member k inside
    rcases List.mem_cons.mp member with rfl | later
    · obtain rfl : k = 0 := Nat.lt_one_iff.mp inside
      exact first
    · obtain rfl := List.mem_singleton.mp later
      obtain rfl : k = 0 := Nat.lt_one_iff.mp inside
      exact second
  · intro cell reached
    obtain first | second := two_pages cell reached
    · exact ⟨_, .head _, 0, by decide, first.symm⟩
    · exact ⟨_, .tail _ (.head _), 0, by decide, second.symm⟩

/-- A byte behind a gap is written right behind the page of the byte before it. -/
theorem byte_misplaced : ¬UpdatesRight [byteSection 0x08000000 1, byteSection 0x08010000 2] 0
    internalFlash true .libusb .idle := by
  intro right
  have abortable : Abortable .idle := by decide
  have filled : ∀ part ∈ [byteSection 0x08000000 1, byteSection 0x08010000 2], Filled part := by
    refine bytes_filled fun part member => ?_
    rcases List.mem_cons.mp member with rfl | later
    · rfl
    · obtain rfl := List.mem_singleton.mp later
      rfl
  have fitting := (right_iff_fitting internalFlash_pages (by decide) filled nofun abortable
    rfl).mp right
  have kept := fitting.kept (byteSection 0x08010000 2) (.tail _ (.head _)) 0 (by decide)
  revert kept
  decide

end Placement

end Update

end InertialSense.Bootloader
