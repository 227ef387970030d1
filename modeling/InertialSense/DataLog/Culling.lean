import InertialSense.DataLog.DiskSpace
import InertialSense.Foundation.Trimming
import Mathlib.Data.List.Nodup

/-! Whether file culling enforces the limits: what an `Update` leaves of the log directory. -/

namespace InertialSense.DataLog

open Foundation

def FileInfo.Below (directory : List String) (f : FileInfo) : Prop :=
  directory <+: f.path ∧ f.path ≠ directory

instance (directory : List String) (f : FileInfo) : Decidable (f.Below directory) :=
  inferInstanceAs (Decidable (_ ∧ _))

/-- The path of a file seen from the parent directory. -/
def FileInfo.under (name : String) (f : FileInfo) : FileInfo := { f with path := name :: f.path }

namespace Entries

/-- All files, with their paths from this directory on. -/
def files (e : Entries) : List FileInfo := e.getAllFiles []

def names : Entries → List String
  | empty => []
  | file name _ _ rest => name :: rest.names
  | directory name _ rest => name :: rest.names

/-- No name is twice in a directory. -/
def Distinct : Entries → Prop
  | empty => True
  | file name _ _ rest => name ∉ rest.names ∧ rest.Distinct
  | directory name entries rest => name ∉ rest.names ∧ entries.Distinct ∧ rest.Distinct

def HasDirectory : Entries → List String → Prop
  | _, [] => True
  | empty, _ :: _ => False
  | file _ _ _ rest, path => rest.HasDirectory path
  | directory name entries rest, first :: path =>
    name = first ∧ entries.HasDirectory path ∨ rest.HasDirectory (first :: path)

variable {e : Entries} {paths : List (List String)}

/-! ### The walks -/

private theorem getAllFiles_append (e : Entries) (before directory : List String) :
    e.getAllFiles (before ++ directory) =
      (e.getAllFiles directory).map fun f => { f with path := before ++ f.path } := by
  induction e generalizing directory with
  | empty => rfl
  | file name size modified rest ih =>
    unfold getAllFiles
    rw [ih, List.map_cons, List.append_assoc]
  | directory name entries rest ihEntries ih =>
    unfold getAllFiles
    rw [ih, List.map_append, List.append_assoc, ihEntries]

@[simp] theorem files_empty : empty.files = [] := rfl

@[simp] theorem files_file (name : String) (size : Nat) (modified : Int) (rest : Entries) :
    (file name size modified rest).files = ⟨[name], size, modified⟩ :: rest.files := rfl

@[simp] theorem files_directory (name : String) (entries rest : Entries) :
    (directory name entries rest).files = entries.files.map (.under name) ++ rest.files := by
  show entries.getAllFiles ([] ++ [name]) ++ rest.getAllFiles [] = _
  rw [List.nil_append, ← List.append_nil [name], getAllFiles_append]
  rfl

/-- The walk that measures finds no more than the one that removes. -/
theorem getDirectorySpaceUsed_le (e : Entries) :
    e.getDirectorySpaceUsed ≤ load (·.size) e.files := by
  suffices sub : ∀ directory,
      (e.getAllFilesInDirectory directory).Sublist (e.getAllFiles directory) from
    load_sublist (sub [])
  induction e with
  | empty => exact fun _ => .slnil
  | file name size modified rest ih =>
    intro directory
    unfold getAllFilesInDirectory getAllFiles
    split
    · exact (ih directory).cons _
    · exact (ih directory).cons_cons _
  | directory name entries rest ihEntries ih =>
    intro directory
    unfold getAllFilesInDirectory getAllFiles
    split
    · exact (ih directory).trans (List.sublist_append_right ..)
    · exact (ihEntries _).append (ih directory)

/-- The files that are left are those that are not removed. -/
theorem files_without (e : Entries) (paths : List (List String)) :
    (e.without paths []).files = e.files.filter fun f => f.path ∉ paths := by
  suffices all : ∀ directory, (e.without paths directory).getAllFiles directory =
      (e.getAllFiles directory).filter fun f => f.path ∉ paths from all []
  induction e with
  | empty => exact fun _ => rfl
  | file name size modified rest ih =>
    intro directory
    unfold without
    split
    case isTrue removed =>
      rw [ih, getAllFiles, List.filter_cons_of_neg (by simpa using removed)]
    case isFalse kept =>
      rw [getAllFiles, ih, getAllFiles, List.filter_cons_of_pos (by simpa using kept)]
  | directory name entries rest ihEntries ih =>
    intro directory
    unfold without
    rw [getAllFiles, ihEntries, ih, getAllFiles, List.filter_append]

theorem files_removeEmptyDirectories (e : Entries) :
    e.removeEmptyDirectories.1.files = e.files ∧
      (e.removeEmptyDirectories.2 = true ↔ e.files = []) := by
  induction e with
  | empty => exact ⟨rfl, iff_of_true rfl rfl⟩
  | file name size modified rest ih =>
    unfold removeEmptyDirectories
    rw [files_file, files_file, ih.1]
    exact ⟨rfl, iff_of_false nofun nofun⟩
  | directory name entries rest ihEntries ih =>
    unfold removeEmptyDirectories
    split
    case isTrue none =>
      rw [files_directory, ihEntries.2.mp none]
      exact ih
    case isFalse some =>
      rw [files_directory, files_directory, ihEntries.1, ih.1]
      refine ⟨rfl, iff_of_false nofun fun none => some (ihEntries.2.mpr ?_)⟩
      exact List.map_eq_nil_iff.mp (List.append_eq_nil_iff.mp none).1

theorem path_ne_nil : ∀ f ∈ e.files, f.path ≠ [] := by
  intro f member
  induction e with
  | empty => cases member
  | file name size modified rest ih =>
    rcases List.mem_cons.mp member with rfl | later
    · nofun
    · exact ih later
  | directory name entries rest _ ih =>
    rw [files_directory] at member
    rcases List.mem_append.mp member with inside | later
    · obtain ⟨g, -, rfl⟩ := List.mem_map.mp inside
      nofun
    · exact ih later

private theorem path_head : ∀ f ∈ e.files, ∃ name ∈ e.names, ∃ rest, f.path = name :: rest := by
  intro f member
  induction e with
  | empty => cases member
  | file name size modified rest ih =>
    rcases List.mem_cons.mp member with rfl | later
    · exact ⟨name, .head _, [], rfl⟩
    · obtain ⟨other, known, path⟩ := ih later
      exact ⟨other, .tail _ known, path⟩
  | directory name entries rest _ ih =>
    rw [files_directory] at member
    rcases List.mem_append.mp member with inside | later
    · obtain ⟨g, -, rfl⟩ := List.mem_map.mp inside
      exact ⟨name, .head _, g.path, rfl⟩
    · obtain ⟨other, known, path⟩ := ih later
      exact ⟨other, .tail _ known, path⟩

theorem Distinct.paths_nodup (distinct : e.Distinct) : (e.files.map (·.path)).Nodup := by
  induction e with
  | empty => exact .nil
  | file name size modified rest ih =>
    obtain ⟨new, distinct'⟩ := distinct
    rw [files_file, List.map_cons, List.nodup_cons]
    refine ⟨fun member => new ?_, ih distinct'⟩
    obtain ⟨f, known, path⟩ := List.mem_map.mp member
    obtain ⟨other, known', rest', path'⟩ := path_head f known
    rw [path] at path'
    rwa [(List.cons.inj path').1]
  | directory name entries rest ihEntries ih =>
    obtain ⟨new, distinct', distinct''⟩ := distinct
    rw [files_directory, List.map_append, List.nodup_append]
    refine ⟨?_, ih distinct'', ?_⟩
    · rw [List.map_map]
      have paths : (FileInfo.path ∘ FileInfo.under name) = (List.cons name ∘ FileInfo.path) := rfl
      rw [paths, ← List.map_map]
      exact List.Nodup.map (fun _ _ same => (List.cons.inj same).2) (ihEntries distinct')
    · intro path inside path' later same
      subst same
      obtain ⟨f, known, rfl⟩ := List.mem_map.mp inside
      obtain ⟨g, -, rfl⟩ := List.mem_map.mp known
      obtain ⟨f, known', path⟩ := List.mem_map.mp later
      obtain ⟨other, known'', rest', path'⟩ := path_head f known'
      rw [path] at path'
      exact new ((List.cons.inj path').1 ▸ known'')

theorem hasDirectory_nil (e : Entries) : e.HasDirectory [] := by
  cases e <;> trivial

theorem hasDirectory_removeEmptyDirectories (e : Entries) (first : String) (path : List String) :
    e.removeEmptyDirectories.1.HasDirectory (first :: path) ↔
      ∃ f ∈ e.files, f.Below (first :: path) := by
  induction e generalizing first path with
  | empty => exact iff_of_false nofun (by rintro ⟨f, member, -⟩; cases member)
  | file name size modified rest ih =>
    have outside : ¬FileInfo.Below (first :: path) ⟨[name], size, modified⟩ := by
      rintro ⟨⟨behind, whole⟩, other⟩
      obtain ⟨rfl, rest'⟩ := List.cons.inj whole
      obtain ⟨rfl, -⟩ := List.append_eq_nil_iff.mp rest'
      exact other rfl
    show rest.removeEmptyDirectories.1.HasDirectory (first :: path) ↔ _
    rw [ih, files_file]
    constructor
    · rintro ⟨f, member, below⟩
      exact ⟨f, .tail _ member, below⟩
    · rintro ⟨f, member, below⟩
      rcases List.mem_cons.mp member with rfl | later
      · exact absurd below outside
      · exact ⟨f, later, below⟩
  | directory name entries rest ihEntries ih =>
    have inner (g : FileInfo) : (g.under name).Below (first :: path) ↔
        name = first ∧ g.Below path := by
      unfold FileInfo.Below FileInfo.under
      dsimp only
      rw [List.cons_prefix_cons]
      constructor
      · rintro ⟨⟨rfl, start⟩, other⟩
        exact ⟨rfl, start, fun same => other (congrArg _ same)⟩
      · rintro ⟨rfl, start, other⟩
        exact ⟨⟨rfl, start⟩, fun same => other (List.cons.inj same).2⟩
    have parts : (∃ f ∈ (Entries.directory name entries rest).files, f.Below (first :: path)) ↔
        (name = first ∧ ∃ g ∈ entries.files, g.Below path) ∨
          ∃ f ∈ rest.files, f.Below (first :: path) := by
      rw [files_directory]
      constructor
      · rintro ⟨f, member, below⟩
        rcases List.mem_append.mp member with inside | later
        · obtain ⟨g, known, rfl⟩ := List.mem_map.mp inside
          obtain ⟨same, below'⟩ := (inner g).mp below
          exact .inl ⟨same, g, known, below'⟩
        · exact .inr ⟨f, later, below⟩
      · rintro (⟨same, g, known, below⟩ | ⟨f, later, below⟩)
        · exact ⟨g.under name, List.mem_append_left _ (List.mem_map_of_mem known),
            (inner g).mpr ⟨same, below⟩⟩
        · exact ⟨f, List.mem_append_right _ later, below⟩
    obtain ⟨-, emptied⟩ := entries.files_removeEmptyDirectories
    rw [parts]
    unfold removeEmptyDirectories
    split
    case isTrue none =>
      rw [ih, emptied.mp none]
      constructor
      · exact .inr
      · rintro (⟨-, g, known, -⟩ | later)
        · cases known
        · exact later
    case isFalse some =>
      show _ ∧ _ ∨ _ ↔ _
      rw [ih]
      refine or_congr (and_congr_right fun _ => ?_) Iff.rfl
      cases path with
      | cons second path => exact ihEntries second path
      | nil =>
        refine iff_of_true (hasDirectory_nil _) ?_
        obtain ⟨g, known⟩ := List.exists_mem_of_ne_nil _ fun none => some (emptied.mpr none)
        exact ⟨g, known, List.nil_prefix, path_ne_nil g known⟩

end Entries

/-! ### What is removed -/

/-- What is left of the root directory has these files. -/
def leftFiles (left : Option Entries) : List FileInfo :=
  match left with
  | none => []
  | some e => e.files

/-- The directory is still there. -/
def Remains (left : Option Entries) (directory : List String) : Prop :=
  match left with
  | none => False
  | some e => e.HasDirectory directory

/-- What is left of the root directory when these files have been removed, and then all directories
without a file. -/
def leftOf (root : Entries) (removed : List FileInfo) : Option Entries :=
  let cleaned := (root.without (removed.map (·.path)) []).removeEmptyDirectories
  if cleaned.2 then none else some cleaned.1

section Left

variable {root : Entries} {removed : List FileInfo} {directory : List String}

theorem leftFiles_leftOf :
    leftFiles (leftOf root removed) = (root.without (removed.map (·.path)) []).files := by
  obtain ⟨same, emptied⟩ :=
    (root.without (removed.map (·.path)) []).files_removeEmptyDirectories
  unfold leftOf
  dsimp only
  split
  case isTrue none => exact (emptied.mp none).symm
  case isFalse => exact same

theorem remains_leftOf : Remains (leftOf root removed) directory ↔
    ∃ f ∈ (root.without (removed.map (·.path)) []).files, f.Below directory := by
  obtain ⟨-, emptied⟩ := (root.without (removed.map (·.path)) []).files_removeEmptyDirectories
  unfold leftOf
  dsimp only
  split
  case isTrue none =>
    rw [emptied.mp none]
    exact iff_of_false id (by rintro ⟨f, member, -⟩; cases member)
  case isFalse some =>
    cases directory with
    | nil =>
      refine iff_of_true (Entries.hasDirectory_nil _) ?_
      obtain ⟨f, known⟩ := List.exists_mem_of_ne_nil _ fun none => some (emptied.mpr none)
      exact ⟨f, known, List.nil_prefix, Entries.path_ne_nil f known⟩
    | cons first path => exact Entries.hasDirectory_removeEmptyDirectories _ first path

end Left

section Removal

variable {targetSize : Nat} {sorted : List FileInfo} {e : Entries}

/-- The loop removes from the front until the rest is within the limit. -/
private theorem removeLoop_trimmed (sorted : List FileInfo) (targetSize : Nat) :
    ∃ kept, Trimmed (·.size) targetSize sorted
      (removeLoop targetSize (load (·.size) sorted) sorted) kept := by
  induction sorted with
  | nil =>
    refine ⟨[], rfl, Nat.zero_le _, fun earlier x later none => ?_⟩
    cases earlier <;> cases none
  | cons f rest ih =>
    unfold removeLoop
    split
    case isTrue within =>
      refine ⟨f :: rest, rfl, within, fun earlier x later none => ?_⟩
      cases earlier <;> cases none
    case isFalse exceeds =>
      have less : load (·.size) (f :: rest) - f.size = load (·.size) rest := by
        rw [load_cons, Nat.add_sub_cancel_left]
      rw [less]
      obtain ⟨kept, trimmed⟩ := ih
      refine ⟨kept, congrArg (f :: ·) trimmed.split, trimmed.within,
        fun earlier x later order => ?_⟩
      cases earlier with
      | nil =>
        obtain ⟨rfl, rfl⟩ := List.cons.inj order
        rw [← load_append, List.cons_append, ← trimmed.split]
        exact Nat.lt_of_not_le exceeds
      | cons g earlier =>
        obtain ⟨-, order'⟩ := List.cons.inj order
        exact trimmed.needed earlier x later order'

private theorem files_left (distinct : e.Distinct) (perm : sorted.Perm e.files)
    {removed kept : List FileInfo} (split : sorted = removed ++ kept) :
    (e.without (removed.map (·.path)) []).files.Perm kept := by
  have nodup : (sorted.map (·.path)).Nodup :=
    (perm.map _).nodup_iff.mpr distinct.paths_nodup
  rw [split, List.map_append, List.nodup_append] at nodup
  rw [Entries.files_without]
  refine (perm.symm.filter _).trans (.of_eq ?_)
  rw [split, List.filter_append, List.filter_eq_nil_iff.mpr, List.filter_eq_self.mpr]
  · rfl
  · intro f member
    refine decide_eq_true fun gone => ?_
    obtain ⟨-, -, apart⟩ := nodup
    exact apart f.path gone f.path (List.mem_map_of_mem member) rfl
  · intro f member kept
    exact of_decide_eq_true kept (List.mem_map_of_mem member)

end Removal

/-! ### The limits -/

def SaveOptions.smallestLimit (options : SaveOptions) : Option Nat :=
  ((options.driveUsageLimitPercent.toList ++ options.driveUsageLimitMb.toList).filter
    (0 < ·)).min?

/-- What file culling is for: the files that are left are within the smallest limit; no file was
removed while an older one is kept; each was removed because the limit was exceeded; and the log
directory is still there. -/
structure Enforced (options : SaveOptions) (availableSpace : Nat) (directory : List String)
    (root : Entries) (removed : List FileInfo) (left : Option Entries) : Prop where
  within : ∀ limit ∈ options.smallestLimit, load (·.size) (leftFiles left) ≤ limit
  oldest : ∀ f ∈ root.files, f ∉ leftFiles left → ∀ g ∈ leftFiles left,
    f.lastModified ≤ g.lastModified
  needed : ∀ earlier f later, removed = earlier ++ f :: later →
    options.maxDiskSpace availableSpace < load (·.size) root.files - load (·.size) earlier
  others : ∀ f ∈ root.files, f ∉ removed → f ∈ leftFiles left
  remains : Remains left directory

/-- Every `Update` that is due for file culling does so. -/
def EnforcesLimits (options : SaveOptions) (availableSpace : Nat) (directory : List String)
    (root : Entries) : Prop :=
  ∀ (l : FileCulling) (timeSec : Int) (removed : List FileInfo) (left : Option Entries),
    l.maxDiskSpace = options.maxDiskSpace availableSpace → l.Due timeSec →
      l.Update timeSec root removed left →
        Enforced options availableSpace directory root removed left

/-- A newest file of the directory is within the limit together with all files elsewhere that are
not older. -/
def NewestFits (limit : Nat) (directory : List String) (root : Entries) : Prop :=
  (∃ f ∈ root.files, f.Below directory) ∧
    ∀ f ∈ root.files, f.Below directory →
      (∀ g ∈ root.files, g.Below directory → g.lastModified ≤ f.lastModified) →
        f.size + load (·.size) (root.files.filter fun g =>
          ¬g.Below directory ∧ f.lastModified ≤ g.lastModified) ≤ limit

section Limits

variable {options : SaveOptions} {availableSpace : Nat} {directory : List String} {root : Entries}

private theorem maxDiskSpace_le (positive : options.maxDiskSpace availableSpace ≠ 0) :
    ∀ limit ∈ options.smallestLimit, options.maxDiskSpace availableSpace ≤ limit := by
  intro limit smallest
  obtain ⟨percent, megabytes⟩ := options
  have member := List.min?_mem smallest
  obtain ⟨known, -⟩ := List.mem_filter.mp member
  unfold SaveOptions.maxDiskSpace at *
  cases percent with
  | none =>
    cases megabytes with
    | none => cases known
    | some megabytes => exact absurd (by simp) positive
  | some percent =>
    cases megabytes with
    | none =>
      obtain rfl := List.mem_singleton.mp known
      exact Nat.min_le_left ..
    | some megabytes =>
      rcases List.mem_cons.mp known with rfl | later
      · exact Nat.le_trans (Nat.min_le_left ..) (Nat.min_le_left ..)
      · obtain rfl := List.mem_singleton.mp later
        exact Nat.le_trans (Nat.min_le_left ..) (Nat.min_le_right ..)

/-! ### The log directory -/

section Newest

variable {limit : Nat} {sorted dropped kept : List FileInfo}

/-- In whatever order: the last file of the directory is kept. -/
private theorem newest_kept (perm : sorted.Perm root.files)
    (order : sorted.Pairwise fun f g => f.lastModified ≤ g.lastModified)
    (trimmed : Trimmed (·.size) limit sorted dropped kept)
    (fits : NewestFits limit directory root) : ∃ f ∈ kept, f.Below directory := by
  obtain ⟨⟨g, known, inside⟩, newest⟩ := fits
  obtain ⟨first, f, last, split, below, outside⟩ :=
    exists_last ⟨g, perm.mem_iff.mpr known, inside⟩
  refine ⟨f, trimmed.keeps split ?_, below⟩
  rw [split, List.pairwise_append, List.pairwise_cons] at order
  obtain ⟨-, ⟨behind, -⟩, before⟩ := order
  have member : f ∈ root.files := by
    rw [← perm.mem_iff, split]
    exact List.mem_append_right _ (.head _)
  have latest : ∀ g ∈ root.files, g.Below directory → g.lastModified ≤ f.lastModified := by
    intro g known inside
    rw [← perm.mem_iff, split] at known
    rcases List.mem_append.mp known with early | late
    · exact before g early f (.head _)
    · rcases List.mem_cons.mp late with rfl | later
      · exact Int.le_refl _
      · exact absurd inside (outside g later)
  refine Nat.le_trans (Nat.add_le_add_left ?_ f.size) (newest f member below latest)
  have whole : last.filter (fun g => ¬g.Below directory ∧ f.lastModified ≤ g.lastModified) = last :=
    List.filter_eq_self.mpr fun g later => decide_eq_true ⟨outside g later, behind g later⟩
  rw [← load_perm (perm.filter _), split, List.filter_append,
    List.filter_cons_of_neg (by simpa using below), whole]
  exact load_sublist (List.sublist_append_right ..)

private theorem sorted_of (files : List FileInfo) : ∃ sorted : List FileInfo, sorted.Perm files ∧
    sorted.Pairwise fun f g => f.lastModified ≤ g.lastModified := by
  refine ⟨files.mergeSort fun f g => decide (f.lastModified ≤ g.lastModified),
    List.mergeSort_perm .., ?_⟩
  have transitive (f g h : FileInfo) (first : decide (f.lastModified ≤ g.lastModified) = true)
      (second : decide (g.lastModified ≤ h.lastModified) = true) :
      decide (f.lastModified ≤ h.lastModified) = true :=
    decide_eq_true (Int.le_trans (of_decide_eq_true first) (of_decide_eq_true second))
  have total (f g : FileInfo) : (decide (f.lastModified ≤ g.lastModified) ||
      decide (g.lastModified ≤ f.lastModified)) = true := by
    rw [Bool.or_eq_true, decide_eq_true_eq, decide_eq_true_eq]
    exact Int.le_total ..
  exact (List.pairwise_mergeSort transitive total files).imp fun less => of_decide_eq_true less

/-- In some order, no file of the directory is kept. -/
private theorem newest_lost (exceeds : ¬NewestFits limit directory root) :
    ∃ sorted : List FileInfo, sorted.Perm root.files ∧
      sorted.Pairwise (fun f g => f.lastModified ≤ g.lastModified) ∧
      ∀ dropped kept, Trimmed (·.size) limit sorted dropped kept →
        ∀ g ∈ kept, ¬g.Below directory := by
  by_cases some : ∃ f ∈ root.files, f.Below directory
  · have found : ∃ f ∈ root.files, f.Below directory ∧
        (∀ g ∈ root.files, g.Below directory → g.lastModified ≤ f.lastModified) ∧
          limit < f.size + load (·.size) (root.files.filter fun g =>
            ¬g.Below directory ∧ f.lastModified ≤ g.lastModified) := by
      by_contra none
      refine exceeds ⟨some, fun f member below newest => Nat.le_of_not_lt fun less => none ?_⟩
      exact ⟨f, member, below, newest, less⟩
    obtain ⟨f, member, below, newest, less⟩ := found
    -- the other files of the directory come before this one, those elsewhere as late as they can
    let late (g : FileInfo) : Bool := ¬g.Below directory ∧ f.lastModified ≤ g.lastModified
    have perm := List.perm_cons_erase member
    obtain ⟨front, perm₁, order₁⟩ := sorted_of ((root.files.erase f).filter fun g => !late g)
    obtain ⟨back, perm₂, order₂⟩ := sorted_of ((root.files.erase f).filter late)
    have early : ∀ g ∈ front, g.lastModified ≤ f.lastModified := by
      intro g known
      obtain ⟨inside, notLate⟩ := List.mem_filter.mp (perm₁.mem_iff.mp known)
      by_cases below' : g.Below directory
      · exact newest g (List.mem_of_mem_erase inside) below'
      · by_contra later
        have isLate : late g = true := decide_eq_true ⟨below', Int.le_of_lt (Int.not_le.mp later)⟩
        rw [isLate] at notLate
        cases notLate
    have behind : ∀ g ∈ back, ¬g.Below directory ∧ f.lastModified ≤ g.lastModified := by
      intro g known
      exact of_decide_eq_true (List.mem_filter.mp (perm₂.mem_iff.mp known)).2
    refine ⟨front ++ f :: back, ?_, ?_, fun dropped kept trimmed g known => ?_⟩
    · refine List.perm_middle.trans (.trans (.cons f ?_) perm.symm)
      refine (perm₁.append perm₂).trans (List.perm_append_comm.trans ?_)
      exact List.filter_append_perm late _
    · rw [List.pairwise_append, List.pairwise_cons]
      refine ⟨order₁, ⟨fun g known => (behind g known).2, order₂⟩, fun g known h known' => ?_⟩
      rcases List.mem_cons.mp known' with rfl | later
      · exact early g known
      · exact Int.le_trans (early g known) (behind h later).2
    · have exceeds' : limit < load (·.size) (f :: back) := by
        have same : (root.files.filter fun g =>
            ¬g.Below directory ∧ f.lastModified ≤ g.lastModified).Perm back := by
          refine ((perm.filter _).trans (.of_eq ?_)).trans perm₂.symm
          exact List.filter_cons_of_neg (by simpa using below)
        rw [load_cons, ← load_perm same]
        exact less
      exact (behind g (trimmed.kept_behind rfl exceeds' g known)).1
  · obtain ⟨sorted, perm, order⟩ := sorted_of root.files
    refine ⟨sorted, perm, order, fun dropped kept trimmed g known below => some ⟨g, ?_, below⟩⟩
    rw [← perm.mem_iff, trimmed.split]
    exact List.mem_append_right _ known

end Newest

private theorem update_culls {l : FileCulling} {timeSec : Int} {removed : List FileInfo}
    {left : Option Entries} (limit : l.maxDiskSpace = options.maxDiskSpace availableSpace)
    (due : l.Due timeSec) (positive : options.maxDiskSpace availableSpace ≠ 0)
    (exceeds : options.maxDiskSpace availableSpace < root.getDirectorySpaceUsed) :
    l.Update timeSec root removed left ↔
      (∃ sorted, sorted.Perm root.files ∧
        sorted.Pairwise (fun f g => f.lastModified ≤ g.lastModified) ∧
        removed = removeLoop (options.maxDiskSpace availableSpace) (load (·.size) root.files)
          sorted) ∧
      left = leftOf root removed := by
  have total : ¬((root.getAllFiles []).map (·.size)).sum ≤ options.maxDiskSpace availableSpace :=
    Nat.not_le_of_lt (Nat.lt_of_lt_of_le exceeds root.getDirectorySpaceUsed_le)
  unfold FileCulling.Update
  rw [limit, if_pos ⟨due.1, positive, due.2⟩, if_pos exceeds]
  unfold RemoveOldestFiles
  dsimp only
  rw [if_neg total]
  rfl

/-- It enforces the limits, but for the log directory. -/
private theorem culling_enforces {removed kept sorted : List FileInfo} (distinct : root.Distinct)
    (positive : options.maxDiskSpace availableSpace ≠ 0) (perm : sorted.Perm root.files)
    (order : sorted.Pairwise fun f g => f.lastModified ≤ g.lastModified)
    (trimmed : Trimmed (·.size) (options.maxDiskSpace availableSpace) sorted removed kept) :
    Enforced options availableSpace directory root removed (leftOf root removed) ↔
      ∃ f ∈ kept, f.Below directory := by
  have files := files_left distinct perm trimmed.split
  rw [← leftFiles_leftOf] at files
  have remains : Remains (leftOf root removed) directory ↔ ∃ f ∈ kept, f.Below directory := by
    rw [remains_leftOf, ← leftFiles_leftOf]
    exact exists_congr fun f => and_congr_left fun _ => files.mem_iff
  have either {f : FileInfo} (member : f ∈ root.files) : f ∈ removed ∨ f ∈ kept := by
    rw [← perm.mem_iff, trimmed.split] at member
    exact List.mem_append.mp member
  constructor
  · exact fun enforced => remains.mp enforced.remains
  · intro some
    refine ⟨fun limit smallest => ?_, fun f member gone g known => ?_,
      fun earlier f later split => ?_, fun f member stays => ?_, remains.mpr some⟩
    · rw [load_perm files]
      exact Nat.le_trans trimmed.within (maxDiskSpace_le positive limit smallest)
    · rw [files.mem_iff] at gone known
      have first := (either member).resolve_right gone
      rw [trimmed.split, List.pairwise_append] at order
      exact order.2.2 f first g known
    · have needed := trimmed.needed earlier f later split
      rw [← load_perm perm, trimmed.split, split, load_append, load_append]
      omega
    · rw [files.mem_iff]
      exact (either member).resolve_left stays

private theorem update_keeps {l : FileCulling} {timeSec : Int} {removed : List FileInfo}
    {left : Option Entries} (limit : l.maxDiskSpace = options.maxDiskSpace availableSpace)
    (idle : ¬(options.maxDiskSpace availableSpace ≠ 0 ∧
      options.maxDiskSpace availableSpace < root.getDirectorySpaceUsed)) :
    l.Update timeSec root removed left ↔ removed = [] ∧ left = some root := by
  unfold FileCulling.Update
  rw [limit]
  split
  case isTrue due =>
    rw [if_neg fun exceeds => idle ⟨due.2.1, exceeds⟩]
  case isFalse => rfl

/-- Exactly when file culling enforces the limits. -/
theorem limits_enforced_iff (distinct : root.Distinct) (present : root.HasDirectory directory) :
    EnforcesLimits options availableSpace directory root ↔
      if options.maxDiskSpace availableSpace ≠ 0 ∧
          options.maxDiskSpace availableSpace < root.getDirectorySpaceUsed then
        NewestFits (options.maxDiskSpace availableSpace) directory root
      else ∀ limit ∈ options.smallestLimit, load (·.size) root.files ≤ limit := by
  let l : FileCulling := ⟨true, options.maxDiskSpace availableSpace, 1, 0⟩
  have due : l.Due 1 := ⟨rfl, Int.one_pos, Int.le_refl 1⟩
  split
  case isTrue culls =>
    obtain ⟨positive, exceeds⟩ := culls
    constructor
    · intro enforces
      by_contra lost
      obtain ⟨sorted, perm, order, none⟩ := newest_lost lost
      obtain ⟨kept, trimmed⟩ := removeLoop_trimmed sorted (options.maxDiskSpace availableSpace)
      rw [load_perm perm] at trimmed
      have update := (update_culls (l := l) rfl due positive exceeds).mpr
        ⟨⟨sorted, perm, order, rfl⟩, rfl⟩
      have enforced := enforces l 1 _ _ rfl due update
      obtain ⟨f, known, below⟩ :=
        (culling_enforces distinct positive perm order trimmed).mp enforced
      exact none _ kept trimmed f known below
    · intro fits l timeSec removed left limit due update
      obtain ⟨⟨sorted, perm, order, rfl⟩, rfl⟩ :=
        (update_culls limit due positive exceeds).mp update
      obtain ⟨kept, trimmed⟩ := removeLoop_trimmed sorted (options.maxDiskSpace availableSpace)
      rw [load_perm perm] at trimmed
      exact (culling_enforces distinct positive perm order trimmed).mpr
        (newest_kept perm order trimmed fits)
  case isFalse idle =>
    constructor
    · intro enforces
      exact (enforces l 1 [] (some root) rfl due ((update_keeps rfl idle).mpr ⟨rfl, rfl⟩)).within
    · intro within l timeSec removed left limit _ update
      obtain ⟨rfl, rfl⟩ := (update_keeps limit idle).mp update
      refine ⟨within, fun f member gone => absurd member gone, fun earlier f later none => ?_,
        fun f member _ => member, present⟩
      cases earlier <;> cases none

end Limits

/-- A percent limit of 1 MiB, an older log of 2 MiB and a new log directory. -/
theorem limits_enforced_percent :
    EnforcesLimits ⟨some 1048576, none⟩ 1073741824 ["20240102"]
      (.directory "20240101" (.file "LOG.raw" 2097152 100 .empty)
        (.directory "20240102" (.file "stats_all.txt" 0 200 .empty) .empty)) := by
  refine (limits_enforced_iff ?_ ?_).mpr ?_
  · exact ⟨by decide, ⟨nofun, trivial⟩, nofun, ⟨nofun, trivial⟩, trivial⟩
  · exact .inr (.inl ⟨rfl, trivial⟩)
  · rw [if_pos ⟨by decide, by decide⟩]
    exact ⟨by decide, by decide⟩

/-- A limit in megabytes alone disables file culling. -/
theorem megabytes_not_enforced :
    ¬EnforcesLimits ⟨none, some 1048576⟩ 1073741824 ["20240101"]
      (.directory "20240101" (.file "LOG.raw" 2097152 100 .empty) .empty) := by
  intro enforces
  have off : SaveOptions.maxDiskSpace ⟨none, some 1048576⟩ 1073741824 = 0 := rfl
  have within := (enforces ⟨true, 0, 1, 0⟩ 1 [] _ rfl ⟨rfl, Int.one_pos, Int.le_refl 1⟩
    ((update_keeps rfl fun culls => culls.1 off).mpr ⟨rfl, rfl⟩)).within
  have smallest : 1048576 ∈ SaveOptions.smallestLimit ⟨none, some 1048576⟩ := rfl
  exact absurd (within 1048576 smallest) (by decide)

end InertialSense.DataLog
