import Mathlib.Algebra.GroupWithZero.Nat
import Mathlib.Data.List.Perm.Basic

/-! The disk space that the logs may use: `cISLogger::InitSave` and `cISLogger::Update`, with the
walks over the log directory of `ISFileManager.cpp` as they are on Linux. -/

namespace InertialSense.DataLog

/-- What is in a directory, in the order in which `readdir` comes to it. -/
inductive Entries where
  | empty
  | file (name : String) (size : Nat) (modified : Int) (rest : Entries)
  | directory (name : String) (entries rest : Entries)

/-- `FileInfo`. The path is that from the root directory on. -/
structure FileInfo where
  path : List String
  size : Nat
  lastModified : Int
deriving DecidableEq

namespace Entries

def getAllFiles (directory : List String) : Entries → List FileInfo
  | empty => []
  | file name size modified rest =>
    ⟨directory ++ [name], size, modified⟩ :: rest.getAllFiles directory
  | .directory name entries rest =>
    entries.getAllFiles (directory ++ [name]) ++ rest.getAllFiles directory

/-- `GetAllFilesInDirectory`: no name with a dot in front, and nothing below one. -/
def getAllFilesInDirectory (directory : List String) : Entries → List FileInfo
  | empty => []
  | file name size modified rest =>
    if name.front = '.' then rest.getAllFilesInDirectory directory
    else ⟨directory ++ [name], size, modified⟩ :: rest.getAllFilesInDirectory directory
  | .directory name entries rest =>
    if name.front = '.' then rest.getAllFilesInDirectory directory
    else entries.getAllFilesInDirectory (directory ++ [name]) ++
      rest.getAllFilesInDirectory directory

def getDirectorySpaceUsed (e : Entries) : Nat :=
  ((e.getAllFilesInDirectory []).map (·.size)).sum

/-- What is left when these files are removed. -/
def without (paths : List (List String)) (directory : List String) : Entries → Entries
  | empty => .empty
  | file name size modified rest =>
    if directory ++ [name] ∈ paths then rest.without paths directory
    else .file name size modified (rest.without paths directory)
  | .directory name entries rest =>
    .directory name (entries.without paths (directory ++ [name])) (rest.without paths directory)

/-- `RemoveEmptyDirectories`: what is left in the directory, and whether it was empty itself, so
that it is removed. -/
def removeEmptyDirectories : Entries → Entries × Bool
  | empty => (.empty, true)
  | file name size modified rest =>
    (.file name size modified rest.removeEmptyDirectories.1, false)
  | directory name entries rest =>
    if entries.removeEmptyDirectories.2 then rest.removeEmptyDirectories
    else (.directory name entries.removeEmptyDirectories.1 rest.removeEmptyDirectories.1, false)

end Entries

/-- The loop of `RemoveOldestFiles`: the files that are removed. -/
def removeLoop (targetSize : Nat) : Nat → List FileInfo → List FileInfo
  | _, [] => []
  | totalSize, file :: files =>
    if totalSize ≤ targetSize then []
    else file :: removeLoop targetSize (totalSize - file.size) files

/-- `RemoveOldestFiles` may remove these files, in this order. Which order files of the same time
have among themselves is left open by `std::sort`. -/
def RemoveOldestFiles (e : Entries) (targetSize : Nat) (removed : List FileInfo) : Prop :=
  let files := e.getAllFiles []
  let totalSize := (files.map (·.size)).sum
  if totalSize ≤ targetSize then removed = []
  else
    ∃ sorted : List FileInfo, sorted.Perm files ∧
      sorted.Pairwise (fun f g => f.lastModified ≤ g.lastModified) ∧
      removed = removeLoop targetSize totalSize sorted

/-- The limits of `sSaveOptions` that are positive, as byte counts. -/
structure SaveOptions where
  driveUsageLimitPercent : Option Nat
  driveUsageLimitMb : Option Nat

/-- `m_maxDiskSpace` as `InitSave` computes it. -/
def SaveOptions.maxDiskSpace (options : SaveOptions) (availableSpace : Nat) : Nat :=
  let percent :=
    match options.driveUsageLimitPercent with
    | some bytes => bytes
    | none => 0
  let limited :=
    match options.driveUsageLimitMb with
    | some bytes => min percent bytes
    | none => percent
  min limited availableSpace

/-- The fields of `cISLogger` that decide about file culling. -/
structure FileCulling where
  enabled : Bool
  maxDiskSpace : Nat
  timeoutFileCullingSeconds : Int
  lastFileCullingTime : Int

/-- Logging is enabled, and the culling period has elapsed. -/
def FileCulling.Due (l : FileCulling) (timeSec : Int) : Prop :=
  l.enabled = true ∧ 0 < l.timeoutFileCullingSeconds ∧
    l.timeoutFileCullingSeconds ≤ timeSec - l.lastFileCullingTime

/-- `Update` removes these files from the root directory and leaves this of it, if anything. -/
def FileCulling.Update (l : FileCulling) (timeSec : Int) (root : Entries)
    (removed : List FileInfo) (left : Option Entries) : Prop :=
  if l.enabled = true ∧ l.maxDiskSpace ≠ 0 ∧ 0 < l.timeoutFileCullingSeconds ∧
      l.timeoutFileCullingSeconds ≤ timeSec - l.lastFileCullingTime then
    if l.maxDiskSpace < root.getDirectorySpaceUsed then
      RemoveOldestFiles root l.maxDiskSpace removed ∧
        let cleaned := (root.without (removed.map (·.path)) []).removeEmptyDirectories
        left = if cleaned.2 then none else some cleaned.1
    else removed = [] ∧ left = some root
  else removed = [] ∧ left = some root

end InertialSense.DataLog
