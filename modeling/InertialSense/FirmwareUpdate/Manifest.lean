import InertialSense.FirmwareUpdate.Updater
import InertialSense.Foundation.Journal
import InertialSense.Foundation.Strtol

/-! `processPackageManifest` of `ISFirmwareUpdater`: the commands that a manifest adds to the queue,
one entry after another, until one of them is refused. -/

namespace InertialSense.FirmwareUpdate

open Foundation
open Md5 (Hash)

/-! ### YAML nodes -/

/-- A node as `yaml-cpp` has parsed it. -/
inductive Yaml where
  | null
  | scalar (text : String)
  | sequence (items : List Yaml)
  | map (entries : List (Yaml × Yaml))

namespace Yaml

def scalar? : Yaml → Option String
  | .scalar text => some text
  | _ => none

/-- `as<std::string>()`, which throws for a sequence and for a map. -/
def asString : Yaml → Option String
  | .null => some "null"
  | .scalar text => some text
  | .sequence _ | .map _ => none

/-- `operator[]` of a map; `none` is an undefined node. -/
def lookup (key : String) (entries : List (Yaml × Yaml)) : Option Yaml :=
  (entries.find? fun entry => entry.1.scalar? = some key).map Prod.snd

/-- What a `for` loop over a node finds. The items of a sequence have no `first` and no
`second`. -/
def pairs : Yaml → List (Option (Yaml × Yaml))
  | .null | .scalar _ => []
  | .sequence items => items.map fun _ => none
  | .map entries => entries.map some

/-- `as<int>()` of a scalar: a decimal, octal or hexadecimal number of 32 bits with nothing but
white space behind it. -/
def asInt (text : String) : Option Int :=
  let (negative, field) := signOf text.toList
  let (base, field) :=
    match field with
    | '0' :: 'x' :: field | '0' :: 'X' :: field => (16, field)
    | '0' :: field => (8, '0' :: field)
    | field => (10, field)
  let digits := field.takeWhile (isDigitOf base)
  let magnitude : Int := numberOf base 0 digits
  let value := if negative then -magnitude else magnitude
  if digits ≠ [] ∧ (field.dropWhile (isDigitOf base)).all isSpace ∧ -2 ^ 31 ≤ value ∧
      value < 2 ^ 31 then some value
  else none

end Yaml

/-! ### Files -/

/-- One hexadecimal digit of `md5_from_char_array`. -/
def md5Nibble (c : UInt8) : UInt8 := if c ≤ 57 then c - 48 else (c &&& 0x7) + 9

/-- The bytes of `md5_from_char_array`. -/
def md5Bytes : List UInt8 → List UInt8
  | high :: low :: rest => (md5Nibble high <<< 4 ||| md5Nibble low) :: md5Bytes rest
  | _ => []

/-- `md5_from_string`; a text that is too short gives zeros. -/
def md5FromString (text : String) : Hash :=
  let bytes := text.toUTF8.toList
  if bytes.length < 32 then { a := 0, b := 0, c := 0, d := 0 }
  else
    match Md5.decode (md5Bytes (bytes.take 32)) with
    | [a, b, c, d] => { a, b, c, d }
    | _ => { a := 0, b := 0, c := 0, d := 0 }

/-- The sizes of the files in an archive, if there is one, and what `md5_file_details` finds out
about the files of the system: size and digest of those that can be read. -/
structure PackageFiles where
  archive : Option (String → Option Nat)
  system : String → Option (Nat × Hash)

/-- The name under which an image file is uploaded, its size, and the digest it is checked by. -/
structure ImageFile where
  name : String
  size : Nat
  md5 : Option Hash

def PackageFiles.locate (files : PackageFiles) (filename : String) : Option ImageFile :=
  match files.archive with
  | some archive =>
    (archive filename).map fun size => { name := "pkg://" ++ filename, size, md5 := none }
  | none =>
    (files.system filename).map fun details =>
      { name := filename, size := details.1, md5 := some details.2 }

/-! ### Entries of the manifest -/

/-- Why `processPackageManifest` ends before the end of the manifest: it returns an error or it
throws an exception. -/
inductive Stop where
  | error (code : PkgError) (failed : code ≠ .success := by decide)
  | exception

/-- `as<..>()` or an exception. -/
def converted {α : Type} : Option α → Except Stop α
  | some value => .ok value
  | none => .error .exception

/-- A check that returns an error where it fails. -/
def ensure (condition : Prop) [Decidable condition] (code : PkgError)
    (failed : code ≠ .success := by decide) : Except Stop Unit :=
  if condition then .ok () else .error (.error code failed)

/-- The size of an image, where the manifest states it. -/
def checkImageSize (image : List (Yaml × Yaml)) (file : ImageFile) : Except Stop Unit :=
  match Yaml.lookup "size" image with
  | some (.scalar text) => do
    let imageSize ← converted (Yaml.asInt text)
    ensure ((UInt32.ofInt imageSize).toNat = file.size) .imageFileSizeMismatch
  | _ => .ok ()

/-- The digest of an image, where the manifest states it and the file is not in an archive. -/
def checkImageMd5 (image : List (Yaml × Yaml)) (file : ImageFile) : Except Stop Unit :=
  match file.md5, Yaml.lookup "md5sum" image with
  | some hash, some (.scalar text) => ensure (md5FromString text = hash) .imageFileMd5Mismatch
  | _, _ => .ok ()

def imageSlot (image : List (Yaml × Yaml)) : Except Stop Int :=
  match Yaml.lookup "slot" image with
  | some (.scalar text) => converted (Yaml.asInt text)
  | _ => .ok 0

def uploadCommands (image : List (Yaml × Yaml)) (file : ImageFile) : Except Stop (List String) := do
  checkImageSize image file
  checkImageMd5 image file
  let slot ← imageSlot image
  return ["slot=" ++ toString slot, "upload=" ++ file.name]

/-- The commands for an action `image`. -/
def imageCommands (files : PackageFiles) (images : List (Yaml × Yaml)) (name : String) :
    Except Stop (List String) :=
  match Yaml.lookup name images with
  | some (.map image) =>
    match Yaml.lookup "filename" image with
    | some path => do
      let filename ← converted path.asString
      match files.locate filename with
      | some file => uploadCommands image file
      | none => .error (.error .imageFileNotFound)
    | none => .error (.error .imageUnknownPath)
  | _ => .error (.error .imageInvalidReference)

def targetNames : List String := ["IMX5", "GPX1", "GNSS1", "GNSS2"]

/-- The commands for an action with its name and its argument. -/
def namedCommands (files : PackageFiles) (images : List (Yaml × Yaml)) (cmdName cmdArg : String) :
    Except Stop (List String) :=
  if cmdName = "target" then
    if cmdArg ∈ targetNames then .ok ["target=" ++ cmdArg]
    else .error (.error .unsupportedTarget)
  else if cmdName = "image" then imageCommands files images cmdArg
  else .ok [cmdName ++ "=" ++ cmdArg]

/-- The commands for one action; `none` is an item of a sequence. -/
def actionCommands (files : PackageFiles) (images : List (Yaml × Yaml)) :
    Option (Yaml × Yaml) → Except Stop (List String)
  | none => .error .exception
  | some (first, second) => do
    let cmdName ← converted first.asString
    let cmdArg ← converted second.asString
    namedCommands files images cmdName cmdArg

/-- The label for a target, whose actions must be a sequence. -/
def targetCommands : Option (Yaml × Yaml) → Except Stop (List String)
  | none => .error .exception
  | some (key, actions) =>
    match key.scalar? with
    | none => .error (.error .invalidTarget)
    | some stepName =>
      match actions with
      | .sequence _ => .ok [":" ++ stepName]
      | _ => .error (.error .noActions)

/-! ### The manifest -/

/-- What a manifest adds to the queue. -/
abbrev Queued := Journal String Stop

/-- The actions of a target. -/
def processActions (files : PackageFiles) (images : List (Yaml × Yaml)) (actions : List Yaml) :
    Queued :=
  Journal.forEach
    (fun action =>
      Journal.forEach (fun cmd => Journal.of (actionCommands files images cmd)) action.pairs)
    actions

/-- One target of a step. -/
def processTarget (files : PackageFiles) (images : List (Yaml × Yaml))
    (target : Option (Yaml × Yaml)) : Queued :=
  (Journal.of (targetCommands target)).andThen <|
    match target with
    | some (_, .sequence actions) => processActions files images actions
    | _ => { written := [], stopped := none }

/-- `processPackageManifest` of a parsed manifest. To index a scalar throws; the items of a
sequence have other keys than these. -/
def processPackageManifest (files : PackageFiles) (manifest : Yaml) : Queued :=
  let field (key : String) : Option Yaml :=
    match manifest with
    | .map entries => Yaml.lookup key entries
    | _ => none
  match manifest, field "images", field "steps" with
  | .scalar _, _, _ => { written := [], stopped := some .exception }
  | _, some (.map images), some (.sequence steps) =>
    Journal.forEach
      (fun step => Journal.forEach (processTarget files images) step.pairs) steps
  | _, some (.map _), _ => { written := [], stopped := some (.error .invalidSteps) }
  | _, _, _ => { written := [], stopped := some (.error .invalidImages) }

/-- `processPackageManifest` of a manifest file, which `loaded` is the content of where it can be
parsed: what is added to the queue, and the code that is returned. -/
def processManifestFile (system : String → Option (Nat × Hash)) (loaded : Option Yaml) :
    List String × PkgError :=
  match loaded with
  | none | some .null => ([], .packageFileError)
  | some manifest =>
    let processed := processPackageManifest { archive := none, system } manifest
    (processed.written,
      match processed.stopped with
      | none => .success
      | some (.error code _) => code
      | some .exception => .packageFileError)

end InertialSense.FirmwareUpdate
