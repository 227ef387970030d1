import InertialSense.FirmwareUpdate.Manifest

/-! A manifest that is refused. What it has added to the queue before the entry at fault is not
taken back. -/

namespace InertialSense.FirmwareUpdate

open Foundation
open Md5 (Hash)

/-! ### What is accepted and what throws -/

def States (key : String) (image : List (Yaml × Yaml)) (holds : String → Prop) : Prop :=
  ∀ text, Yaml.lookup key image = some (.scalar text) → holds text

def SizeAgrees (image : List (Yaml × Yaml)) (file : ImageFile) : Prop :=
  States "size" image fun text =>
    ∃ imageSize, Yaml.asInt text = some imageSize ∧ (UInt32.ofInt imageSize).toNat = file.size

def DigestAgrees (image : List (Yaml × Yaml)) (file : ImageFile) : Prop :=
  States "md5sum" image fun text => ∀ hash, file.md5 = some hash → md5FromString text = hash

/-- The field is a scalar that is not a number. -/
def NotANumber (key : String) (image : List (Yaml × Yaml)) : Prop :=
  ∃ text, Yaml.lookup key image = some (.scalar text) ∧ Yaml.asInt text = none

/-- The manifest has an image of this name, and its file is there and as stated. -/
def ImageAccepted (files : PackageFiles) (images : List (Yaml × Yaml)) (name : String) : Prop :=
  ∃ image path filename file, Yaml.lookup name images = some (.map image) ∧
    Yaml.lookup "filename" image = some path ∧ path.asString = some filename ∧
    files.locate filename = some file ∧ SizeAgrees image file ∧ DigestAgrees image file ∧
    ¬NotANumber "slot" image

/-- A value of the image is converted that cannot be. -/
def ImageThrows (files : PackageFiles) (images : List (Yaml × Yaml)) (name : String) : Prop :=
  ∃ image path, Yaml.lookup name images = some (.map image) ∧
    Yaml.lookup "filename" image = some path ∧
    (path.asString = none ∨
      ∃ filename file, path.asString = some filename ∧ files.locate filename = some file ∧
        (NotANumber "size" image ∨
          SizeAgrees image file ∧ DigestAgrees image file ∧ NotANumber "slot" image))

/-- An entry of a manifest: a target or an action; `none` is an item of a sequence where a key
and a value are expected. -/
inductive Entry where
  | target (pair : Option (Yaml × Yaml))
  | action (pair : Option (Yaml × Yaml))

namespace Entry

def commands (files : PackageFiles) (images : List (Yaml × Yaml)) :
    Entry → Except Stop (List String)
  | target pair => targetCommands pair
  | action pair => actionCommands files images pair

/-- The entry is well formed, and what it refers to is there. -/
def Accepted (files : PackageFiles) (images : List (Yaml × Yaml)) : Entry → Prop
  | target pair => ∃ stepName actions, pair = some (.scalar stepName, .sequence actions)
  | action pair =>
    ∃ first second cmdName cmdArg, pair = some (first, second) ∧
      first.asString = some cmdName ∧ second.asString = some cmdArg ∧
      (cmdName = "target" → cmdArg ∈ targetNames) ∧
      (cmdName = "image" → ImageAccepted files images cmdArg)

/-- The entry makes `yaml-cpp` throw an exception. -/
def Throws (files : PackageFiles) (images : List (Yaml × Yaml)) : Entry → Prop
  | target pair => pair = none
  | action pair =>
    ∀ first second, pair = some (first, second) →
      ∀ cmdName, first.asString = some cmdName →
        ∀ cmdArg, second.asString = some cmdArg →
          cmdName = "image" ∧ ImageThrows files images cmdArg

end Entry

def targetEntries (target : Option (Yaml × Yaml)) : List Entry :=
  .target target ::
    match target with
    | some (_, .sequence actions) => actions.flatMap fun action => action.pairs.map .action
    | _ => []

def Yaml.parts : Yaml → Option (List (Yaml × Yaml) × List Yaml)
  | .map entries =>
    match lookup "images" entries, lookup "steps" entries with
    | some (.map images), some (.sequence steps) => some (images, steps)
    | _, _ => none
  | _ => none

def stepEntries (steps : List Yaml) : List Entry :=
  steps.flatMap fun step => step.pairs.flatMap targetEntries

/-- The first entry that is not accepted, if there is one, comes behind another and is at
fault. -/
def FaultsLate (files : PackageFiles) (manifest : Yaml)
    (fault : List (Yaml × Yaml) → Entry → Prop) : Prop :=
  ∃ images steps first before entry after, manifest.parts = some (images, steps) ∧
    stepEntries steps = first :: before ++ entry :: after ∧
    (∀ earlier ∈ first :: before, earlier.Accepted files images) ∧
    ¬entry.Accepted files images ∧ fault images entry

/-! ### Checks -/

section Checks

variable {α β : Type} {x : Except Stop α} {f : α → Except Stop β} {result : β} {reason : Stop}

private theorem bind_ok_iff : (x >>= f) = .ok result ↔ ∃ a, x = .ok a ∧ f a = .ok result := by
  cases x with
  | ok a => exact ⟨fun done => ⟨a, rfl, done⟩, fun ⟨b, same, done⟩ => by cases same; exact done⟩
  | error stop => exact iff_of_false nofun (by rintro ⟨b, same, -⟩; cases same)

private theorem bind_error_iff :
    (x >>= f) = .error reason ↔ x = .error reason ∨ ∃ a, x = .ok a ∧ f a = .error reason := by
  cases x with
  | ok a =>
    constructor
    · exact fun stopped => .inr ⟨a, rfl, stopped⟩
    · rintro (same | ⟨b, same, stopped⟩)
      · cases same
      · cases same
        exact stopped
  | error stop =>
    constructor
    · intro stopped
      cases stopped
      exact .inl rfl
    · rintro (same | ⟨b, same, -⟩)
      · cases same
        rfl
      · cases same

private theorem converted_ok_iff {value : Option α} {a : α} :
    converted value = .ok a ↔ value = some a := by
  cases value with
  | none => exact iff_of_false nofun nofun
  | some b => simp [converted]

private theorem converted_error_iff {value : Option α} :
    converted value = .error reason ↔ value = none ∧ reason = .exception := by
  cases value with
  | none => simp [converted, eq_comm]
  | some b => exact iff_of_false nofun (fun same => nomatch same.1)

variable {condition : Prop} [Decidable condition] {code : PkgError} {failed : code ≠ .success}

private theorem ensure_ok_iff : ensure condition code failed = .ok () ↔ condition := by
  unfold ensure
  split
  case isTrue holds => exact iff_of_true rfl holds
  case isFalse fails => exact iff_of_false nofun fails

private theorem ensure_error : ensure condition code failed ≠ .error .exception := by
  unfold ensure
  split
  · nofun
  · nofun

variable {image : List (Yaml × Yaml)} {file : ImageFile}

private theorem checkImageSize_ok_iff :
    checkImageSize image file = .ok () ↔ SizeAgrees image file := by
  unfold checkImageSize SizeAgrees States
  split
  case h_1 text stated =>
    rw [bind_ok_iff]
    simp only [converted_ok_iff, ensure_ok_iff, stated]
    constructor
    · rintro agrees other same
      obtain rfl := Yaml.scalar.inj (Option.some.inj same)
      exact agrees
    · exact fun agrees => agrees text rfl
  case h_2 other =>
    exact iff_of_true rfl fun text stated => absurd stated (other text)

private theorem checkImageSize_throws_iff :
    checkImageSize image file = .error .exception ↔ NotANumber "size" image := by
  unfold checkImageSize NotANumber
  split
  case h_1 text stated =>
    rw [bind_error_iff]
    simp only [converted_error_iff, ensure_error, stated]
    constructor
    · rintro (⟨unread, -⟩ | ⟨-, -, impossible⟩)
      · exact ⟨text, rfl, unread⟩
      · cases impossible
    · rintro ⟨other, same, unread⟩
      obtain rfl := Yaml.scalar.inj (Option.some.inj same)
      exact .inl ⟨unread, trivial⟩
  case h_2 other =>
    exact iff_of_false nofun fun ⟨text, stated, _⟩ => other text stated

private theorem checkImageMd5_ok_iff :
    checkImageMd5 image file = .ok () ↔ DigestAgrees image file := by
  unfold checkImageMd5 DigestAgrees States
  split
  case h_1 hash text known stated =>
    rw [ensure_ok_iff]
    constructor
    · intro agrees other same found equal
      rw [stated] at same
      rw [known] at equal
      obtain rfl := Yaml.scalar.inj (Option.some.inj same)
      obtain rfl := Option.some.inj equal
      exact agrees
    · exact fun agrees => agrees text stated hash known
  case h_2 other =>
    exact iff_of_true rfl fun text stated hash known => (other hash text known stated).elim

private theorem checkImageMd5_throws : checkImageMd5 image file ≠ .error .exception := by
  unfold checkImageMd5
  split
  · exact ensure_error
  · nofun

private theorem imageSlot_ok_iff : (∃ slot, imageSlot image = .ok slot) ↔ ¬NotANumber "slot" image := by
  unfold imageSlot NotANumber
  split
  case h_1 text stated =>
    simp only [converted_ok_iff, stated]
    constructor
    · rintro ⟨slot, read⟩ ⟨other, same, unread⟩
      obtain rfl := Yaml.scalar.inj (Option.some.inj same)
      rw [read] at unread
      cases unread
    · intro number
      exact Option.ne_none_iff_exists'.mp fun unread => number ⟨text, rfl, unread⟩
  case h_2 other =>
    exact iff_of_true ⟨0, rfl⟩ fun ⟨text, stated, _⟩ => other text stated

private theorem imageSlot_throws_iff :
    imageSlot image = .error .exception ↔ NotANumber "slot" image := by
  unfold imageSlot NotANumber
  split
  case h_1 text stated =>
    simp only [converted_error_iff, stated]
    constructor
    · exact fun unread => ⟨text, rfl, unread.1⟩
    · rintro ⟨other, same, unread⟩
      obtain rfl := Yaml.scalar.inj (Option.some.inj same)
      exact ⟨unread, trivial⟩
  case h_2 other =>
    exact iff_of_false nofun fun ⟨text, stated, _⟩ => other text stated

private theorem uploadCommands_ok_iff :
    (∃ commands, uploadCommands image file = .ok commands) ↔
      SizeAgrees image file ∧ DigestAgrees image file ∧ ¬NotANumber "slot" image := by
  rw [← checkImageSize_ok_iff, ← checkImageMd5_ok_iff, ← imageSlot_ok_iff]
  unfold uploadCommands
  constructor
  · rintro ⟨commands, accepted⟩
    obtain ⟨⟨⟩, size, accepted⟩ := bind_ok_iff.mp accepted
    obtain ⟨⟨⟩, digest, accepted⟩ := bind_ok_iff.mp accepted
    obtain ⟨slot, numbered, -⟩ := bind_ok_iff.mp accepted
    exact ⟨size, digest, slot, numbered⟩
  · rintro ⟨size, digest, slot, numbered⟩
    rw [size, digest, numbered]
    exact ⟨_, rfl⟩

private theorem uploadCommands_throws_iff :
    uploadCommands image file = .error .exception ↔
      NotANumber "size" image ∨
        SizeAgrees image file ∧ DigestAgrees image file ∧ NotANumber "slot" image := by
  rw [← checkImageSize_ok_iff, ← checkImageMd5_ok_iff, ← imageSlot_throws_iff,
    ← checkImageSize_throws_iff]
  unfold uploadCommands
  rw [bind_error_iff]
  refine or_congr_right ?_
  constructor
  · rintro ⟨⟨⟩, size, stopped⟩
    rcases bind_error_iff.mp stopped with digest | ⟨⟨⟩, digest, stopped⟩
    · exact absurd digest checkImageMd5_throws
    rcases bind_error_iff.mp stopped with slot | ⟨slot, -, impossible⟩
    · exact ⟨size, digest, slot⟩
    · cases impossible
  · rintro ⟨size, digest, slot⟩
    refine ⟨(), size, ?_⟩
    rw [digest, slot]
    rfl

variable {files : PackageFiles} {images : List (Yaml × Yaml)} {name : String}

private theorem imageCommands_ok_iff :
    (∃ commands, imageCommands files images name = .ok commands) ↔
      ImageAccepted files images name := by
  unfold imageCommands
  constructor
  · rintro ⟨commands, accepted⟩
    split at accepted
    case h_2 => cases accepted
    case h_1 image found =>
    split at accepted
    case h_2 => cases accepted
    case h_1 path named =>
    obtain ⟨filename, converts, accepted⟩ := bind_ok_iff.mp accepted
    split at accepted
    case h_2 => cases accepted
    case h_1 file located =>
    exact ⟨image, path, filename, file, found, named, converted_ok_iff.mp converts, located,
      uploadCommands_ok_iff.mp ⟨commands, accepted⟩⟩
  · rintro ⟨image, path, filename, file, found, named, converts, located, agrees⟩
    obtain ⟨commands, accepted⟩ := uploadCommands_ok_iff.mpr agrees
    refine ⟨commands, ?_⟩
    rw [found]
    dsimp only
    rw [named]
    dsimp only
    refine bind_ok_iff.mpr ⟨filename, converted_ok_iff.mpr converts, ?_⟩
    rw [located]
    exact accepted

private theorem imageCommands_throws_iff :
    imageCommands files images name = .error .exception ↔ ImageThrows files images name := by
  unfold imageCommands ImageThrows
  split
  case h_2 other => exact iff_of_false nofun fun ⟨image, _, found, _⟩ => other image found
  case h_1 image found =>
  split
  case h_2 unnamed =>
    refine iff_of_false nofun ?_
    rintro ⟨other, path, same, named, -⟩
    obtain rfl := Yaml.map.inj (Option.some.inj (found.symm.trans same))
    cases unnamed.symm.trans named
  case h_1 path named =>
  rw [bind_error_iff, converted_error_iff]
  constructor
  · intro stopped
    refine ⟨image, path, found, named, stopped.imp And.left ?_⟩
    rintro ⟨filename, converts, stopped⟩
    split at stopped
    case h_2 => cases stopped
    case h_1 file located =>
    exact ⟨filename, file, converted_ok_iff.mp converts, located,
      uploadCommands_throws_iff.mp stopped⟩
  · rintro ⟨other, path', same, named', stopped⟩
    obtain rfl := Yaml.map.inj (Option.some.inj (found.symm.trans same))
    obtain rfl := Option.some.inj (named.symm.trans named')
    refine stopped.imp (fun unread => ⟨unread, rfl⟩) ?_
    rintro ⟨filename, file, converts, located, stopped⟩
    refine ⟨filename, converted_ok_iff.mpr converts, ?_⟩
    rw [located]
    exact uploadCommands_throws_iff.mpr stopped

private theorem imageCommands_ne_nil {commands : List String}
    (accepted : imageCommands files images name = .ok commands) : commands ≠ [] := by
  unfold imageCommands at accepted
  split at accepted
  case h_2 => cases accepted
  split at accepted
  case h_2 => cases accepted
  obtain ⟨filename, -, accepted⟩ := bind_ok_iff.mp accepted
  split at accepted
  case h_2 => cases accepted
  obtain ⟨⟨⟩, -, accepted⟩ := bind_ok_iff.mp accepted
  obtain ⟨⟨⟩, -, accepted⟩ := bind_ok_iff.mp accepted
  obtain ⟨slot, -, done⟩ := bind_ok_iff.mp accepted
  cases done
  nofun

variable {cmdName cmdArg : String}

private theorem namedCommands_ok_iff :
    (∃ commands, namedCommands files images cmdName cmdArg = .ok commands) ↔
      (cmdName = "target" → cmdArg ∈ targetNames) ∧
        (cmdName = "image" → ImageAccepted files images cmdArg) := by
  unfold namedCommands
  split
  case isTrue target =>
    subst target
    split
    case isTrue known => exact iff_of_true ⟨_, rfl⟩ ⟨fun _ => known, by simp⟩
    case isFalse unknown => exact iff_of_false nofun fun agrees => unknown (agrees.1 rfl)
  case isFalse other =>
    split
    case isTrue image =>
      rw [imageCommands_ok_iff]
      exact ⟨fun accepted => ⟨fun target => absurd target other, fun _ => accepted⟩,
        fun agrees => agrees.2 image⟩
    case isFalse plain =>
      exact iff_of_true ⟨_, rfl⟩
        ⟨fun target => absurd target other, fun image => absurd image plain⟩

private theorem namedCommands_throws_iff :
    namedCommands files images cmdName cmdArg = .error .exception ↔
      cmdName = "image" ∧ ImageThrows files images cmdArg := by
  unfold namedCommands
  split
  case isTrue target =>
    subst target
    refine iff_of_false ?_ (by simp)
    split
    · nofun
    · nofun
  case isFalse other =>
    split
    case isTrue image => rw [imageCommands_throws_iff, and_iff_right image]
    case isFalse plain => exact iff_of_false nofun fun throws => plain throws.1

namespace Entry

variable {entry : Entry}

private theorem targetCommands_cases (pair : Option (Yaml × Yaml)) :
    (∃ stepName actions, pair = some (.scalar stepName, .sequence actions) ∧
      targetCommands pair = .ok [":" ++ stepName]) ∨
    (pair = none ∧ targetCommands pair = .error .exception) ∨
    (pair ≠ none ∧ (∀ stepName actions, pair ≠ some (.scalar stepName, .sequence actions)) ∧
      ∃ code failed, targetCommands pair = .error (.error code failed)) := by
  rcases pair with - | ⟨key, actions⟩
  · exact .inr (.inl ⟨rfl, rfl⟩)
  · cases key with
    | scalar stepName =>
      cases actions with
      | sequence actions => exact .inl ⟨stepName, actions, rfl, rfl⟩
      | null | scalar | map => exact .inr (.inr ⟨nofun, nofun, _, _, rfl⟩)
    | null | sequence | map => exact .inr (.inr ⟨nofun, nofun, _, _, rfl⟩)

theorem commands_ok_iff :
    (∃ commands, entry.commands files images = .ok commands) ↔ entry.Accepted files images := by
  cases entry with
  | target pair =>
    show (∃ commands, targetCommands pair = .ok commands) ↔ ∃ _, _
    rcases targetCommands_cases pair with ⟨stepName, actions, same, done⟩ | ⟨rfl, done⟩ |
      ⟨-, other, code, failed, done⟩
    · exact iff_of_true ⟨_, done⟩ ⟨stepName, actions, same⟩
    · exact iff_of_false nofun nofun
    · refine iff_of_false ?_ fun ⟨stepName, actions, same⟩ => other stepName actions same
      rintro ⟨commands, accepted⟩
      cases done.symm.trans accepted
  | action pair =>
    show (∃ commands, actionCommands files images pair = .ok commands) ↔ ∃ _, _
    rcases pair with - | ⟨first, second⟩
    · exact iff_of_false nofun nofun
    constructor
    · rintro ⟨commands, accepted⟩
      obtain ⟨cmdName, named, accepted⟩ := bind_ok_iff.mp accepted
      obtain ⟨cmdArg, argued, accepted⟩ := bind_ok_iff.mp accepted
      exact ⟨first, second, cmdName, cmdArg, rfl, converted_ok_iff.mp named,
        converted_ok_iff.mp argued, namedCommands_ok_iff.mp ⟨commands, accepted⟩⟩
    · rintro ⟨_, _, cmdName, cmdArg, same, named, argued, agrees⟩
      obtain ⟨rfl, rfl⟩ := Prod.mk.inj (Option.some.inj same)
      obtain ⟨commands, accepted⟩ := namedCommands_ok_iff.mpr agrees
      exact ⟨commands, bind_ok_iff.mpr ⟨cmdName, converted_ok_iff.mpr named,
        bind_ok_iff.mpr ⟨cmdArg, converted_ok_iff.mpr argued, accepted⟩⟩⟩

/-- An entry throws exactly if something in it is converted that cannot be. -/
theorem commands_throws_iff :
    entry.commands files images = .error .exception ↔ entry.Throws files images := by
  cases entry with
  | target pair =>
    show targetCommands pair = .error .exception ↔ pair = none
    rcases targetCommands_cases pair with ⟨_, _, rfl, done⟩ | ⟨rfl, done⟩ |
      ⟨some, -, code, failed, done⟩
    · exact iff_of_false (fun stopped => nomatch done.symm.trans stopped) nofun
    · exact iff_of_true done rfl
    · exact iff_of_false (fun stopped => nomatch done.symm.trans stopped) some
  | action pair =>
    show actionCommands files images pair = .error .exception ↔ ∀ _, _
    rcases pair with - | ⟨first, second⟩
    · exact iff_of_true rfl nofun
    show (converted first.asString >>= fun cmdName => converted second.asString >>= fun cmdArg =>
      namedCommands files images cmdName cmdArg) = .error .exception ↔ _
    rw [bind_error_iff, converted_error_iff]
    constructor
    · rintro stopped _ _ same cmdName named cmdArg argued
      obtain ⟨rfl, rfl⟩ := Prod.mk.inj (Option.some.inj same)
      rcases stopped with ⟨unread, -⟩ | ⟨_, read, stopped⟩
      · cases unread.symm.trans named
      obtain rfl := Option.some.inj ((converted_ok_iff.mp read).symm.trans named)
      rcases bind_error_iff.mp stopped with unread | ⟨_, read, stopped⟩
      · cases (converted_error_iff.mp unread).1.symm.trans argued
      obtain rfl := Option.some.inj ((converted_ok_iff.mp read).symm.trans argued)
      exact namedCommands_throws_iff.mp stopped
    · intro throws
      cases named : first.asString with
      | none => exact .inl ⟨rfl, rfl⟩
      | some cmdName =>
        refine .inr ⟨cmdName, rfl, bind_error_iff.mpr ?_⟩
        cases argued : second.asString with
        | none => exact .inl rfl
        | some cmdArg =>
          have stopped := throws first second rfl cmdName named cmdArg argued
          exact .inr ⟨cmdArg, rfl, namedCommands_throws_iff.mpr stopped⟩

theorem commands_ne_nil {commands : List String}
    (accepted : entry.commands files images = .ok commands) : commands ≠ [] := by
  rintro rfl
  cases entry with
  | target pair =>
    have accepted : targetCommands pair = .ok [] := accepted
    rcases targetCommands_cases pair with ⟨_, _, -, done⟩ | ⟨-, done⟩ | ⟨-, -, _, _, done⟩
    · cases done.symm.trans accepted
    · cases done.symm.trans accepted
    · cases done.symm.trans accepted
  | action pair =>
    rcases pair with - | ⟨first, second⟩
    · cases accepted
    obtain ⟨cmdName, -, accepted⟩ := bind_ok_iff.mp accepted
    obtain ⟨cmdArg, -, accepted⟩ := bind_ok_iff.mp accepted
    unfold namedCommands at accepted
    split at accepted
    · split at accepted
      · cases accepted
      · cases accepted
    split at accepted
    · exact imageCommands_ne_nil accepted rfl
    · cases accepted

end Entry

/-! ### Manifests -/

private theorem processTarget_eq (target : Option (Yaml × Yaml)) :
    processTarget files images target =
      Journal.forEach (fun entry => Journal.of (Entry.commands files images entry))
        (targetEntries target) := by
  refine congrArg (Journal.of (targetCommands target)).andThen ?_
  obtain _ | ⟨key, node⟩ := target
  · rfl
  · cases node with
    | null | scalar text | map entries => rfl
    | sequence actions =>
      show processActions files images actions = Journal.forEach _ (actions.flatMap _)
      rw [Journal.forEach_flatMap]
      simp only [Journal.forEach_map]
      rfl

private theorem processPackageManifest_of_parts {manifest : Yaml} {steps : List Yaml}
    (parts : manifest.parts = some (images, steps)) :
    processPackageManifest files manifest =
      Journal.forEach (fun entry => Journal.of (Entry.commands files images entry))
        (stepEntries steps) := by
  unfold stepEntries
  rw [Journal.forEach_flatMap]
  simp only [Journal.forEach_flatMap, ← processTarget_eq]
  unfold Yaml.parts at parts
  split at parts
  case h_2 => cases parts
  split at parts
  case h_2 => cases parts
  case h_1 entries _ _ found listed =>
  obtain ⟨rfl, rfl⟩ := Prod.mk.inj (Option.some.inj parts)
  simp only [processPackageManifest, found, listed]

private theorem processPackageManifest_of_no_parts {manifest : Yaml}
    (none : manifest.parts = none) : (processPackageManifest files manifest).written = [] := by
  cases manifest with
  | null | scalar | sequence => rfl
  | map entries =>
    unfold processPackageManifest
    dsimp only
    split
    · rfl
    case h_2 found listed _ => simp [Yaml.parts, found, listed] at none
    · rfl
    · rfl

/-- What a manifest has added to the queue when it is refused. -/
private theorem stopped_written_iff {manifest : Yaml} (fault : Stop → Prop) :
    (∀ reason, (processPackageManifest files manifest).stopped = some reason → fault reason →
        (processPackageManifest files manifest).written = []) ↔
      ¬FaultsLate files manifest fun images entry =>
        ∃ reason, entry.commands files images = .error reason ∧ fault reason := by
  cases parts : manifest.parts with
  | none =>
    refine iff_of_true (fun _ _ _ => processPackageManifest_of_no_parts parts) ?_
    rintro ⟨images, steps, _, _, _, _, found, -⟩
    cases parts.symm.trans found
  | some found =>
    obtain ⟨images, steps⟩ := found
    rw [processPackageManifest_of_parts parts]
    have empty := @Journal.forEach_of_written_eq_nil_iff Entry String Stop
      (Entry.commands files images) (stepEntries steps) fun _ _ => Entry.commands_ne_nil
    constructor
    · rintro clean ⟨images', steps', first, before, entry, after, found, same, accepted, -, reason,
        failed, faulty⟩
      obtain ⟨rfl, rfl⟩ := Prod.mk.inj (Option.some.inj (parts.symm.trans found))
      have stopped := Journal.forEach_of_stopped_iff.mpr ⟨first :: before, entry, after, same,
        fun earlier member => Entry.commands_ok_iff.mpr (accepted earlier member), failed⟩
      obtain ⟨other, refused⟩ := empty.mp (clean reason stopped faulty) first _ same
      obtain ⟨commands, passed⟩ := Entry.commands_ok_iff.mpr (accepted first (by simp))
      cases refused.symm.trans passed
    · intro timely reason stopped faulty
      obtain ⟨before, entry, after, same, accepted, failed⟩ :=
        Journal.forEach_of_stopped_iff.mp stopped
      refine empty.mpr fun first rest front => ?_
      cases before with
      | nil =>
        obtain ⟨rfl, -⟩ := List.cons.inj (same.symm.trans front)
        exact ⟨reason, failed⟩
      | cons head before =>
        refine absurd ⟨images, steps, head, before, entry, after, parts, same,
          fun earlier member => Entry.commands_ok_iff.mp (accepted earlier member), ?_, reason,
          failed, faulty⟩ timely
        intro passed
        obtain ⟨commands, passed⟩ := Entry.commands_ok_iff.mpr passed
        cases failed.symm.trans passed

private theorem faultsLate_congr {manifest : Yaml} {first second : List (Yaml × Yaml) → Entry → Prop}
    (same : ∀ images entry, ¬entry.Accepted files images →
      (first images entry ↔ second images entry)) :
    FaultsLate files manifest first ↔ FaultsLate files manifest second := by
  unfold FaultsLate
  refine exists_congr fun images => exists_congr fun steps => exists_congr fun head =>
    exists_congr fun before => exists_congr fun entry => exists_congr fun after => ?_
  refine and_congr_right fun _ => and_congr_right fun _ => and_congr_right fun _ => ?_
  exact and_congr_right fun refused => same images entry refused

private theorem commands_error {entry : Entry} (refused : ¬entry.Accepted files images) :
    ∃ reason, entry.commands files images = .error reason := by
  cases found : entry.commands files images with
  | ok commands => exact absurd (Entry.commands_ok_iff.mp ⟨commands, found⟩) refused
  | error reason => exact ⟨reason, rfl⟩

private theorem processManifestFile_some {manifest : Yaml} (system : String → Option (Nat × Hash))
    (some : manifest ≠ .null) :
    (processManifestFile system (.some manifest)).1 =
        (processPackageManifest { archive := none, system } manifest).written ∧
      ((processManifestFile system (.some manifest)).2 ≠ .success ↔
        (processPackageManifest { archive := none, system } manifest).stopped ≠ none) := by
  unfold processManifestFile
  split
  case h_1 missing => cases missing
  case h_2 null => exact absurd (Option.some.inj null) some
  case h_3 same =>
    obtain rfl := Option.some.inj same
    refine ⟨rfl, ?_⟩
    dsimp only
    split
    case h_1 passed => simp [passed]
    case h_2 code failed stopped => simp [stopped, failed]
    case h_3 stopped => simp [stopped]

end Checks

/-- A refused manifest adds nothing to the queue, if and only if the first entry at fault is the
first entry of all, or makes `yaml-cpp` throw before an error is returned; where a manifest file is
processed an exception is an error too. -/
theorem rejected_queues_nothing_iff (files : PackageFiles) (manifest : Yaml)
    (queue : List String) :
    ((∀ code failed, (processPackageManifest files manifest).stopped = some (.error code failed) →
        queue ++ (processPackageManifest files manifest).written = queue) ↔
      ¬FaultsLate files manifest fun images entry => ¬entry.Throws files images) ∧
    ∀ system,
      ((processManifestFile system (some manifest)).2 ≠ .success →
        queue ++ (processManifestFile system (some manifest)).1 = queue) ↔
      ¬FaultsLate { archive := none, system } manifest fun _ _ => True := by
  refine ⟨?_, fun system => ?_⟩
  · simp only [List.append_right_eq_self]
    have refusals (images : List (Yaml × Yaml)) (entry : Entry)
        (refused : ¬entry.Accepted files images) : ¬entry.Throws files images ↔
          ∃ reason, entry.commands files images = .error reason ∧ reason ≠ .exception := by
      obtain ⟨reason, failed⟩ := commands_error refused
      rw [← Entry.commands_throws_iff, failed]
      simp
    rw [faultsLate_congr refusals, ← stopped_written_iff]
    constructor
    · intro clean reason stopped returned
      cases reason with
      | error code failed => exact clean code failed stopped
      | exception => exact absurd rfl returned
    · exact fun clean code failed stopped => clean _ stopped nofun
  · have refusals (images : List (Yaml × Yaml)) (entry : Entry)
        (refused : ¬entry.Accepted { archive := none, system } images) : True ↔
          ∃ reason, entry.commands { archive := none, system } images = .error reason ∧ True := by
      obtain ⟨reason, failed⟩ := commands_error refused
      exact iff_of_true trivial ⟨reason, failed, trivial⟩
    rw [faultsLate_congr refusals, ← stopped_written_iff]
    simp only [List.append_right_eq_self]
    by_cases empty : manifest = .null
    · subst empty
      exact iff_of_true (fun _ => rfl) fun _ _ _ => rfl
    · obtain ⟨added, code⟩ := processManifestFile_some system empty
      rw [added, code]
      constructor
      · exact fun clean reason stopped _ => clean (by simp [stopped])
      · intro clean stopped
        obtain ⟨reason, stopped⟩ := Option.ne_none_iff_exists'.mp stopped
        exact clean reason stopped trivial

/-- A manifest without images that names a target, and then one that does not exist. -/
def unknownTarget : Yaml :=
  .map
    [(.scalar "images", .map []),
      (.scalar "steps", .sequence
        [.map [(.scalar "IMX5", .sequence
          [.map [(.scalar "target", .scalar "IMX5")],
            .map [(.scalar "target", .scalar "IMX6")]])]])]

/-- The label and the first target stay in the queue. -/
theorem refused_manifest_stays_queued :
    (processManifestFile (fun _ => none) (some unknownTarget)).2 = .unsupportedTarget ∧
      ¬∀ (manifest : Yaml) (queue : List String),
        (processManifestFile (fun _ => none) (some manifest)).2 ≠ .success →
          queue ++ (processManifestFile (fun _ => none) (some manifest)).1 = queue := by
  refine ⟨by decide +kernel, fun clean => ?_⟩
  have left := clean unknownTarget [] (by decide +kernel)
  exact absurd left (by decide +kernel)

end InertialSense.FirmwareUpdate
