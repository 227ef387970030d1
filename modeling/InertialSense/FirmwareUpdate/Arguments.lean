import InertialSense.FirmwareUpdate.Commands

/-! What comes back of a command that has been queued as `name=argument`. -/

namespace InertialSense.FirmwareUpdate

/-! ### Splitting -/

section Pieces

variable {delimiter : Char} {text rest : List Char}

/-- Without a delimiter there is one piece, unless there is nothing. -/
theorem pieces_of_not_mem (plain : delimiter ∉ text) :
    pieces delimiter text = if text = [] then [] else [text] := by
  induction text with
  | nil => rfl
  | cons c text ih =>
    have other : c ≠ delimiter := fun same => plain (same ▸ List.mem_cons_self ..)
    have later := ih fun member => plain (List.mem_cons_of_mem _ member)
    rw [pieces, if_neg other, later]
    cases text with
    | nil => rfl
    | cons => rfl

/-- The first piece ends at the first delimiter. -/
theorem pieces_append (plain : delimiter ∉ text) :
    pieces delimiter (text ++ delimiter :: rest) = text :: pieces delimiter rest := by
  induction text with
  | nil => simp [pieces]
  | cons c text ih =>
    have other : c ≠ delimiter := fun same => plain (same ▸ List.mem_cons_self ..)
    have later := ih fun member => plain (List.mem_cons_of_mem _ member)
    rw [List.cons_append, pieces, if_neg other, later]

theorem pieces_eq_singleton_iff :
    pieces delimiter text = [text] ↔ delimiter ∉ text ∧ text ≠ [] := by
  by_cases plain : delimiter ∈ text
  · obtain ⟨before, after, rfl, earlier⟩ := List.eq_append_cons_of_mem plain
    refine iff_of_false ?_ fun alone => alone.1 plain
    rw [pieces_append earlier]
    intro same
    have whole := (List.cons.inj same).1
    simp at whole
  · rw [pieces_of_not_mem plain]
    by_cases empty : text = []
    · simp [empty]
    · simp [empty, plain]

private theorem length_le_of_mem_pieces {piece : List Char}
    (member : piece ∈ pieces delimiter text) : piece.length ≤ text.length := by
  induction text generalizing piece with
  | nil => cases member
  | cons c text ih =>
    rw [pieces] at member
    split at member
    · rcases List.mem_cons.mp member with rfl | later
      · exact Nat.zero_le _
      · exact Nat.le_succ_of_le (ih later)
    · cases found : pieces delimiter text with
      | nil =>
        rw [found] at member
        obtain rfl := List.mem_singleton.mp member
        exact Nat.succ_le_succ (Nat.zero_le _)
      | cons first others =>
        rw [found] at member
        rcases List.mem_cons.mp member with rfl | later
        · exact Nat.succ_le_succ (ih (found ▸ List.mem_cons_self ..))
        · exact Nat.le_succ_of_le (ih (found ▸ List.mem_cons_of_mem _ later))

end Pieces

private theorem ofList_toList_eq {pieces : List (List Char)} {texts : List String} :
    pieces.map String.ofList = texts ↔ pieces = texts.map String.toList := by
  constructor
  · rintro rfl
    simp
  · rintro rfl
    simp

theorem splitString_eq_singleton_iff {text : String} {delimiter : Char} :
    splitString text delimiter = [text] ↔ delimiter ∉ text.toList ∧ text ≠ "" := by
  unfold splitString
  rw [ofList_toList_eq]
  show pieces delimiter text.toList = [text.toList] ↔ _
  rw [pieces_eq_singleton_iff]
  simp

/-! ### Commands -/

namespace Command

/-- The name in `runCommand` and the arguments that its branches get. -/
def arguments (cmd : String) : Option (String × List String) :=
  match splitString cmd '=' with
  | [] => none
  | [name] => some (name, [name])
  | name :: argument :: _ => some (name, splitString argument ',')

theorem decode_eq (cmd : String) :
    decode cmd = (arguments cmd).map fun found => (found.1, select found.1 found.2) := by
  unfold decode arguments
  rcases splitString cmd '=' with - | ⟨name, - | ⟨argument, rest⟩⟩
  · rfl
  · rfl
  · rfl

variable {name argument : String}

/-- The arguments of a command with one: the name stands in for an empty argument, and an argument
ends at the first `=`. -/
theorem arguments_append (plain : '=' ∉ name.toList) :
    arguments (name ++ "=" ++ argument) =
      match splitString argument '=' with
      | [] => some (name, [name])
      | first :: _ => some (name, splitString first ',') := by
  have split : splitString (name ++ "=" ++ argument) '=' = name :: splitString argument '=' := by
    unfold splitString
    have text : (name ++ "=" ++ argument).toList = name.toList ++ '=' :: argument.toList := by simp
    rw [text, pieces_append plain]
    simp
  unfold arguments
  rw [split]
  cases splitString argument '=' with
  | nil => rfl
  | cons => rfl

/-- An argument comes back whole exactly if there is something and neither delimiter is in it; an
empty one comes back of a command without a name. -/
private theorem arguments_eq_iff (plain : '=' ∉ name.toList) :
    arguments (name ++ "=" ++ argument) = some (name, [argument]) ↔
      '=' ∉ argument.toList ∧ ',' ∉ argument.toList ∧ (argument = "" → name = "") := by
  rw [arguments_append plain]
  by_cases empty : argument = ""
  · subst empty
    show some (name, [name]) = some (name, [""]) ↔ _
    simp
  by_cases divided : '=' ∈ argument.toList
  · refine iff_of_false ?_ fun whole => whole.1 divided
    obtain ⟨before, after, text, earlier⟩ := List.eq_append_cons_of_mem divided
    have split : splitString argument '=' = String.ofList before ::
        (pieces '=' after).map String.ofList := by
      unfold splitString
      rw [text, pieces_append earlier]
      rfl
    rw [split]
    intro same
    have only : splitString (String.ofList before) ',' = [argument] :=
      (Prod.mk.inj (Option.some.inj same)).2
    rw [splitString, ofList_toList_eq] at only
    have last : argument.toList ∈ pieces ',' (String.ofList before).toList := by
      rw [only]
      exact List.mem_singleton_self _
    have short := length_le_of_mem_pieces last
    rw [text, String.toList_ofList, List.length_append, List.length_cons] at short
    omega
  · rw [splitString_eq_singleton_iff.mpr ⟨divided, empty⟩]
    have whole := @splitString_eq_singleton_iff argument ','
    simp only [Option.some.injEq, Prod.mk.injEq, true_and, whole]
    exact ⟨fun plain => ⟨divided, plain.1, fun none => absurd none empty⟩,
      fun plain => ⟨plain.2.1, empty⟩⟩

private theorem select_upload (args : List String) :
    select "upload" args = if args.length = 1 then .upload (args.headD "") else .unknown := by
  simp [select]

/-- What `runCommand` gets back of a command that is queued with its argument, and of an image file
that is queued to be uploaded. -/
theorem argument_survives_iff (plain : '=' ∉ name.toList) :
    (arguments (name ++ "=" ++ argument) = some (name, [argument]) ↔
      '=' ∉ argument.toList ∧ ',' ∉ argument.toList ∧ (argument = "" → name = "")) ∧
    ∀ file, decode ("upload=" ++ file) = some ("upload", .upload file) ↔
      '=' ∉ file.toList ∧ ',' ∉ file.toList ∧ file ≠ "" := by
  refine ⟨arguments_eq_iff plain, fun file => ?_⟩
  have whole := @arguments_eq_iff "upload" file (by simp)
  have keyword : "upload" ++ "=" = "upload=" := rfl
  rw [keyword] at whole
  have uploads : decode ("upload=" ++ file) = some ("upload", .upload file) ↔
      arguments ("upload=" ++ file) = some ("upload", [file]) := by
    rw [decode_eq, Option.map_eq_some_iff]
    constructor
    · rintro ⟨⟨name, args⟩, found, same⟩
      obtain ⟨rfl, selected⟩ := Prod.mk.inj same
      dsimp only at selected
      rw [select_upload] at selected
      split at selected
      case isFalse => cases selected
      case isTrue single =>
        obtain ⟨only, rfl⟩ := List.length_eq_one_iff.mp single
        obtain rfl : only = file := upload.inj selected
        exact found
    · exact fun found => ⟨_, found, by rw [select_upload]; rfl⟩
  rw [uploads, whole]
  simp

/-- A name and an argument without delimiters. -/
theorem argument_survives_iff_plain : arguments ("on-error" ++ "=" ++ ":IMX5") =
    some ("on-error", [":IMX5"]) :=
  (argument_survives_iff (by simp)).1.mpr ⟨by simp, by simp, by simp⟩

/-- The file `gnss=2.fpk` of a manifest is not opened, but `gnss`. -/
theorem wrong_file_opened :
    ¬∀ file, decode ("upload=" ++ file) = some ("upload", .upload file) := by
  intro opens
  have other : decode ("upload=" ++ "gnss=2.fpk") = some ("upload", .upload "gnss") := by
    decide +kernel
  exact absurd (other.symm.trans (opens _)) (by simp)

end Command

end InertialSense.FirmwareUpdate
