import Mathlib.Data.List.Basic

/-! The command strings of `ISFirmwareUpdater`: how `runCommand` takes them apart and which of
its branches they select. -/

namespace InertialSense.FirmwareUpdate

/-- What repeated `getline` calls read: a delimiter ends a piece, and after the last delimiter
there is a piece only if there are characters. -/
def pieces (delimiter : Char) : List Char → List (List Char)
  | [] => []
  | c :: rest =>
    if c = delimiter then [] :: pieces delimiter rest
    else
      match pieces delimiter rest with
      | [] => [[c]]
      | first :: others => (c :: first) :: others

def splitString (text : String) (delimiter : Char) : List String :=
  (pieces delimiter text.toList).map String.ofList

/-- `isspace` in the "C" locale. -/
def isSpace (c : Char) : Bool := c = ' ' || (9 ≤ c.toNat && c.toNat ≤ 13)

/-- The number the leading digits stand for, after those that are read already. -/
def leadingDigits (value : Nat) : List Char → Nat
  | [] => value
  | c :: rest => if c.isDigit then leadingDigits (10 * value + (c.toNat - 48)) rest else value

/-- `strtol(text, nullptr, 10)`, for a `long` of 64 bits. -/
def strtol (text : String) : Int :=
  let value : Int :=
    match text.toList.dropWhile isSpace with
    | '-' :: digits => -leadingDigits 0 digits
    | '+' :: digits => leadingDigits 0 digits
    | digits => leadingDigits 0 digits
  max (-0x8000000000000000) (min value 0x7FFFFFFFFFFFFFFF)

/-- A branch of `runCommand`, with the arguments it reads. -/
inductive Command where
  | package (file : String)
  | label (step : String)
  | target (name : String)
  | onError (label : String)
  | echo
  | slot (number : String)
  | timeout (number : String)
  | force (flag : Bool)
  | chunk (number : String)
  | rate (number : String)
  | delay (number : String)
  | waitfor (limit : String) (interval : Option String) (again : Bool)
  | upload (file : String)
  | reset (hard : Bool)
  | finish
  | unknown
deriving DecidableEq

/-- The branch of `runCommand` for a name and its arguments, in the order of the source. -/
def Command.select (name : String) (args : List String) : Command :=
  let first := args.headD ""
  if name = "package" ∧ args.length = 1 then .package first
  else if name.toList.head? = some ':' then .label (String.ofList name.toList.tail)
  else if name = "target" ∧ args.length = 1 then .target first
  else if name = "on-error" ∧ args.length = 1 then .onError first
  else if name = "echo" ∧ args.length = 1 then .echo
  else if name = "slot" ∧ args.length = 1 then .slot first
  else if name = "timeout" ∧ args.length = 1 then .timeout first
  else if name = "force" then .force (first = "true")
  else if name = "chunk" ∧ args.length = 1 then .chunk first
  else if name = "rate" ∧ args.length = 1 then .rate first
  else if name = "delay" ∧ args.length = 1 then .delay first
  else if name = "waitfor" ∧ 1 ≤ args.length ∧ args.length ≤ 3 then
    .waitfor first args[1]? (args[2]? = some "true")
  else if name = "upload" ∧ args.length = 1 then .upload first
  else if name = "reset" then .reset (args.length = 1 ∧ first = "hard")
  else if name = "finish" then .finish
  else .unknown

/-- The name that selects a branch, where it is the only one. -/
def Command.keyword : Command → Option String
  | .package _ => some "package"
  | .target _ => some "target"
  | .onError _ => some "on-error"
  | .waitfor _ _ _ => some "waitfor"
  | .upload _ => some "upload"
  | _ => none

def Command.Keyed (name : String) (command : Command) : Prop :=
  command.keyword = none ∨ command.keyword = some name

private theorem Command.keyed_ite {name : String} {condition : Prop} [Decidable condition]
    {yes no : Command} (chosen : condition → yes.Keyed name) (other : no.Keyed name) :
    (if condition then yes else no).Keyed name := by
  by_cases holds : condition
  · rw [if_pos holds]
    exact chosen holds
  · rw [if_neg holds]
    exact other

theorem Command.select_keyed (name : String) (args : List String) :
    (select name args).Keyed name := by
  unfold select
  refine keyed_ite (fun named => .inr (congrArg some named.1.symm)) ?_
  refine keyed_ite (fun _ => .inl rfl) ?_
  refine keyed_ite (fun named => .inr (congrArg some named.1.symm)) ?_
  refine keyed_ite (fun named => .inr (congrArg some named.1.symm)) ?_
  refine keyed_ite (fun _ => .inl rfl) ?_
  refine keyed_ite (fun _ => .inl rfl) ?_
  refine keyed_ite (fun _ => .inl rfl) ?_
  refine keyed_ite (fun _ => .inl rfl) ?_
  refine keyed_ite (fun _ => .inl rfl) ?_
  refine keyed_ite (fun _ => .inl rfl) ?_
  refine keyed_ite (fun _ => .inl rfl) ?_
  refine keyed_ite (fun named => .inr (congrArg some named.1.symm)) ?_
  refine keyed_ite (fun named => .inr (congrArg some named.1.symm)) ?_
  refine keyed_ite (fun _ => .inl rfl) ?_
  refine keyed_ite (fun _ => .inl rfl) ?_
  exact .inl rfl

/-- What `runCommand` finds in a command: its name and its branch. A command without `=` is its
own argument, and what follows a second `=` is not read. -/
def Command.decode (cmd : String) : Option (String × Command) :=
  match splitString cmd '=' with
  | [] => none
  | [name] => some (name, select name [name])
  | name :: argument :: _ => some (name, select name (splitString argument ','))

theorem Command.decode_keyed {cmd name : String} {command : Command}
    (decoded : decode cmd = some (name, command)) : command.Keyed name := by
  unfold decode at decoded
  split at decoded
  · cases decoded
  · obtain ⟨rfl, rfl⟩ := Prod.mk.inj (Option.some.inj decoded)
    exact select_keyed ..
  · obtain ⟨rfl, rfl⟩ := Prod.mk.inj (Option.some.inj decoded)
    exact select_keyed ..

end InertialSense.FirmwareUpdate
