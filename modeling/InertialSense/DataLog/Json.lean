import InertialSense.DataLog.FieldText

/-! `cDataJSON`: a data set as a JSON object, and what is read from such an object. -/

namespace InertialSense.DataLog

open Foundation

def dataToStringJSON (sets : UInt8 → Option DataSet) (hdr : DataHdr)
    (buf tmpBuffer : Nat → UInt8) : Option (List Char) := do
  let set ← sets hdr.id
  let bytes := wholeRecord set.size hdr buf tmpBuffer
  let hdrCopy := { hdr with offset := 0, size := UInt16.ofNat set.size }
  let field (info : DataInfo) : List Char :=
    -- `true` is passed as the array index
    [',', '"'] ++ info.name ++ ['"', ':'] ++ dataToString set.size info hdrCopy bytes 1 false
  pure (['{', '"', 'i', 'd', '"', ':'] ++ decimal hdr.id.toNat ++
    set.nameToInfo.flatMap field ++ ['}'])

/-- The place of a text in another. -/
def findText (text : List Char) : List Char → Option Nat
  | [] => if text = [] then some 0 else none
  | c :: rest =>
    if text.isPrefixOf (c :: rest) then some 0 else (findText text rest).map (· + 1)

/-- The variables of the loop of `StringJSONToData`. -/
structure JsonScan where
  pc : Char
  fieldName : List Char
  fieldStart : Nat
  inName : Bool
  inQuote : Bool

/-- The end of a field's value: nothing if it cannot be read. -/
def readJsonField (set : DataSet) (hdr : DataHdr) (buf : Buffer) (name value : List Char) :
    Option Buffer :=
  match set.find name with
  | none => some buf
  -- `true` is passed as the array index
  | some info => stringToData set.size value hdr buf info 1 false

/-- The loop of `StringJSONToData`, from this place of the text on. -/
def scanJson (set : DataSet) (hdr : DataHdr) (s : List Char) :
    Nat → List Char → JsonScan → Buffer → Option Buffer
  | _, [], _, buf => some buf
  | i, c :: rest, scan, buf =>
    let quote : Bool := c = '"' ∧ scan.pc ≠ '\\'
    let inQuote := scan.inQuote ^^ quote
    if quote ∧ inQuote then
      scanJson set hdr s (i + 1) rest { scan with inQuote, fieldStart := i + 1, pc := c } buf
    else if scan.inName then
      if c = ':' then
        scanJson set hdr s (i + 1) rest
          { scan with fieldStart := i + 1, inName := false, inQuote := false, pc := c } buf
      else
        let fieldName := if inQuote then scan.fieldName ++ [c] else scan.fieldName
        scanJson set hdr s (i + 1) rest { scan with inQuote, fieldName, pc := c } buf
    else if (c = '}' ∨ c = '"' ∨ !inQuote ∧ c = ',') ∧ scan.pc ≠ '\\' then do
      let buf ←
        if scan.fieldStart ≠ 0 then
          readJsonField set hdr buf scan.fieldName
            ((s.drop scan.fieldStart).take (i - scan.fieldStart))
        else pure buf
      scanJson set hdr s (i + 1) rest
        { pc := c, fieldName := [], fieldStart := 0, inName := true, inQuote } buf
    else scanJson set hdr s (i + 1) rest { scan with inQuote, pc := c } buf

/-- `StringJSONToData`: nothing if it returns false. -/
def stringJSONToData (sets : UInt8 → Option DataSet) (s : List Char) (hdr : DataHdr)
    (buf : Buffer) : Option (DataHdr × Buffer) := do
  let pos ← findText ['"', 'i', 'd', '"', ':'] s
  let (id, outOfRange) := strtoul 10 (s.drop (pos + 5))
  let buf := { buf with erange := buf.erange || outOfRange }
  -- the identifier has 8 bits in a header
  let hdr := { hdr with id := UInt8.ofNat (id % 2 ^ 8).toNat }
  let set ← sets hdr.id
  let hdr := { hdr with size := UInt16.ofNat set.size }
  let start : JsonScan :=
    { pc := '\x00', fieldName := [], fieldStart := 0, inName := true, inQuote := false }
  let buf ← scanJson set hdr s 0 s start buf
  pure (hdr, buf)

/-- A name and a value, as a member of a JSON object. -/
def jsonMember (member : List Char × List Char) : List Char :=
  ['"'] ++ member.1 ++ ['"', ':'] ++ member.2

/-- The members of a JSON object behind its first one. -/
def jsonRest (members : List (List Char × List Char)) : List Char :=
  members.flatMap (fun member => ',' :: jsonMember member) ++ ['}']

def jsonObject (members : List (List Char × List Char)) : List Char :=
  ['{'] ++ [','].intercalate (members.map jsonMember) ++ ['}']

theorem jsonObject_cons (first : List Char × List Char) (rest : List (List Char × List Char)) :
    jsonObject (first :: rest) = '{' :: (jsonMember first ++ jsonRest rest) := by
  have joined : [','].intercalate ((first :: rest).map jsonMember) =
      jsonMember first ++ rest.flatMap (fun member => ',' :: jsonMember member) := by
    induction rest generalizing first with
    | nil => simp
    | cons next rest ih =>
      have tail := ih next
      rw [List.map_cons] at tail ⊢
      rw [List.map_cons, List.intercalate_cons_cons, tail]
      simp
  rw [jsonObject, joined, jsonRest]
  simp

/-- No name and no value has a character that separates them. -/
structure PlainMember (member : List Char × List Char) : Prop where
  name : ∀ c ∈ member.1, c ∉ ['"', ':', '\\']
  value : ∀ c ∈ member.2, c ∉ ['"', ',', '}', '\\']

/-- Of two objects with the same names, the values are the same where the texts are. -/
theorem jsonRest_inj {α : Type*} {fields : List α} {name value value' : α → List Char}
    (plain : ∀ field ∈ fields, ∀ c ∈ value field, c ∉ [',', '}'])
    (plain' : ∀ field ∈ fields, ∀ c ∈ value' field, c ∉ [',', '}'])
    (same : jsonRest (fields.map fun field => (name field, value field)) =
      jsonRest (fields.map fun field => (name field, value' field))) :
    ∀ field ∈ fields, value field = value' field := by
  induction fields with
  | nil => exact fun _ member => absurd member List.not_mem_nil
  | cons field fields ih =>
    obtain ⟨first, plain⟩ := List.forall_mem_cons.mp plain
    obtain ⟨first', plain'⟩ := List.forall_mem_cons.mp plain'
    have more (text : List Char) (rest : List (List Char × List Char)) :
        jsonRest ((name field, text) :: rest) =
          ',' :: '"' :: (name field ++ '"' :: ':' :: (text ++ jsonRest rest)) := by
      simp [jsonRest, jsonMember]
    have stop (text : List Char) (all : ∀ c ∈ text, c ∉ [',', '}'])
        (rest : List (List Char × List Char)) :
        (text ++ jsonRest rest).takeWhile (· ∉ [',', '}']) = text := by
      have ended : (jsonRest rest).takeWhile (· ∉ [',', '}']) = [] := by
        cases rest <;> rfl
      rw [List.takeWhile_append_of_pos (by simpa using all), ended, List.append_nil]
    rw [List.map_cons, List.map_cons, more, more] at same
    have tails := (List.cons.inj (List.cons.inj same).2).2
    have values := (List.cons.inj (List.cons.inj (List.append_cancel_left tails)).2).2
    have equal : value field = value' field := by
      rw [← stop _ first (fields.map fun field => (name field, value field)), values,
        stop _ first']
    rw [equal] at values
    exact List.forall_mem_cons.mpr ⟨equal, ih plain plain' (List.append_cancel_left values)⟩

section Scan

variable (set : DataSet) (hdr : DataHdr) (s : List Char)

private theorem scanJson_name {name : List Char} (plain : ∀ c ∈ name, c ∉ ['"', ':', '\\'])
    (i : Nat) (rest fieldName : List Char) (fieldStart : Nat) {pc : Char} (open' : pc ≠ '\\')
    (buf : Buffer) :
    ∃ pc' ≠ '\\', scanJson set hdr s i (name ++ rest)
        { pc, fieldName, fieldStart, inName := true, inQuote := true } buf =
      scanJson set hdr s (i + name.length) rest
        { pc := pc', fieldName := fieldName ++ name, fieldStart, inName := true,
          inQuote := true } buf := by
  induction name generalizing i fieldName pc with
  | nil => exact ⟨pc, open', by simp⟩
  | cons c name ih =>
    obtain ⟨first, plain⟩ := List.forall_mem_cons.mp plain
    simp only [List.mem_cons, List.not_mem_nil, or_false, not_or] at first
    obtain ⟨quote, colon, backslash⟩ := first
    obtain ⟨pc', still, same⟩ := ih plain (i + 1) (fieldName ++ [c]) backslash
    refine ⟨pc', still, ?_⟩
    rw [List.cons_append, scanJson]
    simp only [quote, false_and, decide_false, Bool.false_eq_true, if_false, Bool.xor_false, if_true,
      colon]
    rw [same, List.length_cons, List.append_assoc, Nat.add_right_comm]
    rfl

private theorem scanJson_value {value : List Char} (plain : ∀ c ∈ value, c ∉ ['"', ',', '}', '\\'])
    (i : Nat) (rest fieldName : List Char) (fieldStart : Nat) {pc : Char} (open' : pc ≠ '\\')
    (buf : Buffer) :
    ∃ pc' ≠ '\\', scanJson set hdr s i (value ++ rest)
        { pc, fieldName, fieldStart, inName := false, inQuote := false } buf =
      scanJson set hdr s (i + value.length) rest
        { pc := pc', fieldName, fieldStart, inName := false, inQuote := false } buf := by
  induction value generalizing i pc with
  | nil => exact ⟨pc, open', by simp⟩
  | cons c value ih =>
    obtain ⟨first, plain⟩ := List.forall_mem_cons.mp plain
    simp only [List.mem_cons, List.not_mem_nil, or_false, not_or] at first
    obtain ⟨quote, comma, brace, backslash⟩ := first
    obtain ⟨pc', still, same⟩ := ih plain (i + 1) backslash
    refine ⟨pc', still, ?_⟩
    rw [List.cons_append, scanJson]
    simp only [quote, comma, brace, false_and, decide_false, Bool.false_eq_true, if_false,
      Bool.xor_false, or_self, and_false]
    rw [same, List.length_cons, Nat.add_right_comm]
    rfl

def JsonScan.between (pc : Char) : JsonScan where
  pc := pc
  fieldName := []
  fieldStart := 0
  inName := true
  inQuote := false

/-- A member is read at the character behind it. -/
private theorem scanJson_member {member : List Char × List Char} (plain : PlainMember member)
    {before rest : List Char} {last : Char} (ends : last = ',' ∨ last = '}') {pc : Char}
    (open' : pc ≠ '\\') (whole : s = before ++ (jsonMember member ++ last :: rest))
    (buf : Buffer) :
    scanJson set hdr s before.length (jsonMember member ++ last :: rest) (.between pc) buf =
      (readJsonField set hdr buf member.1 member.2).bind fun buf =>
        scanJson set hdr s (before ++ jsonMember member ++ [last]).length rest
          (.between last) buf := by
  obtain ⟨name, value⟩ := member
  let valueStart := before.length + 1 + name.length + 1 + 1
  have text : jsonMember (name, value) ++ last :: rest =
      '"' :: (name ++ '"' :: ':' :: (value ++ last :: rest)) := by simp [jsonMember]
  have taken : (s.drop valueStart).take value.length = value := by
    have behind : s = (before ++ '"' :: (name ++ ['"', ':'])) ++ (value ++ last :: rest) := by
      rw [whole, text]
      simp
    have length : (before ++ '"' :: (name ++ ['"', ':'])).length = valueStart := by
      simp only [List.length_append, List.length_cons, List.length_nil]
      omega
    rw [behind, ← length, List.drop_left, List.take_left]
  obtain ⟨pc₁, open₁, named⟩ := scanJson_name set hdr s plain.name (before.length + 1)
    ('"' :: ':' :: (value ++ last :: rest)) [] (before.length + 1) (by decide : '"' ≠ '\\') buf
  obtain ⟨pc₂, open₂, valued⟩ := scanJson_value set hdr s plain.value valueStart (last :: rest)
    name valueStart (by decide : ':' ≠ '\\') buf
  dsimp only at named valued
  have opened : scanJson set hdr s before.length
      ('"' :: (name ++ '"' :: ':' :: (value ++ last :: rest))) (.between pc) buf =
      scanJson set hdr s (before.length + 1) (name ++ '"' :: ':' :: (value ++ last :: rest))
        { pc := '"', fieldName := [], fieldStart := before.length + 1, inName := true,
          inQuote := true } buf := by
    rw [scanJson]
    simp [JsonScan.between, open']
  have closed : scanJson set hdr s (before.length + 1 + name.length)
      ('"' :: ':' :: (value ++ last :: rest))
      { pc := pc₁, fieldName := name, fieldStart := before.length + 1, inName := true,
        inQuote := true } buf =
      scanJson set hdr s valueStart (value ++ last :: rest)
        { pc := ':', fieldName := name, fieldStart := valueStart, inName := false,
          inQuote := false } buf := by
    rw [scanJson]
    simp only [open₁, ne_eq, not_false_eq_true, and_self, decide_true, Bool.xor_true, Bool.not_true,
      Bool.false_eq_true, and_false, if_false, if_true, Char.reduceEq]
    rw [scanJson]
    simp [valueStart]
  have ended : scanJson set hdr s (valueStart + value.length) (last :: rest)
      { pc := pc₂, fieldName := name, fieldStart := valueStart, inName := false,
        inQuote := false } buf =
      (readJsonField set hdr buf name value).bind fun buf =>
        scanJson set hdr s (valueStart + value.length + 1) rest (.between last) buf := by
    have some : valueStart ≠ 0 := Nat.succ_ne_zero _
    rw [scanJson]
    obtain rfl | rfl := ends <;>
      simp [open₂, some, taken, JsonScan.between]
  have length : (before ++ jsonMember (name, value) ++ [last]).length =
      valueStart + value.length + 1 := by
    simp only [jsonMember, List.length_append, List.length_cons, List.length_nil, valueStart]
    omega
  rw [text, opened, named, List.nil_append, closed, valued, ended, length]

/-- All members are read, one after the other. -/
theorem scanJson_members {first : List Char × List Char}
    {members : List (List Char × List Char)} (plain : PlainMember first)
    (others : ∀ member ∈ members, PlainMember member) {before : List Char} {pc : Char}
    (open' : pc ≠ '\\') (whole : s = before ++ (jsonMember first ++ jsonRest members))
    (buf : Buffer) :
    scanJson set hdr s before.length (jsonMember first ++ jsonRest members) (.between pc) buf =
      (first :: members).foldlM
        (fun buf member => readJsonField set hdr buf member.1 member.2) buf := by
  induction members generalizing first before pc buf with
  | nil =>
    rw [show jsonRest [] = '}' :: [] from rfl] at whole ⊢
    rw [scanJson_member set hdr s plain (.inr rfl) open' whole]
    rfl
  | cons next members ih =>
    obtain ⟨next_plain, others⟩ := List.forall_mem_cons.mp others
    have more : jsonRest (next :: members) = ',' :: (jsonMember next ++ jsonRest members) := by
      simp [jsonRest]
    rw [more] at whole ⊢
    rw [scanJson_member set hdr s plain (.inl rfl) open' whole, List.foldlM_cons]
    refine congrArg _ (funext fun buf => ?_)
    exact ih next_plain others (by decide) (by rw [whole]; simp) buf

end Scan

end InertialSense.DataLog
