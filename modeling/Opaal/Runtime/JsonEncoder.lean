import Opaal.Runtime.JsonFormat

/-!
# Canonical JSON

The encoder writes a value with the keys of every record in order and refuses output past a
limit.  What it writes denotes the value it wrote, with its keys sorted, so the budgeted
decoder returns that value and encoding it again gives the same bytes.
-/

namespace Opaal.Runtime

open Opaal.Machine List
open Opaal.Text (bytes decode)
open Nat (toDigits)

variable {F C : Type}

/-! ## The encoder -/

def maxDataBytes : Nat := 16 * 1024 * 1024

def maxDataDepth : Nat := 64

structure InvalidData where
  code : String
  message : String
deriving DecidableEq

/-- Adds to the output unless that would pass the limit. -/
def appendJson (addition output : List UInt8) : Except InvalidData (List UInt8) :=
  if maxDataBytes < output.length + addition.length then .error ⟨"DATA010", "JSON output exceeds 16 MiB"⟩
  else .ok (output ++ addition)

/-- An integer in decimal. -/
def decimal (value : Int64) : List Char :=
  if value.toInt < 0 then '-' :: toDigits 10 value.toInt.natAbs else toDigits 10 value.toInt.natAbs

/-- Items with commas between them. -/
def encodeItems {α : Type} (encode : α → List UInt8 → Except InvalidData (List UInt8)) (separate : Bool) :
    List α → List UInt8 → Except InvalidData (List UInt8)
  | [], output => .ok output
  | item :: items, output => do
    let output ← if separate then appendJson (bytes [',']) output else .ok output
    let output ← encode item output
    encodeItems encode true items output

/-- Keys are ordered by their bytes. -/
def byKey {α : Type} (left right : String × α) : Bool := (compare (bytes left.1.toList) (bytes right.1.toList)).isLE

section Encoder

variable (json : JsonLibrary (Value F C))

/-- A key, a colon and a value. -/
def encodeEntry (encode : Value F C → List UInt8 → Except InvalidData (List UInt8))
    (entry : String × Value F C) (output : List UInt8) : Except InvalidData (List UInt8) := do
  let output ← appendJson (json.serializeString entry.1.toList) output
  let output ← appendJson (bytes [':']) output
  encode entry.2 output

def encodeObject (encode : Value F C → List UInt8 → Except InvalidData (List UInt8))
    (entries : List (String × Value F C)) (output : List UInt8) : Except InvalidData (List UInt8) := do
  let output ← appendJson (bytes ['\x7b']) output
  let output ← encodeItems (encodeEntry json encode) false (entries.mergeSort byKey) output
  appendJson (bytes ['\x7d']) output

/-- The fields of a status, without one for its kind. -/
def statusFields (status : Status) : Except InvalidData (List (String × Value F C)) :=
  if 2 ^ 63 ≤ status.duration.nanoseconds then .error ⟨"DATA013", "status duration exceeds canonical JSON Int"⟩
  else
    let signal : Value F C := status.signal.elim .null fun signal =>
      .record [("name", signal.name.elim .null .string), ("number", signal.number.elim .null .int)]
    .ok [("code", status.code.elim .null .int), ("signal", signal),
      ("stages", .list (status.stages.map fun stage => .status (.ofStage stage))),
      ("duration_ns", .int (.ofInt status.duration.nanoseconds))]

/-- Values that stand for something outside of the data they hold. -/
def isOpaqueOperationalNominal (id : NominalTypeId) : Bool :=
  match id.module.origin with
  | .standard nameSpace module =>
    if nameSpace = "project" then module == "tools" || module == "endpoints" || module == "secrets"
    else if nameSpace = "std" then
      (module == "http" && id.name == "SecretHeader") || (module == "docker" && id.name == "TargetIdentity")
    else false
  | .localModule => false

def isProjectModule (id : NominalTypeId) : Bool :=
  match id.module.origin with
  | .standard nameSpace _ => nameSpace == "project"
  | .localModule => false

def unrepresentable (value : Value F C) : InvalidData :=
  ⟨"DATA013", value.familyName ++ " has no canonical JSON representation"⟩

/-- A value, with so many levels of nesting left. -/
def encodeJson : Nat → Value F C → List UInt8 → Except InvalidData (List UInt8)
  | 0, _, _ => .error ⟨"DATA011", "JSON nesting exceeds 64"⟩
  | levels + 1, value, output =>
    match value with
    | .null => appendJson (bytes ['n', 'u', 'l', 'l']) output
    | .bool value => appendJson (bytes (if value then ['t', 'r', 'u', 'e'] else ['f', 'a', 'l', 's', 'e'])) output
    | .int value => appendJson (bytes (decimal value)) output
    | .float value =>
      if value.get.isFinite then appendJson (json.printFloat value.get) output
      else .error ⟨"DATA012", "JSON float is not finite"⟩
    | .string value => appendJson (json.serializeString value.toList) output
    | .path value =>
      match decode value.bytes with
      | some text => appendJson (json.serializeString text) output
      | none => .error ⟨"DATA013", "a non-UTF-8 path has no canonical JSON representation"⟩
    | .list values => do
      let output ← appendJson (bytes ['[']) output
      let output ← encodeItems (encodeJson levels) false values output
      appendJson (bytes [']']) output
    | .record entries => encodeObject json (encodeJson levels) entries output
    | .nominalRecord id arguments fields =>
      if isOpaqueOperationalNominal id || isProjectModule id then .error (unrepresentable (.nominalRecord id arguments fields))
      else encodeObject json (encodeJson levels) fields output
    | .status status => do encodeObject json (encodeJson levels) (← statusFields status) output
    | other => .error (unrepresentable other)

def jsonEncode (value : Value F C) : Except InvalidData (List UInt8) := encodeJson json maxDataDepth value []

end Encoder

/-! ## Values with sorted keys -/

mutual

/-- The same value with the keys of every record in order. -/
def Value.sorted : Value F C → Value F C
  | .list values => .list (Value.sortedList values)
  | .record entries => .record ((Value.sortedEntries entries).mergeSort byKey)
  | .null => .null
  | .bool value => .bool value
  | .int value => .int value
  | .float value => .float value
  | .string value => .string value
  | .bytes value => .bytes value
  | .path value => .path value
  | .duration value => .duration value
  | .byteSize value => .byteSize value
  | .nominalRecord id arguments fields => .nominalRecord id arguments fields
  | .variant id arguments name payload => .variant id arguments name payload
  | .table columns rows => .table columns rows
  | .range value => .range value
  | .status value => .status value
  | .error failure => .error failure
  | .callable family held => .callable family held

def Value.sortedList : List (Value F C) → List (Value F C)
  | [] => []
  | value :: values => .sorted value :: Value.sortedList values

def Value.sortedEntries : List (String × Value F C) → List (String × Value F C)
  | [] => []
  | (key, value) :: entries => (key, .sorted value) :: Value.sortedEntries entries

end

open Value (sorted sortedEntries sortedList)

theorem sortedList_eq_map (values : List (Value F C)) : sortedList values = values.map sorted := by
  induction values with
  | nil => simp [sortedList]
  | cons _ _ ih => simp [sortedList, ih]

theorem sortedEntries_eq_map (entries : List (String × Value F C)) :
    sortedEntries entries = entries.map fun (key, value) => (key, value.sorted) := by
  induction entries with
  | nil => simp [sortedEntries]
  | cons _ _ ih => simp [sortedEntries, ih]

/-- The values that JSON has: the keys of a record are distinct. -/
inductive JsonValue : Value F C → Prop where
  | null : JsonValue .null
  | bool (value : Bool) : JsonValue (.bool value)
  | int (value : Int64) : JsonValue (.int value)
  | float (value : FiniteFloat) : JsonValue (.float value)
  | string (value : String) : JsonValue (.string value)
  | list {values : List (Value F C)} (all : ∀ value ∈ values, JsonValue value) : JsonValue (.list values)
  | record {entries : List (String × Value F C)} (distinct : (entries.map Prod.fst).Nodup)
      (all : ∀ entry ∈ entries, JsonValue entry.2) : JsonValue (.record entries)

section Keys

variable {α : Type}

theorem byKey_trans (first second third : String × α) (one : byKey first second) (two : byKey second third) :
    byKey first third :=
  Std.TransCmp.isLE_trans one two

theorem byKey_total (first second : String × α) : byKey first second || byKey second first := by
  unfold byKey
  rw [@Std.OrientedCmp.eq_swap _ compare _ (bytes second.1.toList) (bytes first.1.toList)]
  cases compare (bytes first.1.toList) (bytes second.1.toList) <;> rfl

/-- Sorting by key commutes with a change of the values. -/
theorem mergeSort_mapValues {β : Type} (change : α → β) (entries : List (String × α)) :
    (entries.mergeSort byKey).map (fun (key, value) => (key, change value)) =
      (entries.map fun (key, value) => (key, change value)).mergeSort byKey :=
  map_mergeSort fun _ _ _ _ => rfl

theorem mergeSort_idem (entries : List (String × α)) : (entries.mergeSort byKey).mergeSort byKey = entries.mergeSort byKey :=
  mergeSort_of_pairwise (pairwise_mergeSort byKey_trans byKey_total entries)

end Keys

/-! ## What the library is relied on for -/

/-- Strings and finite doubles are printed so that they are read back, and decimal integers are
read as integers: unsigned ones without a sign, signed ones with it. -/
structure Faithful (json : JsonLibrary (Value F C)) : Prop where
  strings : ∀ text, ∃ core, Json.SpellsString text core ∧ json.serializeString text = bytes core
  floats : ∀ value, value.isFinite = true → ∃ token, Json.NumberToken token ∧ json.printFloat value = bytes token ∧
    (json.deserialize valueVisitor (bytes token)).toOption = valueVisitor.visitF64 value
  naturals : ∀ value : UInt64,
    (json.deserialize valueVisitor (bytes (toDigits 10 value.toNat))).toOption = valueVisitor.visitU64 value
  negatives : ∀ value : Int64, value.toInt < 0 →
    (json.deserialize valueVisitor (bytes (decimal value))).toOption = valueVisitor.visitI64 value

/-! ## What is written -/

section Writing

variable {α β : Type} {encode : α → List UInt8 → Except InvalidData (List UInt8)}

/-- A program of the encoder writes a text of some kind behind what is there. -/
def Writes (program : List UInt8 → Except InvalidData (List UInt8)) (kind : List Char → Prop) : Prop :=
  ∀ output result, program output = .ok result → ∃ text, result = output ++ bytes text ∧ kind text

theorem appendJson_writes (text : List Char) : Writes (appendJson (bytes text)) (· = text) := by
  intro output result appended
  unfold appendJson at appended
  split at appended
  · contradiction
  · cases appended
    exact ⟨text, rfl, rfl⟩

/-- One program after another. -/
theorem Writes.bind {first second : List UInt8 → Except InvalidData (List UInt8)} {front back whole : List Char → Prop}
    (one : Writes first front) (two : Writes second back) (joined : ∀ before after, front before → back after → whole (before ++ after)) :
    Writes (fun output => first output >>= second) whole := by
  intro output result ran
  cases started : first output with
  | error error =>
    simp only [started] at ran
    contradiction
  | ok middle =>
    simp only [started] at ran
    obtain ⟨before, rfl, frontKind⟩ := one output middle started
    obtain ⟨after, rfl, backKind⟩ := two _ result ran
    exact ⟨before ++ after, by rw [Text.bytes_append, append_assoc], joined before after frontKind backKind⟩

/-- Something between brackets. -/
theorem Writes.between {inside : List UInt8 → Except InvalidData (List UInt8)} {kind whole : List Char → Prop}
    (writes : Writes inside kind) (first last : Char) (joined : ∀ body, kind body → whole (first :: (body ++ [last]))) :
    Writes (fun output => appendJson (bytes [first]) output >>= fun output => inside output >>= appendJson (bytes [last])) whole := by
  have closed : Writes (fun output => inside output >>= appendJson (bytes [last]))
      fun text => ∃ body, kind body ∧ text = body ++ [last] := by
    apply writes.bind (appendJson_writes [last])
    rintro before after held rfl
    exact ⟨before, held, rfl⟩
  apply (appendJson_writes [first]).bind closed
  rintro before after rfl ⟨body, held, rfl⟩
  exact joined body held

variable {spells : β → List Char → Prop}

/-- The commas stand between the items. -/
theorem encodeItems_writes (value : α → β) {items : List α} (nonempty : items ≠ [])
    (each : ∀ item ∈ items, Writes (encode item) (spells (value item))) :
    Writes (encodeItems encode false items) (Json.Separated spells (items.map value)) := by
  have padded : ∀ {item text}, spells item text → Json.Padded spells item text := by
    intro item text inner
    have alone : Json.Padded spells item ([] ++ text ++ []) := .intro (by simp [Json.Blank]) inner (by simp [Json.Blank])
    simpa using alone
  induction items with
  | nil => exact absurd rfl nonempty
  | cons item more ih =>
    have first := each item mem_cons_self
    cases more with
    | nil =>
      have ends : Writes (encodeItems encode true []) (· = []) := by
        intro output result ran
        cases ran
        exact ⟨[], by simp, rfl⟩
      apply first.bind ends
      rintro before after inner rfl
      rw [append_nil]
      exact .last (padded inner)
    | cons next others =>
      have onward := ih (by simp) fun other member => each other (mem_cons_of_mem item member)
      have rest : Writes (encodeItems encode true (next :: others)) fun text =>
          ∃ body, text = ',' :: body ∧ Json.Separated spells ((next :: others).map value) body := by
        apply (appendJson_writes [',']).bind onward
        rintro before after rfl separated
        exact ⟨after, rfl, separated⟩
      apply first.bind rest
      rintro before after inner ⟨_, rfl, separated⟩
      exact .more (padded inner) separated

theorem encodeItems_enclosed (value : α → β) (items : List α)
    (each : ∀ item ∈ items, Writes (encode item) (spells (value item))) :
    Writes (encodeItems encode false items) (Json.Enclosed spells (items.map value)) := by
  cases items with
  | nil =>
    intro output result ran
    cases ran
    exact ⟨[], by simp, .none (by simp [Json.Blank])⟩
  | cons =>
    intro output result ran
    obtain ⟨text, split, separated⟩ := encodeItems_writes value (by simp) each output result ran
    exact ⟨text, split, .some separated⟩

end Writing

/-! ## Numbers -/

theorem isNumeral_of_isDigit {c : Char} (digit : c.isDigit = true) : Json.isNumeral c = true := by
  unfold Json.isNumeral
  simp [digit]

theorem isDigit_toDigits {number : Nat} {c : Char} (member : c ∈ toDigits 10 number) : c.isDigit = true :=
  Nat.isDigit_of_mem_toDigits (by decide) (by decide) member

theorem numberToken_digits (number : Nat) {tail : List Char} (numerals : ∀ c ∈ tail, Json.isNumeral c = true) :
    Json.NumberToken (toDigits 10 number ++ tail) where
  starts := by
    cases digits : toDigits 10 number with
    | nil => exact absurd digits Nat.toDigits_ne_nil
    | cons c rest =>
      refine ⟨c, rest ++ tail, rfl, ?_⟩
      unfold Json.startsNumber
      rw [@isDigit_toDigits number c (by rw [digits]; exact mem_cons_self), Bool.or_true]
  numerals c member := by
    rcases mem_append.mp member with digit | other
    · exact isNumeral_of_isDigit (isDigit_toDigits digit)
    · exact numerals c other

theorem numberToken_decimal (value : Int64) : Json.NumberToken (decimal value) := by
  unfold decimal
  split
  · refine ⟨⟨'-', _, rfl, rfl⟩, ?_⟩
    intro c member
    rcases mem_cons.mp member with rfl | digit
    · rfl
    · exact isNumeral_of_isDigit (isDigit_toDigits digit)
  · have token := @numberToken_digits value.toInt.natAbs [] (by simp)
    rw [append_nil] at token
    exact token

section Faithful

variable {json : JsonLibrary (Value F C)}

theorem decimal_read (faithful : Faithful json) (value : Int64) :
    (jsonBuilder json valueVisitor).number (decimal value) = some (.int value) := by
  show (json.deserialize valueVisitor (bytes (decimal value))).toOption = _
  by_cases negative : value.toInt < 0
  · rw [faithful.negatives value negative]
    rfl
  · have bound := value.toInt_lt
    have small : value.toInt.natAbs < 2 ^ 63 := by omega
    have back : (UInt64.ofNat value.toInt.natAbs).toNat = value.toInt.natAbs := by
      exact Nat.mod_eq_of_lt (by omega)
    have digits : decimal value = toDigits 10 (UInt64.ofNat value.toInt.natAbs).toNat := by
      unfold decimal
      rw [if_neg negative, back]
    rw [digits, faithful.naturals]
    show (if (UInt64.ofNat value.toInt.natAbs).toNat < 2 ^ 63
      then some (Value.int (.ofNat (UInt64.ofNat value.toInt.natAbs).toNat)) else _) = _
    rw [back, if_pos small]
    have same : .ofNat value.toInt.natAbs = value := by
      apply Int64.toInt_inj.mp
      rw [Int64.toInt_ofNat_of_lt small]
      omega
    rw [same]

theorem floatValue_get (value : FiniteFloat) : (floatValue value.get : Option (Value F C)) = some (.float value) := by
  unfold floatValue FiniteFloat.new FiniteFloat.get
  rw [dif_pos value.finite, dif_pos value.normalized]

/-! ## Values -/

theorem encodeEntry_writes (faithful : Faithful json) {denotes : Value F C → List Char → Prop}
    {encode : Value F C → List UInt8 → Except InvalidData (List UInt8)}
    {entry : String × Value F C} (inner : Writes (encode entry.2) (denotes entry.2.sorted)) :
    Writes (encodeEntry json encode entry) (Json.Member denotes (entry.1.toList, entry.2.sorted)) := by
  obtain ⟨core, spelled, printed⟩ := faithful.strings entry.1.toList
  have colon : Writes (fun output => appendJson (bytes [':']) output >>= encode entry.2)
      fun text => ∃ body, text = ':' :: body ∧ denotes entry.2.sorted body := by
    apply (appendJson_writes [':']).bind inner
    rintro before after rfl denoted
    exact ⟨after, rfl, denoted⟩
  have whole : Writes (fun output => appendJson (bytes core) output >>= fun output => appendJson (bytes [':']) output >>= encode entry.2)
      (Json.Member denotes (entry.1.toList, entry.2.sorted)) := by
    apply (appendJson_writes core).bind colon
    rintro before after rfl ⟨body, rfl, denoted⟩
    have member : Json.Member denotes (entry.1.toList, entry.2.sorted) (before ++ [] ++ ':' :: ([] ++ body)) :=
      .intro spelled (by simp [Json.Blank]) (by simp [Json.Blank]) denoted
    simpa using member
  rw [← printed] at whole
  exact whole

/-- The members in order are the sorted record. -/
theorem object_sorted {entries : List (String × Value F C)} (distinct : (entries.map Prod.fst).Nodup) :
    (jsonBuilder json valueVisitor).object ((entries.mergeSort byKey).map fun entry => (entry.1.toList, entry.2.sorted)) =
      some (sorted (.record entries)) := by
  have keys : (((entries.mergeSort byKey).map fun entry => (entry.1.toList, entry.2.sorted)).map Prod.fst).Nodup := by
    rw [map_map]
    have listed : (entries.mergeSort byKey).map (Prod.fst ∘ fun entry => (entry.1.toList, entry.2.sorted)) =
        ((entries.mergeSort byKey).map Prod.fst).map String.toList := by
      rw [map_map]
      rfl
    rw [listed]
    apply List.Nodup.map (fun left right same => String.toList_inj.mp same)
    exact ((mergeSort_perm entries byKey).map Prod.fst).nodup_iff.mpr distinct
  show (valueVisitor : JsonVisitor (Value F C)).visitMap _ = _
  unfold valueVisitor
  simp only [recordKeysDistinct, keys, decide_true, ↓reduceIte]
  rw [sorted, sortedEntries_eq_map, ← mergeSort_mapValues, map_map]
  congr 3
  funext entry
  simp

variable {value : Value F C}

theorem encodeJson_writes (faithful : Faithful json) (levels : Nat) (built : JsonValue value) :
    Writes (encodeJson json levels value) (Json.Denotes (jsonBuilder json valueVisitor) levels value.sorted) := by
  induction levels generalizing value with
  | zero =>
    intro output result impossible
    contradiction
  | succ levels ih =>
    -- Scalars are one text.
    have scalar : ∀ {text : List Char}, Json.Denotes (jsonBuilder json valueVisitor) (levels + 1) value.sorted text →
        Writes (appendJson (bytes text)) (Json.Denotes (jsonBuilder json valueVisitor) (levels + 1) value.sorted) := by
      intro text denotes output result ran
      obtain ⟨text', split, rfl⟩ := appendJson_writes text output result ran
      exact ⟨text', split, denotes⟩
    cases built with
    | null => exact scalar .literalNull
    | bool value =>
      cases value with
      | true => exact scalar .literalTrue
      | false => exact scalar .literalFalse
    | int value => exact scalar (.number (numberToken_decimal value) (decimal_read faithful value))
    | float value =>
      obtain ⟨token, isToken, printed, read⟩ := faithful.floats value.get value.finite
      have denotes : Json.Denotes (jsonBuilder json valueVisitor) (levels + 1) (.float value) token :=
        .number isToken (read.trans (floatValue_get value))
      have program : encodeJson json (levels + 1) (.float value) = appendJson (bytes token) := by
        funext output
        unfold encodeJson
        simp [show value.get.isFinite = true from value.finite, printed]
      rw [program]
      exact scalar denotes
    | string value =>
      obtain ⟨core, spelled, printed⟩ := faithful.strings value.toList
      have denotes : Json.Denotes (jsonBuilder json valueVisitor) (levels + 1)
          (.string (String.ofList value.toList) : Value F C) core := .string spelled
      rw [String.ofList_toList] at denotes
      have program : encodeJson json (levels + 1) (.string value) = appendJson (bytes core) := by
        funext output
        show appendJson (json.serializeString value.toList) output = _
        rw [printed]
      rw [program]
      exact scalar denotes
    | @list values all =>
      have items := encodeItems_enclosed sorted values fun value member => ih (all value member)
      apply (items.between '[' ']')
      intro body enclosed
      rw [sorted, sortedList_eq_map]
      exact .array enclosed
    | @record entries distinct all =>
      have members : ∀ entry ∈ entries.mergeSort byKey, Writes (encodeEntry json (encodeJson json levels) entry)
          (Json.Member (Json.Denotes (jsonBuilder json valueVisitor) levels) (entry.1.toList, entry.2.sorted)) :=
        fun entry member => encodeEntry_writes faithful (ih (all entry (mem_mergeSort.mp member)))
      have items := encodeItems_enclosed
        (fun entry : String × Value F C => (entry.1.toList, entry.2.sorted)) _ members
      apply (items.between '\x7b' '\x7d')
      intro body enclosed
      exact .object enclosed (object_sorted distinct)

theorem encodeItems_map {α β : Type} (encode : β → List UInt8 → Except InvalidData (List UInt8)) (value : α → β)
    (separate : Bool) (items : List α) (output : List UInt8) :
    encodeItems encode separate (items.map value) output = encodeItems (fun item => encode (value item)) separate items output := by
  induction items generalizing separate output with
  | nil => rfl
  | cons item items ih =>
    have rest : encodeItems encode true (items.map value) = encodeItems (fun item => encode (value item)) true items := by
      funext output
      exact ih true output
    rw [map_cons, encodeItems, encodeItems, rest]

/-- The encoder does not see in which order the keys were. -/
theorem encodeJson_sorted (levels : Nat) (value : Value F C) (output : List UInt8) :
    encodeJson json levels value.sorted output = encodeJson json levels value output := by
  induction levels generalizing value output with
  | zero => rfl
  | succ levels ih =>
    have inner : (fun value : Value F C => encodeJson json levels value.sorted) = encodeJson json levels := by
      funext value output
      exact ih value output
    cases value with
    | list =>
      rw [sorted, sortedList_eq_map, encodeJson, encodeJson]
      congr 1
      funext output
      rw [encodeItems_map, inner]
    | record =>
      rw [sorted, sortedEntries_eq_map, encodeJson, encodeJson]
      unfold encodeObject
      have entry : (fun entry : String × Value F C =>
          encodeEntry json (encodeJson json levels) (entry.1, entry.2.sorted)) = encodeEntry json (encodeJson json levels) := by
        funext entry output
        unfold encodeEntry
        congr 1
        funext output
        congr 1
        funext output
        exact ih entry.2 output
      congr 1
      funext output
      rw [mergeSort_idem, ← mergeSort_mapValues, encodeItems_map, entry]
    | _ => simp [sorted]

/-- What was encoded denotes the value with its keys sorted. -/
theorem documentValue_encoded (faithful : Faithful json) (built : JsonValue value) {document : List UInt8}
    (encoded : jsonEncode json value = .ok document) (size : document.length ≤ maxJsonInput) :
    documentValue json document = some value.sorted := by
  obtain ⟨text, split, denotes⟩ := encodeJson_writes faithful maxDataDepth built [] document encoded
  rw [nil_append] at split
  have alone : Json.Document (jsonBuilder json valueVisitor) maxJsonDepth value.sorted ([] ++ text ++ []) :=
    .intro (by simp [Json.Blank]) denotes (by simp [Json.Blank])
  rw [nil_append, append_nil] at alone
  unfold documentValue
  rw [if_neg (by omega), split, Text.decode_bytes, Option.bind_some]
  exact (Json.readDocument_eq_some _ _ _ _).mpr alone

/-- What decoding the encoded value does, and what encoding it again gives. -/
structure RoundTrips (input : DecoderInput (Value F C)) (decoder : JsonDecoder) (document : List UInt8)
    (value : Value F C) : Prop where
  returns : ∀ result after, jsonDecode document input decoder = .ok result after → result = value.sorted
  succeeds : ∀ abort after, jsonDecode document input decoder = .error abort after →
    Interruption abort ∧ ¬Uninterrupted input decoder
  again : jsonEncode input.json value.sorted = .ok document

/-- A value that is encoded within the decoder's limits comes back with its keys sorted, unless the
decoder is interrupted. -/
theorem json_round_trip (input : DecoderInput (Value F C)) (decoder : JsonDecoder)
    (value : Value F C) (document : List UInt8) (faithful : Faithful input.json) (built : JsonValue value)
    (encoded : jsonEncode input.json value = .ok document) (size : document.length ≤ maxJsonInput) :
    RoundTrips input decoder document value := by
  have decides := (jsonDecode_decides input decoder document).1
  rw [documentValue_encoded faithful built encoded size] at decides
  unfold Decides at decides
  refine ⟨?_, ?_, ?_⟩
  · intro result after ran
    rw [ran] at decides
    exact (Option.some.inj decides).symm
  · intro abort after ran
    rw [ran] at decides
    rcases decides with interrupted | ⟨impossible, _⟩
    · exact interrupted
    · contradiction
  · unfold jsonEncode
    rw [encodeJson_sorted]
    exact encoded

end Faithful

/-! ## The small library is faithful -/

theorem plainEscape_spells (c : Char) : Json.SpellsChar c (plainEscape c) := by
  unfold plainEscape
  split_ifs with quote slash back tab line feed carriage control
  · exact .escaped '"' c (by rw [quote]; rfl)
  · exact .escaped '\\' c (by rw [slash]; rfl)
  · exact .escaped 'b' c (by rw [back]; rfl)
  · exact .escaped 't' c (by rw [tab]; rfl)
  · exact .escaped 'n' c (by rw [line]; rfl)
  · exact .escaped 'f' c (by rw [feed]; rfl)
  · exact .escaped 'r' c (by rw [carriage]; rfl)
  · have digits : ∀ n, n < 32 → Json.hexValue '0' '0' (Nat.digitChar (n / 16)) (Nat.digitChar (n % 16)) = some n := by decide
    have plain : ∀ n, n < 32 → Json.isHighSurrogate n = false := by decide
    refine .unit '0' '0' _ _ c c.toNat (digits c.toNat control) (plain c.toNat control) ?_
    have valid : c.toNat.isValidChar := c.valid
    unfold Json.scalar
    rw [if_pos valid, Char.ofNat_toNat]
  · exact .raw c (by omega) quote slash

theorem plainText_spells (text : List Char) : Json.SpellsText text (text.flatMap plainEscape) := by
  induction text with
  | nil => exact .nil
  | cons c _ ih =>
    exact .cons (plainEscape_spells c) ih

theorem plainNumber_digits {β : Type} (visitor : JsonVisitor β) {token : List Char} {c : Char} {rest : List Char}
    (split : token = c :: rest) (digit : c.isDigit = true) : plainNumber visitor token =
      if token.all Char.isDigit then visitor.visitU64 (.ofNat (Nat.ofDigitChars 10 token 0))
      else if ['e', '0'].isSuffixOf token then visitor.visitF64 ⟨.ofNat (Nat.ofDigitChars 10 token.dropLast.dropLast 0)⟩
      else none := by
  unfold plainNumber
  split
  · cases split
    contradiction
  · rfl

theorem plainJson_faithful : Faithful (plainJson : JsonLibrary (Value F C)) := by
  have starts : ∀ number, ∃ c rest, toDigits 10 number = c :: rest ∧ c.isDigit = true := by
    intro number
    cases digits : toDigits 10 number with
    | nil => exact absurd digits Nat.toDigits_ne_nil
    | cons c rest => exact ⟨c, rest, rfl, isDigit_toDigits (by rw [digits]; exact mem_cons_self)⟩
  have digits : ∀ number, (toDigits 10 number).all Char.isDigit = true := by
    intro number
    rw [all_eq_true]
    intro c member
    exact isDigit_toDigits member
  refine ⟨?_, ?_, ?_, ?_⟩
  · intro text
    exact ⟨_, .quoted (plainText_spells text), rfl⟩
  · intro value _
    have token := @numberToken_digits value.bits.toNat ['e', '0'] (all_eq_true.mp (by decide))
    refine ⟨_, token, rfl, ?_⟩
    obtain ⟨c, rest, split, digit⟩ := starts value.bits.toNat
    rw [plainJson_number valueVisitor token, plainNumber_digits valueVisitor (by rw [split]; rfl) digit, if_neg, if_pos]
    · have word : (toDigits 10 value.bits.toNat ++ ['e', '0']).dropLast.dropLast = toDigits 10 value.bits.toNat := by
        simp
      rw [word, Nat.ofDigitChars_ten_toDigits, UInt64.ofNat_toNat]
    · exact isSuffixOf_iff_suffix.mpr (suffix_append _ _)
    · simp
  · intro value
    have token := @numberToken_digits value.toNat [] (by simp)
    rw [append_nil] at token
    obtain ⟨c, rest, split, digit⟩ := starts value.toNat
    rw [plainJson_number valueVisitor token, plainNumber_digits valueVisitor split digit, if_pos (digits value.toNat),
      Nat.ofDigitChars_ten_toDigits, UInt64.ofNat_toNat]
  · intro value negative
    rw [plainJson_number valueVisitor (numberToken_decimal value)]
    unfold decimal
    rw [if_pos negative]
    show (if (toDigits 10 value.toInt.natAbs).all Char.isDigit
      then valueVisitor.visitI64 (.ofInt (-(Nat.ofDigitChars 10 (toDigits 10 value.toInt.natAbs) 0))) else none) = _
    rw [if_pos (digits _), Nat.ofDigitChars_ten_toDigits]
    have back : -(value.toInt.natAbs : Int) = value.toInt := by omega
    rw [back, Int64.ofInt_toInt]

def plainRecord : Value Unit Unit := .record [("b", .list [.int 1, .null]), ("a", .string "x")]

def plainDocument : List Char :=
  ['\x7b', '"', 'a', '"', ':', '"', 'x', '"', ',', '"', 'b', '"', ':', '[', '1', ',', 'n', 'u', 'l', 'l', ']', '\x7d']

theorem plainRecord_encoded : jsonEncode plainInput.json plainRecord = .ok (bytes plainDocument) := by
  have order : ([("b", .list [.int 1, .null]), ("a", .string "x")] : List (String × Value Unit Unit)).mergeSort byKey =
      [("a", .string "x"), ("b", .list [.int 1, .null])] := by
    have swapped : (byKey ("b", (.list [.int 1, .null] : Value Unit Unit)) ("a", .string "x")) = false := by decide
    simp [List.mergeSort, swapped]
  show encodeObject plainInput.json (encodeJson plainInput.json 63) _ [] = _
  unfold encodeObject
  rw [order]
  rfl

/-- A record whose keys were not in order. -/
theorem json_round_trip_record : RoundTrips plainInput plainDecoder (bytes plainDocument) plainRecord := by
  have built : JsonValue plainRecord := by
    refine .record (by decide) ?_
    simp only [mem_cons, not_mem_nil, or_false, forall_eq_or_imp, forall_eq]
    refine ⟨.list ?_, .string "x"⟩
    simp only [mem_cons, not_mem_nil, or_false, forall_eq_or_imp, forall_eq]
    exact ⟨.int 1, .null⟩
  have size : (bytes plainDocument).length ≤ maxJsonInput := by
    rw [show (bytes plainDocument).length = 22 by decide]
    unfold maxJsonInput
    omega
  exact json_round_trip plainInput plainDecoder plainRecord (bytes plainDocument) plainJson_faithful built
    plainRecord_encoded size

end Opaal.Runtime
