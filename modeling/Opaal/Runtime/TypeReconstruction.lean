import Opaal.Runtime.TypeUnification

/-!
# Types reconstructed from values

A call without type arguments takes them from the values it is called with: a parameter
is bound to the type of the first value that stands in its place and has one.  The type
of a list is read off its first element, while the acceptance of a value looks at all
of them.
-/

namespace Opaal.Runtime

open Opaal.Order List
open Bindings

variable {F C : Type}

/-! ## Type arguments of a call -/

mutual

def inferRuntimeTypeValue (expected actual : ValueType) (substitutions : Substitutions) : Substitutions :=
  match expected, actual with
  | .typeParameter name, actual => offer name actual substitutions
  | .list expected, .list actual => inferRuntimeTypeValue expected actual substitutions
  | .nominal expectedId expectedArguments, .nominal actualId actualArguments =>
    if expectedId == actualId && expectedArguments.length == actualArguments.length then
      inferRuntimeTypeValues expectedArguments actualArguments substitutions
    else substitutions
  | _, _ => substitutions

def inferRuntimeTypeValues : List ValueType → List ValueType → Substitutions → Substitutions
  | expected :: expecteds, actual :: actuals, substitutions =>
    inferRuntimeTypeValues expecteds actuals (inferRuntimeTypeValue expected actual substitutions)
  | _, _, substitutions => substitutions

end

def inferRuntimeSubstitution (expected : ValueType) (value : Value F C) (substitutions : Substitutions) :
    Substitutions :=
  match expected, value with
  | .typeParameter name, value =>
    match runtimeValueType value with
    | some actual => offer name actual substitutions
    | none => substitutions
  | .list expected, .list values =>
    values.foldl (fun substitutions value => inferRuntimeSubstitution expected value substitutions) substitutions
  | .nominal expectedId expectedArguments, .nominalRecord id typeArguments _ =>
    if expectedId == id then inferRuntimeTypeValues expectedArguments typeArguments substitutions else substitutions
  | .nominal expectedId expectedArguments, .variant id typeArguments _ _ =>
    if expectedId == id then inferRuntimeTypeValues expectedArguments typeArguments substitutions else substitutions
  | _, _ => substitutions

/-- The parameters of a call, one after another. -/
def inferFromArguments (arguments : List (ValueType × Value F C)) (substitutions : Substitutions) : Substitutions :=
  arguments.foldl (fun substitutions argument => inferRuntimeSubstitution argument.1 argument.2 substitutions) substitutions

/-! ## Values whose first elements are typical -/

/-- Whether two values that are no lists are of one type. -/
def Value.sameKind : Value F C → Value F C → Bool
  | .null, .null => true
  | .bool _, .bool _ => true
  | .int _, .int _ => true
  | .float _, .float _ => true
  | .string _, .string _ => true
  | .bytes _, .bytes _ => true
  | .path _, .path _ => true
  | .duration _, .duration _ => true
  | .byteSize _, .byteSize _ => true
  | .record _, .record _ => true
  | .table _ _, .table _ _ => true
  | .range _, .range _ => true
  | .status _, .status _ => true
  | .error _, .error _ => true
  | .callable family _, .callable family' _ => family == family'
  | .nominalRecord id arguments _, .nominalRecord id' arguments' _ => id == id' && arguments == arguments'
  | .nominalRecord id arguments _, .variant id' arguments' _ _ => id == id' && arguments == arguments'
  | .variant id arguments _ _, .nominalRecord id' arguments' _ => id == id' && arguments == arguments'
  | .variant id arguments _ _, .variant id' arguments' _ _ => id == id' && arguments == arguments'
  | _, _ => false

/-- The innermost first element; an empty list has none. -/
def Value.leftmost : Value F C → Option (Value F C)
  | .list [] => none
  | .list (first :: _) => first.leftmost
  | value => some value

/-- Whether a value is made of lists as deep as the first elements of another one nest,
with what is of the same kind as the innermost one in them. -/
def Value.shapes : Value F C → Value F C → Bool
  | .list (first :: _), .list values => values.all first.shapes
  | .list _, _ => false
  | leaf, value => leaf.sameKind value

/-- Every element is like the first ones, if those end in a value that is no list. -/
def Value.Reconstructible (value : Value F C) : Prop :=
  value.leftmost = none ∨ value.shapes value = true

/-- A value has a type when its first elements end in a value that is no list. -/
theorem runtimeValueType_isSome (value : Value F C) : (runtimeValueType value).isSome = value.leftmost.isSome := by
  cases value with
  | list values =>
    cases values with
    | nil => rfl
    | cons first =>
      rw [runtimeValueType, Value.leftmost, Option.isSome_map]
      exact runtimeValueType_isSome first
  | callable family => cases family <;> rfl
  | _ => rfl

/-- The type of a value that is no list accepts what is of the same kind. -/
theorem accepts_eq_sameKind {leaf : Value F C} {type : ValueType} (known : runtimeValueType leaf = some type)
    (noList : ∀ values, leaf ≠ .list values) (value : Value F C) : type.accepts value = leaf.sameKind value := by
  cases leaf with
  | list values => exact absurd rfl (noList values)
  | callable family callable =>
    cases family with
    | function | closure =>
      cases known
      cases value with
      | callable family => cases family <;> rfl
      | _ => rfl
  | _ =>
    cases known
    cases value <;> rfl

/-- The type read off one value accepts the values it shapes. -/
theorem accepts_eq_shapes (first : Value F C) (type : ValueType) (known : runtimeValueType first = some type)
    (value : Value F C) : type.accepts value = first.shapes value := by
  by_cases noList : ∀ values, first ≠ .list values
  · rw [accepts_eq_sameKind known noList]
    cases first with
    | list values => exact absurd rfl (noList values)
    | _ => rfl
  · push Not at noList
    obtain ⟨values, rfl⟩ := noList
    cases values with
    | nil => cases known
    | cons head =>
      rw [runtimeValueType, Option.map_eq_some_iff] at known
      obtain ⟨element, known, rfl⟩ := known
      cases value with
      | list =>
        rw [ValueType.accepts, Value.shapes]
        congr 1
        funext value
        exact accepts_eq_shapes head element known value
      | _ => rfl

/-- Reconstruction is right about exactly the values whose first elements are typical. -/
theorem runtimeValueType_accepts_iff (value : Value F C) :
    (∀ type, runtimeValueType value = some type → type.accepts value = true) ↔ value.Reconstructible := by
  have presence := runtimeValueType_isSome value
  cases known : runtimeValueType value with
  | none =>
    rw [known, Option.isSome_none, eq_comm, Option.isSome_eq_false_iff, Option.isNone_iff_eq_none] at presence
    exact iff_of_true (fun _ absent => nomatch absent) (.inl presence)
  | some type =>
    rw [known, Option.isSome_some, eq_comm, Option.isSome_iff_exists] at presence
    obtain ⟨_, isLeaf⟩ := presence
    have accepted := accepts_eq_shapes value type known value
    constructor
    · intro accepts
      exact .inr (by rw [← accepted]; exact accepts type rfl)
    · rintro (absent | shaped) other same
      · rw [isLeaf] at absent
        cases absent
      · cases same
        rw [accepted]
        exact shaped

/-! ## Where a type argument comes from -/

/-- What a type argument is inferred from: a value, or a type stored with a value. -/
inductive InferenceSource (F C : Type) where
  | ofValue (value : Value F C)
  | ofType (type : ValueType)

/-- The type that a source gives. -/
def InferenceSource.reconstructed : InferenceSource F C → Option ValueType
  | .ofValue value => runtimeValueType value
  | .ofType type => some type

open InferenceSource (reconstructed)

mutual

/-- The places where parameters stand in a type, with what a type has there. -/
def typeSources (expected actual : ValueType) : List (String × InferenceSource F C) :=
  match expected, actual with
  | .typeParameter name, actual => [(name, .ofType actual)]
  | .list expected, .list actual => typeSources expected actual
  | .nominal expectedId expectedArguments, .nominal actualId actualArguments =>
    if expectedId == actualId && expectedArguments.length == actualArguments.length then
      allTypeSources expectedArguments actualArguments
    else []
  | _, _ => []

def allTypeSources : List ValueType → List ValueType → List (String × InferenceSource F C)
  | expected :: expecteds, actual :: actuals => typeSources expected actual ++ allTypeSources expecteds actuals
  | _, _ => []

end

/-- The places where parameters stand in a type, with what a value has there. -/
def valueSources : ValueType → Value F C → List (String × InferenceSource F C)
  | .typeParameter name, value => [(name, .ofValue value)]
  | .list expected, .list values => values.flatMap (valueSources expected)
  | .nominal expectedId expectedArguments, .nominalRecord id typeArguments _ =>
    if expectedId == id then allTypeSources expectedArguments typeArguments else []
  | .nominal expectedId expectedArguments, .variant id typeArguments _ _ =>
    if expectedId == id then allTypeSources expectedArguments typeArguments else []
  | _, _ => []

/-- The sources of a call. -/
def argumentSources (arguments : List (ValueType × Value F C)) : List (String × InferenceSource F C) :=
  arguments.flatMap fun argument => valueSources argument.1 argument.2

/-- What the sources have to offer. -/
def offered (sources : List (String × InferenceSource F C)) : List (String × ValueType) :=
  sources.filterMap fun source => source.2.reconstructed.map (source.1, ·)

theorem offered_append (first second : List (String × InferenceSource F C)) :
    offered (first ++ second) = offered first ++ offered second :=
  filterMap_append

mutual

theorem inferRuntimeTypeValue_offers (expected actual : ValueType) (substitutions : Substitutions) :
    inferRuntimeTypeValue expected actual substitutions =
      offerAll (offered (typeSources expected actual : List (String × InferenceSource F C))) substitutions := by
  unfold inferRuntimeTypeValue typeSources
  split
  · next actual name => rfl
  · next expected actual => exact inferRuntimeTypeValue_offers expected actual substitutions
  · next expectedId expectedArguments actualId actualArguments =>
    split
    · exact inferRuntimeTypeValues_offers expectedArguments actualArguments substitutions
    · rfl
  · rfl

theorem inferRuntimeTypeValues_offers (expecteds actuals : List ValueType) (substitutions : Substitutions) :
    inferRuntimeTypeValues expecteds actuals substitutions =
      offerAll (offered (allTypeSources expecteds actuals : List (String × InferenceSource F C)))
        substitutions := by
  cases expecteds with
  | nil => rfl
  | cons expected expecteds =>
    cases actuals with
    | nil => rfl
    | cons actual actuals =>
      rw [inferRuntimeTypeValues, allTypeSources, offered_append, offerAll_append,
        ← inferRuntimeTypeValue_offers expected actual substitutions]
      exact inferRuntimeTypeValues_offers expecteds actuals _

end

/-- A fold that takes the offers of one element after another takes them all. -/
theorem foldl_offers {α : Type} (sources : α → List (String × InferenceSource F C))
    (infer : Substitutions → α → Substitutions) (values : List α) (substitutions : Substitutions)
    (each : ∀ value substitutions, infer substitutions value = offerAll (offered (sources value)) substitutions) :
    values.foldl infer substitutions = offerAll (offered (values.flatMap sources)) substitutions := by
  induction values generalizing substitutions with
  | nil => rfl
  | cons _ _ ih =>
    rw [foldl_cons, flatMap_cons, offered_append, offerAll_append, ih, each]

theorem inferRuntimeSubstitution_offers (expected : ValueType) (value : Value F C) (substitutions : Substitutions) :
    inferRuntimeSubstitution expected value substitutions =
      offerAll (offered (valueSources expected value)) substitutions := by
  unfold inferRuntimeSubstitution valueSources
  split
  · next _ _ name =>
    rw [offered, filterMap_cons, reconstructed]
    cases runtimeValueType value <;> rfl
  · next expected values =>
    exact foldl_offers _ _ values substitutions fun value substitutions =>
      inferRuntimeSubstitution_offers expected value substitutions
  · split
    · exact inferRuntimeTypeValues_offers _ _ substitutions
    · rfl
  · split
    · exact inferRuntimeTypeValues_offers _ _ substitutions
    · rfl
  · rfl

theorem inferFromArguments_offers (arguments : List (ValueType × Value F C)) (substitutions : Substitutions) :
    inferFromArguments arguments substitutions = offerAll (offered (argumentSources arguments)) substitutions :=
  foldl_offers _ _ arguments substitutions fun argument substitutions =>
    inferRuntimeSubstitution_offers argument.1 argument.2 substitutions

/-- Whether a source gives a type at all. -/
def InferenceSource.known : InferenceSource F C → Bool
  | .ofValue value => value.leftmost.isSome
  | .ofType _ => true

theorem InferenceSource.known_eq (source : InferenceSource F C) : source.reconstructed.isSome = source.known := by
  cases source with
  | ofValue value => exact runtimeValueType_isSome value
  | ofType => rfl

/-- The source that a parameter takes its argument from. -/
def sourceOf (sources : List (String × InferenceSource F C)) (name : String) : Option (InferenceSource F C) :=
  ((sources.find? fun source => name == source.1 && source.2.known)).map (·.2)

theorem offered_lookup (sources : List (String × InferenceSource F C)) (name : String) :
    (offered sources).lookup name = (sourceOf sources name).bind reconstructed := by
  induction sources with
  | nil => rfl
  | cons source _ ih =>
    obtain ⟨other, source⟩ := source
    have known := source.known_eq
    rw [offered, filterMap_cons, sourceOf, List.find?_cons]
    cases type : source.reconstructed with
    | none =>
      rw [type, Option.isSome_none] at known
      rw [← known, Bool.and_false]
      exact ih
    | some =>
      rw [type, Option.isSome_some] at known
      rw [← known, Bool.and_true]
      dsimp
      rw [lookup_cons]
      cases same : name == other with
      | true => exact type.symm
      | false => exact ih

/-- A type argument is bound by its source, unless it was bound before. -/
theorem inferFromArguments_lookup (arguments : List (ValueType × Value F C)) (substitutions : Substitutions)
    (name : String) :
    inferFromArguments arguments substitutions name =
      (substitutions name).or ((sourceOf (argumentSources arguments) name).bind reconstructed) := by
  rw [inferFromArguments_offers, Bindings.offerAll_lookup, offered_lookup]

/-- Exactly the values whose elements are all like the first ones are accepted by the type
that is reconstructed from them; and the type arguments that a call infers from values
accept these exactly when each value that gives one is such a value. -/
theorem reconstruction_accepts_iff :
    (∀ value : Value F C,
      (∀ type, runtimeValueType value = some type → type.accepts value = true) ↔ value.Reconstructible) ∧
    ∀ (arguments : List (ValueType × Value F C)) (substitutions : Substitutions),
      (∀ name, inferFromArguments arguments substitutions name =
        (substitutions name).or ((sourceOf (argumentSources arguments) name).bind reconstructed)) ∧
      ((∀ name type, substitutions name = none → inferFromArguments arguments substitutions name = some type →
          ∀ value, sourceOf (argumentSources arguments) name = some (.ofValue value) → type.accepts value = true) ↔
        ∀ name value, substitutions name = none →
          sourceOf (argumentSources arguments) name = some (.ofValue value) → value.Reconstructible) := by
  refine ⟨runtimeValueType_accepts_iff, fun arguments substitutions => ⟨inferFromArguments_lookup arguments substitutions, ?_⟩⟩
  constructor
  · intro accepts name value free source
    rw [← runtimeValueType_accepts_iff]
    intro type known
    refine accepts name type free ?_ value source
    rw [inferFromArguments_lookup, free, source]
    exact known
  · intro reconstructible name type free inferred value source
    rw [inferFromArguments_lookup, free, source] at inferred
    exact (runtimeValueType_accepts_iff value).mpr (reconstructible name value free source) type inferred

/-- A list of integers, alone and as the argument of a parameter. -/
theorem integers_reconstruction :
    (ValueType.list .int).accepts (.list [.int 1, .int 2] : Value Empty Empty) = true ∧
      ∀ type, inferFromArguments [(.typeParameter "T", (.list [.int 1, .int 2] : Value Empty Empty))] (fun _ => none) "T" =
        some type → type.accepts (.list [.int 1, .int 2] : Value Empty Empty) = true :=
  ⟨(reconstruction_accepts_iff.1 (.list [.int 1, .int 2])).mpr (.inr (by decide)) (.list .int) rfl,
    fun type inferred =>
      (reconstruction_accepts_iff.2 [(.typeParameter "T", .list [.int 1, .int 2])] (fun _ => none)).2.mpr
        (fun name value _ source => by
          by_cases same : name = "T"
          · subst same
            cases source
            exact .inr (by decide)
          · have none : sourceOf (argumentSources [(.typeParameter "T", (.list [.int 1, .int 2] : Value Empty Empty))]) name = none := by
              simp [argumentSources, valueSources, sourceOf, same]
            rw [none] at source
            cases source)
        "T" type rfl inferred (.list [.int 1, .int 2]) rfl⟩

/-- A list of an integer and a text. -/
def mixedList : Value F C := .list [.int 1, .string "a"]

/-- The type of a list that starts with an integer rejects the text that follows. -/
theorem mixedList_rejected :
    ¬ ∀ type, runtimeValueType (mixedList : Value Empty Empty) = some type → type.accepts (mixedList : Value Empty Empty) = true :=
  fun accepts => absurd (accepts (.list .int) rfl) (by decide)

end Opaal.Runtime
