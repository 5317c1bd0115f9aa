import Opaal.Machine.Stateful
import Opaal.Runtime.Scope

/-!
# Overload sets of operations

The signatures a standard operation can be called with, the check that no two of them meet, and
the resolution of a call against them. The check compares types, a call is resolved from values or
from what is known of their types; the check has to rule out every common instance of two types.
-/

namespace Opaal.Runtime

open List
open Opaal.Machine (bind_ok)
open Bool (and_eq_true)
open ValueType (accepts sameAll)

variable {F C : Type}

/-! ## Types of arguments -/

abbrev Substitutions := String → Option ValueType

def ValueType.acceptsType : ValueType → ValueType → Bool
  | .any, _ => true
  | .list expected, .list actual => expected.acceptsType actual
  | expected, actual => expected == actual

def callTypesCompatible : ValueType → ValueType → Bool
  | .any, _ => true
  | .typeParameter _, _ => true
  | _, .any => true
  | _, .typeParameter _ => true
  | .list expected, .list actual => callTypesCompatible expected actual
  | expected, actual => expected.acceptsType actual

/-- The type of a value; an empty list has none. -/
def runtimeValueType : Value F C → Option ValueType
  | .null => some .null
  | .bool _ => some .bool
  | .int _ => some .int
  | .float _ => some .float
  | .string _ => some .string
  | .bytes _ => some .bytes
  | .path _ => some .path
  | .duration _ => some .duration
  | .byteSize _ => some .byteSize
  | .list [] => none
  | .list (first :: _) => (runtimeValueType first).map .list
  | .record _ => some .record
  | .table _ _ => some .table
  | .range _ => some .range
  | .status _ => some .status
  | .error _ => some .error
  | .callable .closure _ => some .closure
  | .callable .function _ => some .function
  | .nominalRecord id arguments _ => some (.nominal id arguments)
  | .variant id arguments _ _ => some (.nominal id arguments)

/-! ## Descriptors -/

/-- The carrier and type of one argument. -/
inductive OperationInputType where
  | value (type : ValueType)
  | valueStream (type : ValueType)

def OperationInputType.type : OperationInputType → ValueType
  | .value type => type
  | .valueStream type => type

structure OperationCallback where
  parameters : List ValueType
  result : ValueType

structure OperationParameter where
  name : String
  input : OperationInputType
  callback : Option OperationCallback

structure OperationOverload where
  input : OperationInputType
  parameters : List OperationParameter
  result : ValueType

/-- What of an operation descriptor its overload set is made of. -/
structure OverloadDescriptor where
  typeParameters : List String
  overloads : List OperationOverload

inductive OperationDescriptorError where
  | emptyOverloadSet
  | duplicateTypeParameter (name : String)
  | unknownTypeParameter (name : String)
  | overlappingOverloads
deriving DecidableEq

def OperationDescriptorError.message : OperationDescriptorError → String
  | .emptyOverloadSet => "operation has no overloads"
  | .duplicateTypeParameter name => "operation repeats type parameter `" ++ name ++ "`"
  | .unknownTypeParameter name => "operation references undeclared type parameter `" ++ name ++ "`"
  | .overlappingOverloads => "operation has overlapping unifiable overloads"

/-! ## Validation -/

mutual

def validateTypeParameters (declared : List String) : ValueType → Except OperationDescriptorError Unit
  | .typeParameter name => if name ∈ declared then .ok () else .error (.unknownTypeParameter name)
  | .list element => validateTypeParameters declared element
  | .nominal _ arguments => validateAllTypeParameters declared arguments
  | _ => .ok ()

def validateAllTypeParameters (declared : List String) : List ValueType → Except OperationDescriptorError Unit
  | [] => .ok ()
  | argument :: rest => do
    validateTypeParameters declared argument
    validateAllTypeParameters declared rest

end

mutual

/-- Whether two types may have an instance in common. -/
def typesOverlap : ValueType → ValueType → Bool
  | .any, _ => true
  | .typeParameter _, _ => true
  | _, .any => true
  | _, .typeParameter _ => true
  | .list left, .list right => typesOverlap left right
  | .nominal leftId leftArguments, .nominal rightId rightArguments =>
    leftId == rightId && argumentsOverlap leftArguments rightArguments
  | left, right => left == right

/-- Arguments overlap one by one, and are equally many. -/
def argumentsOverlap : List ValueType → List ValueType → Bool
  | [], [] => true
  | left :: lefts, right :: rights => typesOverlap left right && argumentsOverlap lefts rights
  | _, _ => false

end

def inputsOverlap : OperationInputType → OperationInputType → Bool
  | .value left, .value right => typesOverlap left right
  | .valueStream left, .valueStream right => typesOverlap left right
  | _, _ => false

def overloadsOverlap (left right : OperationOverload) : Bool :=
  left.parameters.length == right.parameters.length &&
    (left.parameters.zip right.parameters).all fun (left, right) => inputsOverlap left.input right.input

def anyOverlap : List OperationOverload → Bool
  | [] => false
  | left :: rest => rest.any (overloadsOverlap left) || anyOverlap rest

/-- The declared parameters, each once. -/
def distinctParameters : List String → List String → Except OperationDescriptorError (List String)
  | [], seen => .ok seen
  | name :: rest, seen => if name ∈ seen then .error (.duplicateTypeParameter name) else distinctParameters rest (name :: seen)

def validateParameter (declared : List String) (parameter : OperationParameter) : Except OperationDescriptorError Unit := do
  validateTypeParameters declared parameter.input.type
  match parameter.callback with
  | some callback =>
    validateAllTypeParameters declared callback.parameters
    validateTypeParameters declared callback.result
  | none => return ()

def validateOverload (declared : List String) (overload : OperationOverload) : Except OperationDescriptorError Unit := do
  overload.parameters.forM (validateParameter declared)
  validateTypeParameters declared overload.result

/-- Checks the overload set as a whole. -/
def OverloadDescriptor.validate (descriptor : OverloadDescriptor) : Except OperationDescriptorError Unit :=
  if descriptor.overloads.isEmpty then .error .emptyOverloadSet
  else do
    let declared ← distinctParameters descriptor.typeParameters []
    descriptor.overloads.forM (validateOverload declared)
    if anyOverlap descriptor.overloads then .error .overlappingOverloads else return ()

/-! ## Resolution -/

/-- Whether an overload takes some values, its parameters instantiated. -/
def OperationOverload.acceptsTuple (overload : OperationOverload) (substitutions : Substitutions)
    (values : List (Value F C)) : Bool :=
  overload.parameters.length == values.length &&
    (overload.parameters.zip values).all fun (parameter, value) =>
      match parameter.input with
      | .value expected => (substituteType substitutions expected).accepts value
      | .valueStream _ => false

def inputCompatible (substitutions : Substitutions) : OperationInputType → OperationInputType → Bool
  | .value expected, .value actual => callTypesCompatible (substituteType substitutions expected) actual
  | .valueStream expected, .valueStream actual => callTypesCompatible (substituteType substitutions expected) actual
  | _, _ => false

def OperationOverload.inputAt (overload : OperationOverload) (index : Nat) : Option OperationInputType :=
  overload.parameters[index]?.map (·.input)

open OperationOverload

/-- Candidates by the arguments from an index on; unknown ones tell none apart. -/
def resolveFrom (substitutions : Substitutions) : Nat → List (Option OperationInputType) → List OperationOverload →
    Except (Nat × OperationInputType) (List OperationOverload)
  | _, [], candidates => .ok candidates
  | index, none :: rest, candidates => resolveFrom substitutions (index + 1) rest candidates
  | index, some actual :: rest, candidates =>
    let expected := candidates.head?.bind (·.inputAt index)
    let kept := candidates.filter fun overload => (overload.inputAt index).any (inputCompatible substitutions · actual)
    if kept.isEmpty then .error (index, expected.getD actual) else resolveFrom substitutions (index + 1) rest kept

def OverloadDescriptor.resolveCall (descriptor : OverloadDescriptor) (arguments : List (Option OperationInputType))
    (substitutions : Substitutions) : Except (Nat × OperationInputType) (List OperationOverload) :=
  resolveFrom substitutions 0 arguments
    (descriptor.overloads.filter fun overload => overload.parameters.length == arguments.length)

/-! ## Common instances overlap -/

theorem nominalTypeId_beq (left right : NominalTypeId) :
    (left == right) = true ↔ left.module.path.components = right.module.path.components ∧
      left.module.origin = right.module.origin ∧ left.name = right.name := by
  change ((left.module.path.components == right.module.path.components && left.module.origin == right.module.origin) &&
    left.name == right.name) = true ↔ _
  rw [and_eq_true, and_eq_true, beq_iff_eq, beq_iff_eq, beq_iff_eq, and_assoc]

/-- Two identities that equal a third one equal each other. -/
theorem nominalTypeId_euclidean {left right common : NominalTypeId} (first : (left == common) = true)
    (second : (right == common) = true) : (left == right) = true := by
  rw [nominalTypeId_beq] at *
  exact ⟨first.1.trans second.1.symm, first.2.1.trans second.2.1.symm, first.2.2.trans second.2.2.symm⟩

theorem types_beq (left right : List ValueType) : (left == right) = sameAll left right := by
  induction left generalizing right with
  | nil => cases right <;> rfl
  | cons _ _ ih =>
    cases right with
    | nil => rfl
    | cons =>
      rw [sameAll, ← ih]
      rfl

/-- A type with no type inside it. -/
def ValueType.basic : ValueType → Bool
  | .any => false
  | .typeParameter _ => false
  | .list _ => false
  | .nominal _ _ => false
  | _ => true

variable {left right type expected : ValueType} {substitutions : Substitutions} {descriptor : OverloadDescriptor}

theorem ValueType.basic_same (basic : left.basic = true ∨ right.basic = true) (equal : ValueType.same left right = true) : left = right := by
  unfold ValueType.same at equal
  split at equal <;> first | rfl | contradiction | simp [ValueType.basic] at basic

theorem ValueType.same_self_of_basic (basic : type.basic = true) : ValueType.same type type = true := by
  cases type <;> first | rfl | simp [ValueType.basic] at basic

theorem substituteType_basic (substitutions : Substitutions) (basic : type.basic = true) :
    substituteType substitutions type = type := by
  cases type <;> first | rfl | simp [ValueType.basic] at basic

theorem typesOverlap_open (left right : ValueType) (isOpen : right = .any ∨ ∃ name, right = .typeParameter name) :
    typesOverlap left right = true := by
  rcases isOpen with rfl | ⟨_, rfl⟩ <;> cases left <;> rfl

theorem typesOverlap_of_basic (basic : left.basic = true) (equal : left = right) :
    typesOverlap left right = true := by
  subst equal
  have same := ValueType.same_self_of_basic basic
  cases left <;> first | exact same | simp [ValueType.basic] at basic

/-- A basic type is only an instance of itself and of what is open. -/
theorem typesOverlap_of_basic_same (substitutions : Substitutions) {common : ValueType} (basic : left.basic = true)
    (first : ValueType.same (substituteType substitutions left) common = true)
    (second : ValueType.same (substituteType substitutions right) common = true) : typesOverlap left right = true := by
  rw [substituteType_basic substitutions basic] at first
  obtain rfl := ValueType.basic_same (.inl basic) first
  have same := ValueType.basic_same (.inr basic) second
  cases right with
  | any => exact typesOverlap_open left _ (.inl rfl)
  | typeParameter name => exact typesOverlap_open left _ (.inr ⟨name, rfl⟩)
  | list | nominal => simp [← same, substituteType, ValueType.basic] at basic
  | _ => exact typesOverlap_of_basic basic same.symm

mutual

/-- Two types that one type is an instance of overlap. -/
theorem typesOverlap_of_same (substitutions : Substitutions) (left right common : ValueType)
    (first : ValueType.same (substituteType substitutions left) common = true)
    (second : ValueType.same (substituteType substitutions right) common = true) : typesOverlap left right = true := by
  cases left with
  | any | typeParameter => rw [typesOverlap]
  | list element =>
    cases right with
    | any | typeParameter => rfl
    | list other =>
      cases common with
      | list shared => exact typesOverlap_of_same substitutions element other shared first second
      | _ => simp [substituteType, ValueType.same] at first
    | _ => cases common <;> simp [substituteType, ValueType.same] at first second
  | nominal _ arguments =>
    cases right with
    | any | typeParameter => rfl
    | nominal _ arguments' =>
      cases common with
      | nominal _ sharedArguments =>
        simp only [substituteType, ValueType.same, and_eq_true] at first second
        rw [typesOverlap, and_eq_true]
        exact ⟨nominalTypeId_euclidean first.1 second.1,
          argumentsOverlap_of_same substitutions arguments arguments' sharedArguments first.2 second.2⟩
      | _ => simp [substituteType, ValueType.same] at first
    | _ => cases common <;> simp [substituteType, ValueType.same] at first second
  | _ => exact typesOverlap_of_basic_same substitutions rfl first second

theorem argumentsOverlap_of_same (substitutions : Substitutions) (lefts rights commons : List ValueType)
    (first : sameAll (substituteTypes substitutions lefts) commons = true)
    (second : sameAll (substituteTypes substitutions rights) commons = true) :
    argumentsOverlap lefts rights = true := by
  cases lefts with
  | nil =>
    cases commons with
    | nil =>
      cases rights with
      | nil => rfl
      | cons => simp [substituteTypes, sameAll] at second
    | cons => simp [substituteTypes, sameAll] at first
  | cons left lefts =>
    cases commons with
    | nil => simp [substituteTypes, sameAll] at first
    | cons common commons =>
      cases rights with
      | nil => simp [substituteTypes, sameAll] at second
      | cons right rights =>
        simp only [substituteTypes, sameAll, and_eq_true] at first second
        rw [argumentsOverlap, and_eq_true]
        exact ⟨typesOverlap_of_same substitutions left right common first.1 second.1,
          argumentsOverlap_of_same substitutions lefts rights commons first.2 second.2⟩

end

/-- A type that every type is compatible with. -/
def ValueType.isOpen : ValueType → Bool
  | .any => true
  | .typeParameter _ => true
  | _ => false

/-- Types known through every list around them. -/
def ValueType.known : ValueType → Bool
  | .any => false
  | .typeParameter _ => false
  | .list element => element.known
  | _ => true

theorem substituteType_closed (substitutions : Substitutions) (closed : type.isOpen = false) :
    (substituteType substitutions type).isOpen = false := by
  cases type <;> first | rfl | simp [ValueType.isOpen] at closed

theorem typesOverlap_isOpen (isOpen : left.isOpen = true ∨ right.isOpen = true) :
    typesOverlap left right = true := by
  rcases isOpen with isOpen | isOpen
  · cases left with
    | any | typeParameter => rw [typesOverlap]
    | _ => simp [ValueType.isOpen] at isOpen
  · cases right with
    | any => exact typesOverlap_open left _ (.inl rfl)
    | typeParameter name => exact typesOverlap_open left _ (.inr ⟨name, rfl⟩)
    | _ => simp [ValueType.isOpen] at isOpen

/-- Outside lists, known types are compatible when they are equal. -/
theorem callTypesCompatible_flat {actual : ValueType} (closed : expected.isOpen = false) (known : actual.isOpen = false)
    (flat : ∀ element, actual ≠ .list element) (compatible : callTypesCompatible expected actual = true) : ValueType.same expected actual = true := by
  unfold callTypesCompatible at compatible
  split at compatible
  · simp [ValueType.isOpen] at closed
  · simp [ValueType.isOpen] at closed
  · simp [ValueType.isOpen] at known
  · simp [ValueType.isOpen] at known
  · exact absurd rfl (flat _)
  · unfold ValueType.acceptsType at compatible
    split at compatible
    · simp [ValueType.isOpen] at closed
    · exact absurd rfl (flat _)
    · exact compatible

/-- Only a list type is compatible with a list type, when no type is open. -/
theorem callTypesCompatible_list {element : ValueType} (closed : expected.isOpen = false)
    (compatible : callTypesCompatible expected (.list element) = true) :
    ∃ inner, expected = .list inner ∧ callTypesCompatible inner element = true := by
  cases expected with
  | any | typeParameter => simp [ValueType.isOpen] at closed
  | list inner => exact ⟨inner, rfl, compatible⟩
  | _ => exact absurd compatible (by simp [callTypesCompatible, ValueType.acceptsType, BEq.beq, ValueType.same])

theorem substituteType_list {inner : ValueType} (closed : type.isOpen = false)
    (substituted : substituteType substitutions type = .list inner) :
    ∃ element, type = .list element ∧ substituteType substitutions element = inner := by
  cases type with
  | typeParameter => simp [ValueType.isOpen] at closed
  | list element => exact ⟨element, rfl, by simpa [substituteType] using substituted⟩
  | _ => simp [substituteType] at substituted

theorem ValueType.known_closed (known : type.known = true) : type.isOpen = false := by
  cases type <;> first | rfl | simp [ValueType.known] at known

/-- Two types that a known type is compatible with overlap. -/
theorem typesOverlap_of_compatible (substitutions : Substitutions) (left right actual : ValueType)
    (known : actual.known = true) (first : callTypesCompatible (substituteType substitutions left) actual = true)
    (second : callTypesCompatible (substituteType substitutions right) actual = true) :
    typesOverlap left right = true := by
  by_cases leftOpen : left.isOpen = true
  · exact typesOverlap_isOpen (.inl leftOpen)
  by_cases rightOpen : right.isOpen = true
  · exact typesOverlap_isOpen (.inr rightOpen)
  have leftClosed : left.isOpen = false := by simpa using leftOpen
  have rightClosed : right.isOpen = false := by simpa using rightOpen
  have leftRemains := substituteType_closed substitutions leftClosed
  have rightRemains := substituteType_closed substitutions rightClosed
  have closed : actual.isOpen = false := ValueType.known_closed known
  have flatCase : (∀ element, actual ≠ .list element) → typesOverlap left right = true :=
    fun flat => typesOverlap_of_same substitutions left right actual
      (callTypesCompatible_flat leftRemains closed flat first) (callTypesCompatible_flat rightRemains closed flat second)
  cases actual with
  | list element =>
    obtain ⟨_, isList, first⟩ := callTypesCompatible_list leftRemains first
    obtain ⟨leftElement, rfl, rfl⟩ := substituteType_list leftClosed isList
    obtain ⟨_, isList, second⟩ := callTypesCompatible_list rightRemains second
    obtain ⟨rightElement, rfl, rfl⟩ := substituteType_list rightClosed isList
    exact typesOverlap_of_compatible substitutions leftElement rightElement element known first second
  | _ => exact flatCase (by simp)

/-- The type of a value is known. -/
theorem runtimeValueType_known (value : Value F C) (type : ValueType)
    (typed : runtimeValueType value = some type) : type.known = true := by
  fun_induction runtimeValueType value generalizing type with
  | case10 => cases typed
  | case11 _ _ ih =>
    obtain ⟨element, found, rfl⟩ := Option.map_eq_some_iff.mp typed
    exact ih element found
  | _ =>
    cases typed
    rfl

theorem callTypesCompatible_nominal {expectedId id : NominalTypeId} {expectedArguments arguments : List ValueType}
    (equal : (expectedId == id && expectedArguments == arguments) = true) :
    callTypesCompatible (.nominal expectedId expectedArguments) (.nominal id arguments) = true := by
  rw [types_beq] at equal
  exact equal

/-- A type that takes a value is compatible with the value's type. -/
theorem callTypesCompatible_of_accepts (expected : ValueType) (value : Value F C) (actual : ValueType)
    (typed : runtimeValueType value = some actual) (accepted : expected.accepts value = true) :
    callTypesCompatible expected actual = true := by
  fun_induction runtimeValueType value generalizing expected actual with
  | case10 => cases typed
  | case11 first _ ih =>
    obtain ⟨element, found, rfl⟩ := Option.map_eq_some_iff.mp typed
    cases expected with
    | any | typeParameter => rw [callTypesCompatible]
    | list inner =>
      have taken : inner.accepts first = true := by
        simp only [accepts, all_cons, and_eq_true] at accepted
        exact accepted.1
      exact ih inner element found taken
    | _ => simp [accepts] at accepted
  | case19 | case20 =>
    cases typed
    cases expected with
    | any | typeParameter => rw [callTypesCompatible]
    | nominal => exact callTypesCompatible_nominal accepted
    | _ => simp [accepts] at accepted
  | _ =>
    cases typed
    cases expected with
    | any | typeParameter => rw [callTypesCompatible]
    | _ => first | rfl | simp [accepts] at accepted

/-! ## At most one overload -/

/-- Overloads overlap when their inputs do at every place. -/
theorem overloadsOverlap_of_inputs {left right : OperationOverload} (sameLength : left.parameters.length = right.parameters.length)
    (inputs : ∀ index leftInput rightInput, left.inputAt index = some leftInput → right.inputAt index = some rightInput →
      inputsOverlap leftInput rightInput = true) : overloadsOverlap left right = true := by
  rw [overloadsOverlap, and_eq_true, beq_iff_eq, all_eq_true]
  refine ⟨sameLength, fun pair found => ?_⟩
  obtain ⟨index, inside, rfl⟩ := mem_iff_getElem.mp found
  have insideLeft : index < left.parameters.length := by
    rw [length_zip] at inside
    omega
  have insideRight : index < right.parameters.length := by omega
  have leftAt : left.inputAt index = some left.parameters[index].input := by
    rw [inputAt, List.getElem?_eq_getElem insideLeft]
    rfl
  have rightAt : right.inputAt index = some right.parameters[index].input := by
    rw [inputAt, List.getElem?_eq_getElem insideRight]
    rfl
  simpa using inputs index _ _ leftAt rightAt

theorem anyOverlap_pairwise (overloads : List OperationOverload) (none : anyOverlap overloads = false) :
    overloads.Pairwise (overloadsOverlap · · = false) := by
  induction overloads with
  | nil => exact .nil
  | cons _ _ ih =>
    rw [anyOverlap, Bool.or_eq_false_iff, any_eq_false] at none
    refine pairwise_cons.mpr ⟨fun right found => ?_, ih none.2⟩
    simpa using none.1 right found

/-- What validation promises about a set of overloads. -/
theorem OverloadDescriptor.validate_apart (valid : descriptor.validate = .ok ()) :
    descriptor.overloads.Pairwise (overloadsOverlap · · = false) := by
  refine anyOverlap_pairwise _ ?_
  rw [OverloadDescriptor.validate] at valid
  split at valid
  · cases valid
  · obtain ⟨_, _, valid⟩ := bind_ok valid
    obtain ⟨_, _, valid⟩ := bind_ok valid
    by_contra overlapping
    rw [if_pos (by simpa using overlapping)] at valid
    cases valid

/-- Of overloads that are apart, one is left when all that are left meet. -/
theorem length_le_one_of_meeting {overloads kept : List OperationOverload} (sublist : kept.Sublist overloads)
    (apart : overloads.Pairwise (overloadsOverlap · · = false))
    (meeting : ∀ left ∈ kept, ∀ right ∈ kept, overloadsOverlap left right = true) : kept.length ≤ 1 := by
  have keptApart := apart.sublist sublist
  match kept, keptApart, meeting with
  | [], _, _ => simp
  | [_], _, _ => simp
  | left :: right :: rest, keptApart, meeting =>
    have overlap := meeting left (by simp) right (by simp)
    have none := (pairwise_cons.mp keptApart).1 right (by simp)
    rw [overlap] at none
    cases none

theorem inputsOverlap_of_compatible (substitutions : Substitutions) {left right actual : OperationInputType}
    (known : actual.type.known = true) (first : inputCompatible substitutions left actual = true)
    (second : inputCompatible substitutions right actual = true) : inputsOverlap left right = true := by
  cases actual with
  | value type =>
    cases left with
    | value leftType =>
      cases right with
      | value rightType => exact typesOverlap_of_compatible substitutions leftType rightType type known first second
      | valueStream => cases second
    | valueStream => cases first
  | valueStream type =>
    cases left with
    | value => cases first
    | valueStream leftType =>
      cases right with
      | value => cases second
      | valueStream rightType => exact typesOverlap_of_compatible substitutions leftType rightType type known first second

theorem resolveFrom_kept (substitutions : Substitutions) (index : Nat) (arguments : List (Option OperationInputType))
    (candidates kept : List OperationOverload) (resolved : resolveFrom substitutions index arguments candidates = .ok kept) :
    kept.Sublist candidates ∧ ∀ overload ∈ kept, ∀ offset actual, arguments[offset]? = some (some actual) →
      ∃ input, overload.inputAt (index + offset) = some input ∧ inputCompatible substitutions input actual = true := by
  fun_induction resolveFrom substitutions index arguments candidates with
  | case1 =>
    cases resolved
    exact ⟨List.Sublist.refl _, by simp⟩
  | case2 _ _ _ ih =>
    obtain ⟨sublist, compatible⟩ := ih resolved
    refine ⟨sublist, fun overload found offset actual argument => ?_⟩
    cases offset with
    | zero => simp at argument
    | succ offset =>
      have later := compatible overload found offset actual (by simpa using argument)
      rwa [Nat.add_right_comm, Nat.add_assoc] at later
  | case3 => cases resolved
  | case4 _ actual _ _ _ _ ih =>
    obtain ⟨sublist, compatible⟩ := ih resolved
    refine ⟨sublist.trans filter_sublist, fun overload found offset argument given => ?_⟩
    cases offset with
    | zero =>
      obtain rfl : actual = argument := by simpa using given
      have here := (mem_filter.mp (sublist.subset found)).2
      obtain ⟨input, place, matched⟩ := (Option.any_eq_true _ _).mp here
      exact ⟨input, by simpa using place, matched⟩
    | succ offset =>
      have later := compatible overload found offset argument (by simpa using given)
      rwa [Nat.add_right_comm, Nat.add_assoc] at later

/-- Calls with known arguments have one overload at most. -/
theorem resolveCall_unique (valid : descriptor.validate = .ok ()) (substitutions : Substitutions)
    (types : List OperationInputType) (known : ∀ type ∈ types, type.type.known = true) (kept : List OperationOverload)
    (resolved : descriptor.resolveCall (types.map some) substitutions = .ok kept) :
    kept.length ≤ 1 := by
  obtain ⟨sublist, compatible⟩ := resolveFrom_kept substitutions 0 _ _ kept resolved
  refine length_le_one_of_meeting (sublist.trans filter_sublist) (OverloadDescriptor.validate_apart valid)
    fun left inLeft right inRight => ?_
  have leftLength : left.parameters.length = types.length := by
    simpa using (mem_filter.mp (sublist.subset inLeft)).2
  have rightLength : right.parameters.length = types.length := by
    simpa using (mem_filter.mp (sublist.subset inRight)).2
  refine overloadsOverlap_of_inputs (by omega) fun index leftInput rightInput leftAt rightAt => ?_
  have inside : index < types.length := by
    by_contra outside
    have missing : left.parameters[index]? = none := List.getElem?_eq_none (by omega)
    simp [inputAt, missing] at leftAt
  have argument : (types.map some)[index]? = some (some types[index]) := by simp [inside]
  obtain ⟨_, place, first⟩ := compatible left inLeft index _ argument
  obtain ⟨_, otherPlace, second⟩ := compatible right inRight index _ argument
  rw [Nat.zero_add, leftAt, Option.some.injEq] at place
  rw [Nat.zero_add, rightAt, Option.some.injEq] at otherPlace
  subst place otherPlace
  exact inputsOverlap_of_compatible substitutions (known _ (getElem_mem inside)) first second

/-- An overload that takes some values takes each at its place. -/
theorem acceptsTuple_at {overload : OperationOverload} {values : List (Value F C)}
    (accepted : overload.acceptsTuple substitutions values = true) (index : Nat) (input : OperationInputType)
    (place : overload.inputAt index = some input) :
    ∃ type value, input = .value type ∧ values[index]? = some value ∧
      (substituteType substitutions type).accepts value = true := by
  simp only [acceptsTuple, and_eq_true, beq_iff_eq, all_eq_true] at accepted
  obtain ⟨sameLength, taken⟩ := accepted
  obtain ⟨parameter, found, rfl⟩ := Option.map_eq_some_iff.mp place
  obtain ⟨inside, rfl⟩ := List.getElem?_eq_some_iff.mp found
  have here := taken (overload.parameters[index], values[index]) (by
    refine mem_iff_getElem.mpr ⟨index, by simp; omega, by simp⟩)
  cases input : overload.parameters[index].input with
  | value type =>
    simp only [input] at here
    exact ⟨type, values[index], rfl, by simp, here⟩
  | valueStream =>
    simp only [input] at here
    cases here

/-- Values that have a type are taken by one overload at most. -/
theorem acceptsTuple_unique (valid : descriptor.validate = .ok ()) (substitutions : Substitutions)
    (values : List (Value F C)) (typed : ∀ value ∈ values, (runtimeValueType value).isSome = true) :
    (descriptor.overloads.filter (·.acceptsTuple substitutions values)).length ≤ 1 := by
  refine length_le_one_of_meeting filter_sublist (OverloadDescriptor.validate_apart valid)
    fun left inLeft right inRight => ?_
  have leftAccepts := (mem_filter.mp inLeft).2
  have rightAccepts := (mem_filter.mp inRight).2
  have sameLength : left.parameters.length = right.parameters.length := by
    simp only [acceptsTuple, and_eq_true, beq_iff_eq] at leftAccepts rightAccepts
    omega
  refine overloadsOverlap_of_inputs sameLength fun index leftInput rightInput leftAt rightAt => ?_
  obtain ⟨leftType, value, rfl, found, first⟩ := acceptsTuple_at leftAccepts index leftInput leftAt
  obtain ⟨rightType, other, rfl, same, second⟩ := acceptsTuple_at rightAccepts index rightInput rightAt
  obtain rfl : value = other := by simpa [found] using same
  obtain ⟨actual, hasType⟩ := Option.isSome_iff_exists.mp (typed value (mem_of_getElem? found))
  exact typesOverlap_of_compatible substitutions leftType rightType actual (runtimeValueType_known value actual hasType)
    (callTypesCompatible_of_accepts _ value actual hasType first)
    (callTypesCompatible_of_accepts _ value actual hasType second)

/-- In a validated set, at most one overload takes a tuple of values that have a runtime type, and a
call whose argument types are known is never left with two candidates. -/
theorem overloads_unambiguous (descriptor : OverloadDescriptor) (valid : descriptor.validate = .ok ())
    (substitutions : Substitutions) :
    (∀ values : List (Value F C), (∀ value ∈ values, (runtimeValueType value).isSome = true) →
      (descriptor.overloads.filter (·.acceptsTuple substitutions values)).length ≤ 1) ∧
    ∀ types : List OperationInputType, (∀ type ∈ types, type.type.known = true) →
      ∀ candidates, descriptor.resolveCall (types.map some) substitutions = .ok candidates → candidates.length ≤ 1 :=
  ⟨acceptsTuple_unique valid substitutions, resolveCall_unique valid substitutions⟩

/-- Overloads for two number families, as the mathematical operations have. -/
def numberOverloads : OverloadDescriptor :=
  ⟨[], [⟨.value .int, [⟨"value", .value .int, none⟩], .int⟩, ⟨.value .float, [⟨"value", .value .float, none⟩], .float⟩]⟩

theorem overloads_unambiguous_numbers :
    numberOverloads.validate = .ok () ∧
      (numberOverloads.overloads.filter (·.acceptsTuple (fun _ => none) [(.int 3 : Value Unit Unit)])).length ≤ 1 :=
  have valid : numberOverloads.validate = .ok () := rfl
  ⟨valid, (overloads_unambiguous numberOverloads valid (fun _ => none)).1 [.int 3] (by simp [runtimeValueType])⟩

end Opaal.Runtime
