import Mathlib.Logic.Relation
import Opaal.Syntax.Ast
import Opaal.Runtime.JsonEncoder
import Opaal.Runtime.TypeUnification

/-!
# Constraints on types

Whether values of a type may be compared or ordered.  A nominal type is as good as the
types of its fields and payloads; as declarations may refer to themselves, with arguments
that grow on the way, a declaration whose parts are being looked at is not entered again.
-/

namespace Opaal.Runtime

open Opaal.Order List

/-! ## Declarations -/

structure NominalTypeField where
  name : String
  valueType : ValueType

structure NominalVariant where
  name : String
  payload : List ValueType

structure ResolvedTypeParameter where
  name : String
  constraints : List Syntax.TypeConstraint

structure NominalType where
  id : NominalTypeId
  typeParameters : List ResolvedTypeParameter
  fields : List NominalTypeField
  variants : List NominalVariant

/-- The types of the fields and of the payloads. -/
def NominalType.parts (nominal : NominalType) : List ValueType :=
  nominal.fields.map (·.valueType) ++ nominal.variants.flatMap (·.payload)

theorem NominalType.all_parts (nominal : NominalType) {check : ValueType → Bool} :
    (nominal.fields.all (fun field => check field.valueType) &&
      nominal.variants.all fun variant => variant.payload.all check) = true ↔ ∀ part ∈ nominal.parts, check part = true := by
  simp only [parts, Bool.and_eq_true, all_eq_true, mem_append, mem_map, mem_flatMap]
  constructor
  · rintro ⟨fields, variants⟩ part (⟨field, listed, rfl⟩ | ⟨variant, listed, isPayload⟩)
    · exact fields field listed
    · exact variants variant listed part isPayload
  · intro each
    exact ⟨fun field listed => each _ (.inl ⟨field, listed, rfl⟩),
      fun variant listed part isPayload => each part (.inr ⟨variant, listed, isPayload⟩)⟩

def NominalType.parameterNames (nominal : NominalType) : List String := nominal.typeParameters.map (·.name)

/-- The arguments by the names of the parameters. -/
def bindParameters : List String → List ValueType → Substitutions → Substitutions
  | name :: names, argument :: arguments, substitutions =>
    bindParameters names arguments (Bindings.insert substitutions name argument)
  | _, _, substitutions => substitutions

def NominalType.substitutions (nominal : NominalType) (arguments : List ValueType) : Substitutions :=
  bindParameters nominal.parameterNames arguments fun _ => none

def findNominal (declarations : List NominalType) (id : NominalTypeId) : Option NominalType :=
  declarations.find? (·.id == id)

/-- How many parameters a nominal type is declared with. -/
def declaredArity (declarations : List NominalType) (id : NominalTypeId) : Option Nat :=
  (findNominal declarations id).map (·.typeParameters.length)

mutual

/-- Every nominal type inside a type is declared, with as many parameters as it has arguments. -/
def ValueType.arityCorrect (arity : NominalTypeId → Option Nat) : ValueType → Bool
  | .list element => element.arityCorrect arity
  | .nominal id arguments => arity id == some arguments.length && ValueType.aritiesCorrect arity arguments
  | _ => true

def ValueType.aritiesCorrect (arity : NominalTypeId → Option Nat) : List ValueType → Bool
  | [] => true
  | argument :: arguments => argument.arityCorrect arity && ValueType.aritiesCorrect arity arguments

end

mutual

/-- Only some type parameters occur in a type. -/
def ValueType.closedUnder (names : List String) : ValueType → Bool
  | .typeParameter name => names.contains name
  | .list element => element.closedUnder names
  | .nominal _ arguments => ValueType.allClosedUnder names arguments
  | _ => true

def ValueType.allClosedUnder (names : List String) : List ValueType → Bool
  | [] => true
  | argument :: arguments => argument.closedUnder names && ValueType.allClosedUnder names arguments

end

theorem ValueType.aritiesCorrect_iff (arity : NominalTypeId → Option Nat) (arguments : List ValueType) :
    ValueType.aritiesCorrect arity arguments = true ↔ ∀ argument ∈ arguments, argument.arityCorrect arity = true := by
  induction arguments with
  | nil => exact iff_of_true rfl fun _ listed => nomatch listed
  | cons _ _ ih => rw [ValueType.aritiesCorrect, Bool.and_eq_true, forall_mem_cons, ih]

theorem ValueType.allClosedUnder_iff (names : List String) (arguments : List ValueType) :
    ValueType.allClosedUnder names arguments = true ↔ ∀ argument ∈ arguments, argument.closedUnder names = true := by
  induction arguments with
  | nil => exact iff_of_true rfl fun _ listed => nomatch listed
  | cons _ _ ih => rw [ValueType.allClosedUnder, Bool.and_eq_true, forall_mem_cons, ih]

open ValueType (allClosedUnder_iff closedUnder)

theorem substituteTypes_eq_map (substitutions : Substitutions) (arguments : List ValueType) :
    substituteTypes substitutions arguments = arguments.map (substituteType substitutions) := by
  induction arguments with
  | nil => rfl
  | cons _ _ ih => rw [substituteTypes, ih, map_cons]

variable {names : List String} {arguments : List ValueType} {substitutions : Substitutions} {name : String}
  {id : NominalTypeId}

theorem bindParameters_bound {value : ValueType} (bound : bindParameters names arguments substitutions name = some value) :
    substitutions name = some value ∨ name ∈ names ∧ value ∈ arguments := by
  induction names generalizing arguments substitutions with
  | nil => exact .inl bound
  | cons first _ ih =>
    cases arguments with
    | nil => exact .inl bound
    | cons =>
      rcases ih bound with before | ⟨isName, isArgument⟩
      · by_cases same : name = first
        · subst same
          rw [Bindings.insert_self] at before
          cases before
          exact .inr ⟨mem_cons_self, mem_cons_self⟩
        · rw [Bindings.insert_other _ _ same] at before
          exact .inl before
      · exact .inr ⟨mem_cons_of_mem _ isName, mem_cons_of_mem _ isArgument⟩

theorem bindParameters_binds (sizes : names.length = arguments.length)
    (expected : name ∈ names ∨ (substitutions name).isSome = true) :
    (bindParameters names arguments substitutions name).isSome = true := by
  induction names generalizing arguments substitutions with
  | nil => exact expected.resolve_left not_mem_nil
  | cons first _ ih =>
    cases arguments with
    | nil => cases sizes
    | cons =>
      apply ih (Nat.succ.inj sizes)
      by_cases same : name = first
      · subst same
        rw [Bindings.insert_self]
        exact .inr rfl
      · rw [Bindings.insert_other _ _ same]
        exact expected.imp_left fun listed => (mem_cons.mp listed).resolve_left same

theorem NominalType.substitutions_bound {nominal : NominalType} {value : ValueType}
    (bound : nominal.substitutions arguments name = some value) : name ∈ nominal.parameterNames ∧ value ∈ arguments :=
  (bindParameters_bound bound).resolve_left fun none => nomatch none

theorem NominalType.substitutions_binds {nominal : NominalType} (sizes : nominal.typeParameters.length = arguments.length)
    (listed : name ∈ nominal.parameterNames) :
    (nominal.substitutions arguments name).isSome = true :=
  bindParameters_binds (by rw [parameterNames, length_map, sizes]) (.inl listed)

/-- Substitution keeps a type correct when what it puts in is. -/
theorem ValueType.arityCorrect_substitute (arity : NominalTypeId → Option Nat) (substitutions : Substitutions) (type : ValueType)
    (correct : type.arityCorrect arity = true)
    (values : ∀ name value, substitutions name = some value → value.arityCorrect arity = true) :
    (substituteType substitutions type).arityCorrect arity = true := by
  cases type with
  | typeParameter name =>
    rw [substituteType]
    cases bound : substitutions name with
    | none => rfl
    | some value => exact values name value bound
  | list element => exact ValueType.arityCorrect_substitute arity substitutions element correct values
  | nominal =>
    rw [ValueType.arityCorrect, Bool.and_eq_true, ValueType.aritiesCorrect_iff] at correct
    rw [substituteType, substituteTypes_eq_map, ValueType.arityCorrect, Bool.and_eq_true, length_map,
      ValueType.aritiesCorrect_iff, forall_mem_map]
    exact ⟨correct.1, fun argument listed =>
      ValueType.arityCorrect_substitute arity substitutions argument (correct.2 argument listed) values⟩
  | _ => rfl

/-- Substitution closes a type when every parameter is bound to a closed one. -/
theorem ValueType.closedUnder_substitute (names : List String) (substitutions : Substitutions) (type : ValueType)
    (closed : type.closedUnder names = true) (binds : ∀ name ∈ names, (substitutions name).isSome = true)
    (values : ∀ name value, substitutions name = some value → value.closedUnder [] = true) :
    (substituteType substitutions type).closedUnder [] = true := by
  cases type with
  | typeParameter name =>
    obtain ⟨value, bound⟩ := Option.isSome_iff_exists.mp (binds name (contains_iff_mem.mp closed))
    rw [substituteType, bound]
    exact values name value bound
  | list element => exact ValueType.closedUnder_substitute names substitutions element closed binds values
  | nominal =>
    rw [closedUnder, allClosedUnder_iff] at closed
    rw [substituteType, substituteTypes_eq_map, closedUnder, allClosedUnder_iff, forall_mem_map]
    exact fun argument listed =>
      ValueType.closedUnder_substitute names substitutions argument (closed argument listed) binds values
  | _ => rfl

/-- The declarations of a program.  Annotations are resolved with the parameters of their
declaration in scope, and are refused when a number of arguments is wrong. -/
structure NominalTypes where
  declarations : List NominalType
  arities : ∀ nominal ∈ declarations, ∀ part ∈ nominal.parts, part.arityCorrect (declaredArity declarations) = true
  parameters : ∀ nominal ∈ declarations, ∀ part ∈ nominal.parts, part.closedUnder nominal.parameterNames = true

def NominalTypes.nominal (types : NominalTypes) (id : NominalTypeId) : Option NominalType :=
  findNominal types.declarations id

theorem NominalTypes.nominal_listed {types : NominalTypes} {nominal : NominalType}
    (declared : types.nominal id = some nominal) : nominal ∈ types.declarations :=
  mem_of_find?_eq_some declared

theorem NominalTypes.nominal_id {types : NominalTypes} {nominal : NominalType} (declared : types.nominal id = some nominal) : (nominal.id == id) = true := by
  rw [NominalTypes.nominal, findNominal, List.find?_eq_some_iff_append] at declared
  exact declared.1

instance : EquivBEq NominalTypeId where
  rfl := (nominalTypeId_beq _ _).mpr ⟨rfl, rfl, rfl⟩
  symm := fun same => nominalTypeId_euclidean ((nominalTypeId_beq _ _).mpr ⟨rfl, rfl, rfl⟩) same
  trans := fun first second =>
    nominalTypeId_euclidean first (nominalTypeId_euclidean ((nominalTypeId_beq _ _).mpr ⟨rfl, rfl, rfl⟩) second)

/-- One identity, written in two ways, has one declaration. -/
theorem NominalTypes.nominal_congr (types : NominalTypes) {left right : NominalTypeId} (same : (left == right) = true) :
    types.nominal left = types.nominal right := by
  rw [nominal, nominal, findNominal, findNominal]
  congr 1
  funext nominal
  exact BEq.congr_right same

/-! ## The check -/

/-- The declarations that are not being looked at. -/
def NominalTypes.unvisited (types : NominalTypes) (visiting : List NominalTypeId) : Nat :=
  (types.declarations.filter fun nominal => !visiting.contains nominal.id).length

/-- To enter a declaration leaves fewer to enter. -/
theorem NominalTypes.unvisited_lt (types : NominalTypes) {visiting : List NominalTypeId} {nominal : NominalType}
    (declared : types.nominal id = some nominal) (fresh : ¬ visiting.contains id = true) :
    types.unvisited (id :: visiting) < types.unvisited visiting := by
  have same := types.nominal_id declared
  have remaining : nominal ∈ types.declarations.filter fun nominal => !visiting.contains nominal.id := by
    rw [mem_filter, contains_congr same, Bool.not_eq_true']
    exact ⟨NominalTypes.nominal_listed declared, Bool.eq_false_iff.mpr fresh⟩
  have fewer : (types.declarations.filter fun nominal => !(id :: visiting).contains nominal.id) =
      (types.declarations.filter fun nominal => !visiting.contains nominal.id).filter fun nominal => !(nominal.id == id) := by
    rw [filter_filter]
    congr 1
    funext nominal
    rw [contains_cons, Bool.not_or]
  rw [unvisited, fewer]
  exact length_filter_lt_length_iff_exists.mpr ⟨nominal, remaining, by rw [same]; decide⟩

section Check

variable (types : NominalTypes) (parameters : String → Syntax.TypeConstraint → Bool)

def typeSatisfiesConstraintInner (constraint : Syntax.TypeConstraint) (valueType : ValueType) (visiting : List NominalTypeId) : Bool :=
  match constraint with
  | .equal =>
    match valueType with
    | .any | .function | .closure => false
    | .typeParameter name => parameters name constraint
    | .list element => typeSatisfiesConstraintInner constraint element visiting
    | .nominal id arguments =>
      if isOpaqueOperationalNominal id then false
      else if !arguments.attach.all fun ⟨argument, _⟩ => typeSatisfiesConstraintInner constraint argument visiting then false
      else if _visited : visiting.contains id then true
      else
        match _declared : types.nominal id with
        | none => false
        | some nominal =>
          if nominal.typeParameters.length == arguments.length then
            let substitutions := nominal.substitutions arguments
            nominal.fields.all (fun field =>
              typeSatisfiesConstraintInner constraint (substituteType substitutions field.valueType) (id :: visiting)) &&
            nominal.variants.all fun variant => variant.payload.all fun payload =>
              typeSatisfiesConstraintInner constraint (substituteType substitutions payload) (id :: visiting)
          else false
    | _ => true
  | .ordered =>
    match valueType with
    | .int | .float | .string | .bytes | .path | .duration | .byteSize => true
    | .list element => typeSatisfiesConstraintInner constraint element visiting
    | .typeParameter name => parameters name constraint
    | _ => false
termination_by (types.unvisited visiting, valueType)
decreasing_by
  · exact .right _ (by decreasing_tactic)
  · exact .right _ (by decreasing_tactic)
  · exact .left _ _ (types.unvisited_lt _declared _visited)
  · exact .left _ _ (types.unvisited_lt _declared _visited)
  · exact .right _ (by decreasing_tactic)

variable {types parameters}

/-- A nominal type is entered once its arguments satisfy the constraint. -/
theorem satisfies_nominal (id : NominalTypeId) (arguments : List ValueType) (visiting : List NominalTypeId) :
    typeSatisfiesConstraintInner types parameters .equal (.nominal id arguments) visiting = true ↔
      isOpaqueOperationalNominal id = false ∧
      (∀ argument ∈ arguments, typeSatisfiesConstraintInner types parameters .equal argument visiting = true) ∧
      (visiting.contains id = true ∨ ∃ nominal, types.nominal id = some nominal ∧
        nominal.typeParameters.length = arguments.length ∧
        ∀ part ∈ nominal.parts, typeSatisfiesConstraintInner types parameters .equal
          (substituteType (nominal.substitutions arguments) part) (id :: visiting) = true) := by
  have attached : (arguments.attach.all fun ⟨argument, _⟩ => typeSatisfiesConstraintInner types parameters .equal argument visiting) =
      arguments.all fun argument => typeSatisfiesConstraintInner types parameters .equal argument visiting := by
    rw [all_subtype fun _ _ => rfl, unattach_attach]
  rw [typeSatisfiesConstraintInner, attached, ← all_eq_true]
  cases isOpaqueOperationalNominal id with
  | true => exact iff_of_false Bool.false_ne_true fun both => Bool.noConfusion both.1
  | false =>
    cases arguments.all fun argument => typeSatisfiesConstraintInner types parameters .equal argument visiting with
    | false => exact iff_of_false Bool.false_ne_true fun both => Bool.noConfusion both.2.1
    | true =>
      simp only [Bool.false_eq_true, if_false, Bool.not_true, true_and]
      by_cases visited : visiting.contains id = true
      · rw [dif_pos visited]
        exact iff_of_true rfl (.inl visited)
      · rw [dif_neg visited, or_iff_right visited]
        split
        · next undeclared =>
          refine iff_of_false Bool.false_ne_true ?_
          rintro ⟨nominal, declared, _⟩
          rw [undeclared] at declared
          cases declared
        · next nominal declared =>
          constructor
          · intro passed
            split at passed
            · next sizes =>
              exact ⟨nominal, declared, beq_iff_eq.mp sizes, nominal.all_parts.mp passed⟩
            · cases passed
          · rintro ⟨_, isOther, sizes, passed⟩
            rw [declared] at isOther
            cases isOther
            rw [if_pos (beq_iff_eq.mpr sizes)]
            exact nominal.all_parts.mpr passed

end Check

/-! ## What the check finds out -/

section Exactness

variable (types : NominalTypes) (parameters : String → Syntax.TypeConstraint → Bool)

/-- What a type is made of: its elements, its arguments, and the parts of its declaration. -/
inductive Contains : ValueType → ValueType → Prop where
  | element (element : ValueType) : Contains (.list element) element
  | argument {id : NominalTypeId} {arguments : List ValueType} {argument : ValueType} (listed : argument ∈ arguments) :
      Contains (.nominal id arguments) argument
  | part {id : NominalTypeId} {arguments : List ValueType} {nominal : NominalType} {part : ValueType}
      (declared : types.nominal id = some nominal) (sizes : nominal.typeParameters.length = arguments.length)
      (listed : part ∈ nominal.parts) :
      Contains (.nominal id arguments) (substituteType (nominal.substitutions arguments) part)

/-- What can be reached from a type. -/
def Reaches : ValueType → ValueType → Prop := Relation.ReflTransGen (Contains types)

/-- The types that a constraint excludes by themselves. -/
def excludes : Syntax.TypeConstraint → ValueType → Bool
  | .equal, .any => true
  | .equal, .function => true
  | .equal, .closure => true
  | .equal, .nominal id arguments =>
    isOpaqueOperationalNominal id || declaredArity types.declarations id != some arguments.length
  | constraint, .typeParameter name => !parameters name constraint
  | .equal, _ => false
  | .ordered, .int => false
  | .ordered, .float => false
  | .ordered, .string => false
  | .ordered, .bytes => false
  | .ordered, .path => false
  | .ordered, .duration => false
  | .ordered, .byteSize => false
  | .ordered, .list _ => false
  | .ordered, _ => true

variable {types parameters}

theorem excludes_nominal (id : NominalTypeId) (arguments : List ValueType) :
    excludes types parameters .equal (.nominal id arguments) = false ↔
      isOpaqueOperationalNominal id = false ∧
        ∃ nominal, types.nominal id = some nominal ∧ nominal.typeParameters.length = arguments.length := by
  rw [excludes, Bool.or_eq_false_iff, bne_eq_false_iff_eq, declaredArity, Option.map_eq_some_iff]
  rfl

/-- What nothing excluded is reached from satisfies the constraint, whatever is skipped. -/
theorem satisfies_of_reaches (constraint : Syntax.TypeConstraint) (type : ValueType) (visiting : List NominalTypeId)
    (clean : ∀ part, Reaches types type part → excludes types parameters constraint part = false) :
    typeSatisfiesConstraintInner types parameters constraint type visiting = true := by
  have self := clean type .refl
  have inside : ∀ part, Contains types type part → ∀ other, Reaches types part other →
      excludes types parameters constraint other = false := fun part contained other reached => clean other (.head contained reached)
  cases constraint with
  | equal =>
    cases type with
    | list element =>
      rw [typeSatisfiesConstraintInner]
      exact satisfies_of_reaches .equal element visiting (inside element (.element element))
    | nominal id arguments =>
      obtain ⟨transparent, nominal, declared, sizes⟩ := (excludes_nominal id arguments).mp self
      refine (satisfies_nominal id arguments visiting).mpr ⟨transparent, fun argument listed => ?_, ?_⟩
      · exact satisfies_of_reaches .equal argument visiting (inside argument (.argument listed))
      · by_cases visited : visiting.contains id = true
        · exact .inl visited
        · exact .inr ⟨nominal, declared, sizes, fun part listed =>
            satisfies_of_reaches .equal _ (id :: visiting) (inside _ (.part declared sizes listed))⟩
    | typeParameter =>
      rw [excludes, Bool.not_eq_eq_eq_not, Bool.not_false] at self
      rw [typeSatisfiesConstraintInner]
      exact self
    | any | function | closure => cases self
    | _ => rw [typeSatisfiesConstraintInner] <;> intros <;> contradiction
  | ordered =>
    cases type with
    | list element =>
      rw [typeSatisfiesConstraintInner]
      exact satisfies_of_reaches .ordered element visiting (inside element (.element element))
    | typeParameter =>
      rw [excludes, Bool.not_eq_eq_eq_not, Bool.not_false] at self
      rw [typeSatisfiesConstraintInner]
      exact self
    | int | float | string | bytes | path | duration | byteSize => rw [typeSatisfiesConstraintInner]
    | _ => cases self
termination_by (types.unvisited visiting, type)
decreasing_by
  · exact .right _ (by decreasing_tactic)
  · exact .right _ (by decreasing_tactic)
  · exact .left _ _ (types.unvisited_lt declared visited)
  · exact .right _ (by decreasing_tactic)

variable (types parameters) in
/-- A type made of parameters, of declarations that hold, and of types that can be compared. -/
inductive Supported (held : NominalType → Prop) (names : List String) : ValueType → Prop where
  | bound {name : String} (listed : name ∈ names) : Supported held names (.typeParameter name)
  | allowed {name : String} (satisfies : parameters name .equal = true) : Supported held names (.typeParameter name)
  | list {element : ValueType} (supported : Supported held names element) : Supported held names (.list element)
  | nominal {id : NominalTypeId} {arguments : List ValueType} {nominal : NominalType}
      (transparent : isOpaqueOperationalNominal id = false) (declared : types.nominal id = some nominal)
      (sizes : nominal.typeParameters.length = arguments.length) (holds : held nominal)
      (supported : ∀ argument ∈ arguments, Supported held names argument) : Supported held names (.nominal id arguments)
  | basic {type : ValueType} (basic : type.basic = true) (noFunction : type ≠ .function) (noClosure : type ≠ .closure) :
      Supported held names type

variable {held : NominalType → Prop} {names : List String} {type : ValueType} {substitutions : Substitutions}
  {id : NominalTypeId} {visiting : List NominalTypeId}

theorem Supported.mono {more : NominalType → Prop} (supported : Supported types parameters held names type)
    (weaker : ∀ nominal, held nominal → more nominal) :
    Supported types parameters more names type := by
  induction supported with
  | bound listed => exact .bound listed
  | allowed satisfies => exact .allowed satisfies
  | list _ ih => exact .list ih
  | nominal transparent declared sizes holds _ ih => exact .nominal transparent declared sizes (weaker _ holds) ih
  | basic basic noFunction noClosure => exact .basic basic noFunction noClosure

theorem Supported.arityCorrect (supported : Supported types parameters held names type) : type.arityCorrect (declaredArity types.declarations) = true := by
  induction supported with
  | bound | allowed => rfl
  | list _ ih => exact ih
  | nominal _ declared sizes _ _ ih =>
    rw [ValueType.arityCorrect, Bool.and_eq_true, ValueType.aritiesCorrect_iff, beq_iff_eq, declaredArity, Option.map_eq_some_iff]
    exact ⟨⟨_, declared, sizes⟩, ih⟩
  | @basic type basic => cases type <;> first | rfl | cases basic

/-- What supports an instance supports what it is an instance of. -/
theorem Supported.of_substitute (values : ∀ name value, substitutions name = some value → name ∈ names) (type : ValueType)
    (supported : Supported types parameters held [] (substituteType substitutions type)) :
    Supported types parameters held names type := by
  cases type with
  | typeParameter name =>
    rw [substituteType] at supported
    cases bound : substitutions name with
    | some value => exact .bound (values name value bound)
    | none =>
      rw [bound] at supported
      cases supported with
      | bound listed => cases listed
      | allowed satisfies => exact .allowed satisfies
      | basic basic => cases basic
  | list element =>
    cases supported with
    | list supported => exact .list (.of_substitute values element supported)
    | basic basic => cases basic
  | nominal =>
    rw [substituteType, substituteTypes_eq_map] at supported
    cases supported with
    | nominal transparent declared sizes holds each =>
      rw [length_map] at sizes
      rw [forall_mem_map] at each
      exact .nominal transparent declared sizes holds fun argument listed =>
        .of_substitute values argument (each argument listed)
    | basic basic => cases basic
  | any =>
    cases supported with
    | basic basic => cases basic
  | _ =>
    cases supported with
    | basic basic noFunction noClosure => exact .basic basic noFunction noClosure

/-- Instances with supported arguments are supported. -/
theorem Supported.substitute (supported : Supported types parameters held names type)
    (binds : ∀ name ∈ names, (substitutions name).isSome = true)
    (values : ∀ name value, substitutions name = some value → Supported types parameters held [] value) :
    Supported types parameters held [] (substituteType substitutions type) := by
  induction supported with
  | @bound name listed =>
    obtain ⟨value, bound⟩ := Option.isSome_iff_exists.mp (binds name listed)
    rw [substituteType, bound]
    exact values name value bound
  | @allowed name satisfies =>
    rw [substituteType]
    cases bound : substitutions name with
    | none => exact .allowed satisfies
    | some value => exact values name value bound
  | list _ ih => exact .list ih
  | nominal transparent declared sizes holds _ ih =>
    rw [substituteType, substituteTypes_eq_map]
    exact .nominal transparent declared (by rw [length_map, sizes]) holds (forall_mem_map.mpr ih)
  | @basic _ basic noFunction noClosure =>
    rw [substituteType_basic substitutions basic]
    exact .basic basic noFunction noClosure

variable (types parameters) in
/-- Declarations that hold each other up, those that are being looked at left open. -/
def Supporting (visiting : List NominalTypeId) (held : NominalType → Prop) : Prop :=
  ∀ nominal, held nominal → types.nominal nominal.id = some nominal ∧
    (visiting.contains nominal.id = true ∨
      ∀ part ∈ nominal.parts, Supported types parameters held nominal.parameterNames part)

variable (types parameters) in
/-- The declarations that some set holds up. -/
def heldUp (visiting : List NominalTypeId) (nominal : NominalType) : Prop :=
  ∃ held, Supporting types parameters visiting held ∧ held nominal

theorem heldUp_supporting (visiting : List NominalTypeId) : Supporting types parameters visiting (heldUp types parameters visiting) := by
  rintro nominal ⟨held, supporting, holds⟩
  obtain ⟨declared, parts⟩ := supporting nominal holds
  refine ⟨declared, parts.imp_right fun each part listed => ?_⟩
  exact (each part listed).mono fun other holds => ⟨held, supporting, holds⟩

theorem declared_self {nominal : NominalType} (declared : types.nominal id = some nominal) :
    types.nominal nominal.id = some nominal := by
  rw [types.nominal_congr (types.nominal_id declared)]
  exact declared

theorem heldUp_visited {nominal : NominalType} (declared : types.nominal id = some nominal)
    (visited : visiting.contains id = true) :
    heldUp types parameters visiting nominal := by
  refine ⟨fun other => types.nominal other.id = some other ∧ visiting.contains other.id = true,
    fun other holds => ⟨holds.1, .inl holds.2⟩, declared_self declared, ?_⟩
  rw [contains_congr (types.nominal_id declared)]
  exact visited

/-- A declaration whose parts hold up while it is being looked at holds itself up. -/
theorem heldUp_entered {nominal : NominalType} (declared : types.nominal id = some nominal)
    (parts : ∀ part ∈ nominal.parts, Supported types parameters (heldUp types parameters (id :: visiting)) nominal.parameterNames part) :
    heldUp types parameters visiting nominal := by
  refine ⟨heldUp types parameters (id :: visiting), fun other holds => ?_, heldUp_visited declared (by simp)⟩
  obtain ⟨isDeclared, open_⟩ := heldUp_supporting (id :: visiting) other holds
  refine ⟨isDeclared, ?_⟩
  rcases open_ with visited | each
  · rw [contains_cons, Bool.or_eq_true] at visited
    rcases visited with same | visited
    · rw [types.nominal_congr same, declared] at isDeclared
      cases isDeclared
      exact .inr parts
    · exact .inl visited
  · exact .inr each

/-- A type that passes is made of declarations that hold each other up. -/
theorem supported_of_satisfies (type : ValueType) (visiting : List NominalTypeId)
    (known : visiting = [] ∨ type.arityCorrect (declaredArity types.declarations) = true)
    (satisfied : typeSatisfiesConstraintInner types parameters .equal type visiting = true) :
    Supported types parameters (heldUp types parameters visiting) [] type := by
  cases type with
  | any | function | closure =>
    rw [typeSatisfiesConstraintInner] at satisfied
    cases satisfied
  | typeParameter =>
    rw [typeSatisfiesConstraintInner] at satisfied
    exact .allowed satisfied
  | list element =>
    rw [typeSatisfiesConstraintInner] at satisfied
    exact .list (supported_of_satisfies element visiting known satisfied)
  | nominal id arguments =>
    obtain ⟨transparent, each, entered⟩ := (satisfies_nominal id arguments visiting).mp satisfied
    have supported : ∀ argument ∈ arguments, Supported types parameters (heldUp types parameters visiting) [] argument := by
      intro argument listed
      refine supported_of_satisfies argument visiting (known.imp_right fun correct => ?_) (each argument listed)
      rw [ValueType.arityCorrect, Bool.and_eq_true, ValueType.aritiesCorrect_iff] at correct
      exact correct.2 argument listed
    rcases entered with visited | ⟨nominal, declared, sizes, passed⟩
    · rcases known with rfl | correct
      · cases visited
      · rw [ValueType.arityCorrect, Bool.and_eq_true, beq_iff_eq, declaredArity, Option.map_eq_some_iff] at correct
        obtain ⟨⟨nominal, declared, sizes⟩, _⟩ := correct
        exact .nominal transparent declared sizes (heldUp_visited declared visited) supported
    · by_cases visited : visiting.contains id = true
      · exact .nominal transparent declared sizes (heldUp_visited declared visited) supported
      · refine .nominal transparent declared sizes (heldUp_entered declared fun part listed => ?_) supported
        have correct : (substituteType (nominal.substitutions arguments) part).arityCorrect (declaredArity types.declarations) = true :=
          ValueType.arityCorrect_substitute _ _ part (types.arities nominal (NominalTypes.nominal_listed declared) part listed)
            fun name value bound => (supported value (NominalType.substitutions_bound bound).2).arityCorrect
        exact .of_substitute (fun name value bound => (NominalType.substitutions_bound bound).1) part
          (supported_of_satisfies _ (id :: visiting) (.inr correct) (passed part listed))
  | _ => exact .basic rfl nofun nofun
termination_by (types.unvisited visiting, type)
decreasing_by
  · exact .right _ (by decreasing_tactic)
  · exact .right _ (by decreasing_tactic)
  · exact .left _ _ (types.unvisited_lt declared visited)

/-- What is contained in a supported type is supported. -/
theorem Supported.contained {part : ValueType} (supported : Supported types parameters (heldUp types parameters []) [] type)
    (contained : Contains types type part) : Supported types parameters (heldUp types parameters []) [] part := by
  cases contained with
  | element =>
    cases supported with
    | list supported => exact supported
    | basic basic => cases basic
  | argument listed =>
    cases supported with
    | nominal _ _ _ _ each => exact each part listed
    | basic basic => cases basic
  | @part _ _ nominal part declared sizes listed =>
    cases supported with
    | @nominal _ _ _ _ isOther sizes holds each =>
      rw [declared] at isOther
      cases isOther
      obtain ⟨_, visited | parts⟩ := heldUp_supporting [] nominal holds
      · cases visited
      · exact (parts part listed).substitute (fun name => NominalType.substitutions_binds sizes)
          fun name value bound => each value (NominalType.substitutions_bound bound).2
    | basic basic => cases basic

theorem Supported.not_excluded (supported : Supported types parameters held [] type) :
    excludes types parameters .equal type = false := by
  cases supported with
  | bound listed => cases listed
  | allowed satisfies => rw [excludes, satisfies, Bool.not_true]
  | list => rfl
  | nominal transparent declared sizes => exact (excludes_nominal _ _).mpr ⟨transparent, _, declared, sizes⟩
  | basic basic noFunction noClosure =>
    cases type with
    | function => exact absurd rfl noFunction
    | closure => exact absurd rfl noClosure
    | _ => first | rfl | cases basic

/-- What can be ordered is a list of what can be ordered, or excluded by nothing. -/
theorem ordered_reaches (type part : ValueType) (visiting : List NominalTypeId)
    (satisfied : typeSatisfiesConstraintInner types parameters .ordered type visiting = true) (reached : Reaches types type part) :
    excludes types parameters .ordered part = false := by
  have clean : typeSatisfiesConstraintInner types parameters .ordered part visiting = true := by
    induction reached with
    | refl => exact satisfied
    | tail _ contained ih =>
      cases contained with
      | element =>
        rw [typeSatisfiesConstraintInner] at ih
        exact ih
      | argument | part =>
        rw [typeSatisfiesConstraintInner] at ih <;> first | cases ih | (intros; contradiction)
  cases part with
  | typeParameter =>
    rw [typeSatisfiesConstraintInner] at clean
    rw [excludes, clean, Bool.not_true]
  | list | int | float | string | bytes | path | duration | byteSize => rfl
  | _ => rw [typeSatisfiesConstraintInner] at clean <;> first | cases clean | (intros; contradiction)

/-- The check passes exactly the types from which nothing excluded is reached. -/
theorem satisfies_iff_reaches (constraint : Syntax.TypeConstraint) (type : ValueType) :
    typeSatisfiesConstraintInner types parameters constraint type [] = true ↔
      ∀ part, Reaches types type part → excludes types parameters constraint part = false := by
  refine ⟨fun satisfied part reached => ?_, satisfies_of_reaches constraint type []⟩
  cases constraint with
  | equal =>
    have supported : Supported types parameters (heldUp types parameters []) [] part := by
      induction reached with
      | refl => exact supported_of_satisfies type [] (.inl rfl) satisfied
      | tail _ contained ih => exact ih.contained contained
    exact supported.not_excluded
  | ordered => exact ordered_reaches type part [] satisfied reached

end Exactness

/-! ## The two implementations -/

/-- At run time, where no type parameter satisfies a constraint. -/
def RuntimeBindingTypes.typeSatisfiesConstraint (types : NominalTypes) (valueType : ValueType)
    (constraint : Syntax.TypeConstraint) : Bool :=
  typeSatisfiesConstraintInner types (fun _ _ => false) constraint valueType []

open RuntimeBindingTypes

/-- The constraints of the parameters in scope, the innermost scope last. -/
abbrev TypeParameterScopes := List (String → Option (List Syntax.TypeConstraint))

def typeParameterSatisfiesConstraint (scopes : TypeParameterScopes) (name : String) (constraint : Syntax.TypeConstraint) : Bool :=
  (scopes.reverse.findSome? (· name)).any fun constraints =>
    constraints.contains constraint || (constraint == .equal && constraints.contains .ordered)

/-- In the checker, with the parameters in scope. -/
def SignatureValidator.typeSatisfiesConstraint (types : NominalTypes) (scopes : TypeParameterScopes) (valueType : ValueType)
    (constraint : Syntax.TypeConstraint) : Bool :=
  typeSatisfiesConstraintInner types (typeParameterSatisfiesConstraint scopes) constraint valueType []

/-- From a type without parameters only such types are reached. -/
theorem Reaches.closed {types : NominalTypes} {type part : ValueType} (closed : type.closedUnder [] = true)
    (reached : Reaches types type part) : part.closedUnder [] = true := by
  induction reached with
  | refl => exact closed
  | tail _ contained ih =>
    cases contained with
    | element => exact ih
    | argument listed =>
      rw [closedUnder, allClosedUnder_iff] at ih
      exact ih _ listed
    | @part _ _ nominal part declared sizes listed =>
      rw [closedUnder, allClosedUnder_iff] at ih
      exact ValueType.closedUnder_substitute nominal.parameterNames _ part
        (types.parameters nominal (NominalTypes.nominal_listed declared) part listed)
        (fun name => NominalType.substitutions_binds sizes)
        fun name value bound => ih value (NominalType.substitutions_bound bound).2

theorem excludes_closed {types : NominalTypes} {parameters others : String → Syntax.TypeConstraint → Bool}
    (constraint : Syntax.TypeConstraint) {type : ValueType} (closed : type.closedUnder [] = true) :
    excludes types parameters constraint type = excludes types others constraint type := by
  cases type with
  | typeParameter => cases closed
  | _ => cases constraint <;> rfl

/-- Both implementations end with the answer that reachability gives, and they agree on
every type without parameters. -/
theorem typeSatisfiesConstraint_exact (types : NominalTypes) :
    (∀ type constraint, typeSatisfiesConstraint types type constraint = true ↔
      ∀ part, Reaches types type part → excludes types (fun _ _ => false) constraint part = false) ∧
    (∀ scopes type constraint, SignatureValidator.typeSatisfiesConstraint types scopes type constraint = true ↔
      ∀ part, Reaches types type part → excludes types (typeParameterSatisfiesConstraint scopes) constraint part = false) ∧
    ∀ scopes (type : ValueType) constraint, type.closedUnder [] = true →
      SignatureValidator.typeSatisfiesConstraint types scopes type constraint =
        typeSatisfiesConstraint types type constraint := by
  refine ⟨fun type constraint => satisfies_iff_reaches constraint type,
    fun scopes type constraint => satisfies_iff_reaches constraint type, fun scopes type constraint closed => ?_⟩
  rw [Bool.eq_iff_iff, SignatureValidator.typeSatisfiesConstraint, typeSatisfiesConstraint,
    satisfies_iff_reaches, satisfies_iff_reaches]
  constructor
  all_goals
    intro clean part reached
    rw [excludes_closed constraint (reached.closed closed)]
    exact clean part reached

/-- A declaration whose argument grows at every recursion. -/
def nestedId : NominalTypeId := ⟨⟨⟨[]⟩, .localModule⟩, "Nested"⟩

def nestedTypes : NominalTypes where
  declarations := [⟨nestedId, [⟨"T", []⟩],
    [⟨"value", .typeParameter "T"⟩, ⟨"next", .nominal nestedId [.list (.typeParameter "T")]⟩], []⟩]
  arities := by decide
  parameters := by decide

theorem nested_constraint (constraint : Syntax.TypeConstraint) :
    SignatureValidator.typeSatisfiesConstraint nestedTypes [] (.nominal nestedId [.int]) constraint =
      typeSatisfiesConstraint nestedTypes (.nominal nestedId [.int]) constraint :=
  (typeSatisfiesConstraint_exact nestedTypes).2.2 [] (.nominal nestedId [.int]) constraint rfl

end Opaal.Runtime
