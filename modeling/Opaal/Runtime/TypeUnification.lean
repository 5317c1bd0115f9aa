import Opaal.Order.Bindings
import Opaal.Runtime.Overload

/-!
# Unification of types

A declared type with parameters is held against the type of an argument.  A parameter
that is free is bound to what stands in its place, one that is bound is compared with
it, and `Any` on either side agrees with everything and binds nothing.
-/

namespace Opaal.Runtime

open Opaal.Order List
open Bindings
open Bool (and_eq_true)
open ValueType

variable {F C : Type}

/-! ## Unifying -/

mutual

def unifyType (expected actual : ValueType) (substitutions : Substitutions) : Bool × Substitutions :=
  match expected, actual with
  | .typeParameter _, .any => (true, substitutions)
  | .typeParameter name, actual =>
    match substitutions name with
    | some previous => (previous == actual, substitutions)
    | none => (true, Bindings.insert substitutions name actual)
  | .list expected, .list actual => unifyType expected actual substitutions
  | .nominal expectedId expectedArguments, .nominal actualId actualArguments =>
    if expectedId == actualId && expectedArguments.length == actualArguments.length then
      unifyTypes expectedArguments actualArguments substitutions
    else (ValueType.nominal expectedId expectedArguments == .nominal actualId actualArguments, substitutions)
  | .any, _ => (true, substitutions)
  | _, .any => (true, substitutions)
  | expected, actual => (expected == actual, substitutions)

/-- `zip` and `all`: the first pair that does not unify ends the walk. -/
def unifyTypes : List ValueType → List ValueType → Substitutions → Bool × Substitutions
  | expected :: expecteds, actual :: actuals, substitutions =>
    match unifyType expected actual substitutions with
    | (true, substitutions) => unifyTypes expecteds actuals substitutions
    | (false, substitutions) => (false, substitutions)
  | _, _, substitutions => (true, substitutions)

end

/-- The arguments of a call against its parameters: a pair that does not unify does
not end the walk. -/
def unifyArguments : List (ValueType × ValueType) → Substitutions → Bool × Substitutions
  | [], substitutions => (true, substitutions)
  | (expected, actual) :: rest, substitutions =>
    let (here, substitutions) := unifyType expected actual substitutions
    let (there, substitutions) := unifyArguments rest substitutions
    (here && there, substitutions)

/-! ## Up to `Any` -/

mutual

/-- Acceptance of types where `Any` agrees with everything, on either side and inside. -/
def ValueType.acceptsUpToAny : ValueType → ValueType → Bool
  | .any, _ => true
  | _, .any => true
  | .list expected, .list actual => expected.acceptsUpToAny actual
  | .nominal expectedId expectedArguments, .nominal actualId actualArguments =>
    expectedId == actualId && ValueType.acceptUpToAny expectedArguments actualArguments
  | expected, actual => expected == actual

def ValueType.acceptUpToAny : List ValueType → List ValueType → Bool
  | [], [] => true
  | expected :: expecteds, actual :: actuals =>
    expected.acceptsUpToAny actual && ValueType.acceptUpToAny expecteds actuals
  | _, _ => false

end

mutual

/-- `Any` does not occur in a type. -/
def ValueType.anyFree : ValueType → Bool
  | .any => false
  | .list element => element.anyFree
  | .nominal _ arguments => ValueType.allAnyFree arguments
  | _ => true

def ValueType.allAnyFree : List ValueType → Bool
  | [] => true
  | argument :: arguments => argument.anyFree && ValueType.allAnyFree arguments

end

/-! ## Types are compared by an equivalence -/

mutual

theorem ValueType.same_refl (type : ValueType) : ValueType.same type type = true := by
  cases type with
  | list element => exact ValueType.same_refl element
  | typeParameter name => exact beq_self_eq_true name
  | nominal id arguments =>
    rw [ValueType.same, and_eq_true]
    exact ⟨(nominalTypeId_beq id id).mpr ⟨rfl, rfl, rfl⟩, ValueType.sameAll_refl arguments⟩
  | _ => rfl

theorem ValueType.sameAll_refl (types : List ValueType) : sameAll types types = true := by
  cases types with
  | nil => rfl
  | cons first rest =>
    rw [sameAll, and_eq_true]
    exact ⟨ValueType.same_refl first, ValueType.sameAll_refl rest⟩

end

theorem ValueType.sameAll_length (lefts rights : List ValueType) (same : sameAll lefts rights = true) :
    lefts.length = rights.length := by
  induction lefts generalizing rights with
  | nil =>
    cases rights with
    | nil => rfl
    | cons => cases same
  | cons _ _ ih =>
    cases rights with
    | nil => cases same
    | cons _ rights =>
      rw [sameAll, and_eq_true] at same
      exact congrArg Nat.succ (ih rights same.2)

mutual

/-- Two types that equal a third one equal each other. -/
theorem ValueType.same_euclidean (left right common : ValueType) (first : ValueType.same left common = true)
    (second : ValueType.same right common = true) : ValueType.same left right = true := by
  cases common with
  | any =>
    cases left with
    | any => cases right <;> first | rfl | cases second
    | _ => cases first
  | typeParameter =>
    cases left with
    | typeParameter =>
      cases right with
      | typeParameter =>
        simp only [ValueType.same, beq_iff_eq] at first second ⊢
        rw [first, second]
      | _ => cases second
    | _ => cases first
  | list element =>
    cases left with
    | list left =>
      cases right with
      | list right => exact ValueType.same_euclidean left right element first second
      | _ => cases second
    | _ => cases first
  | nominal _ arguments =>
    cases left with
    | nominal _ leftArguments =>
      cases right with
      | nominal _ rightArguments =>
        simp only [ValueType.same, and_eq_true] at first second ⊢
        exact ⟨nominalTypeId_euclidean first.1 second.1,
          ValueType.sameAll_euclidean leftArguments rightArguments arguments first.2 second.2⟩
      | _ => cases second
    | _ => cases first
  | _ =>
    obtain rfl := basic_same (.inr rfl) first
    obtain rfl := basic_same (.inr rfl) second
    rfl

theorem ValueType.sameAll_euclidean (lefts rights commons : List ValueType)
    (first : sameAll lefts commons = true) (second : sameAll rights commons = true) :
    sameAll lefts rights = true := by
  cases commons with
  | nil =>
    cases lefts with
    | nil => cases rights <;> first | rfl | cases second
    | cons => cases first
  | cons common commons =>
    cases lefts with
    | nil => cases first
    | cons left lefts =>
      cases rights with
      | nil => cases second
      | cons right rights =>
        simp only [sameAll, and_eq_true] at first second ⊢
        exact ⟨ValueType.same_euclidean left right common first.1 second.1,
          ValueType.sameAll_euclidean lefts rights commons first.2 second.2⟩

end

/-- A nominal value is of each type that equals one of its types. -/
theorem nominal_matches_of_same {id id' runtimeId : NominalTypeId} {arguments arguments' runtimeArguments : List ValueType}
    (same : (id == id' && sameAll arguments arguments') = true)
    (matching : (id' == runtimeId && arguments' == runtimeArguments) = true) :
    (id == runtimeId && arguments == runtimeArguments) = true := by
  rw [and_eq_true, types_beq] at *
  have runtimeId_refl := (nominalTypeId_beq runtimeId runtimeId).mpr ⟨rfl, rfl, rfl⟩
  exact ⟨nominalTypeId_euclidean same.1 (nominalTypeId_euclidean runtimeId_refl matching.1),
    ValueType.sameAll_euclidean arguments runtimeArguments arguments' same.2
      (ValueType.sameAll_euclidean runtimeArguments arguments' runtimeArguments
        (ValueType.sameAll_refl runtimeArguments) matching.2)⟩

instance : EquivBEq ValueType where
  rfl := ValueType.same_refl _
  symm := fun {left right} same => ValueType.same_euclidean right left right (ValueType.same_refl right) same
  trans := fun {left middle right} first second =>
    ValueType.same_euclidean left right middle first
      (ValueType.same_euclidean right middle right (ValueType.same_refl right) second)

/-! ## What a pair requires -/

mutual

/-- The bindings a pair requires, in the order in which they are asked for; none where the
types differ outside parameters. -/
def ValueType.requires (expected actual : ValueType) : Option (List (String × ValueType)) :=
  match expected, actual with
  | .typeParameter _, .any => some []
  | .typeParameter name, actual => some [(name, actual)]
  | .list expected, .list actual => expected.requires actual
  | .nominal expectedId expectedArguments, .nominal actualId actualArguments =>
    if expectedId == actualId && expectedArguments.length == actualArguments.length then
      ValueType.requiresAll expectedArguments actualArguments
    else none
  | .any, _ => some []
  | _, .any => some []
  | expected, actual => if expected == actual then some [] else none

def ValueType.requiresAll : List ValueType → List ValueType → Option (List (String × ValueType))
  | expected :: expecteds, actual :: actuals => do
    let first ← expected.requires actual
    let rest ← ValueType.requiresAll expecteds actuals
    return first ++ rest
  | _, _ => some []

end

open ValueType

/-- What the pairs of a call require. -/
def requiresOfPairs : List (ValueType × ValueType) → Option (List (String × ValueType))
  | [] => some []
  | (expected, actual) :: rest => do
    let first ← expected.requires actual
    let more ← requiresOfPairs rest
    return first ++ more

/-- The outcome of a success. -/
def settled {α : Type} : Bool × α → Option α
  | (true, value) => some value
  | (false, _) => none

theorem settled_eq_some {α : Type} {outcome : Bool × α} {value : α} : settled outcome = some value ↔ outcome = (true, value) := by
  obtain ⟨success, _⟩ := outcome
  cases success with
  | true | false => simp [settled]

/-- A single requirement is met as the map of bindings meets it. -/
theorem requireAll_single (name : String) (value : ValueType) (substitutions : Substitutions) :
    requireAll [(name, value)] substitutions = settled (require name value substitutions) := by
  rw [requireAll]
  cases require name value substitutions with
  | mk success => cases success <;> rfl

/-- Nominal types of other names or other numbers of arguments are not equal. -/
theorem nominal_apart {expectedId actualId : NominalTypeId} {expecteds actuals : List ValueType}
    (different : ¬ (expectedId == actualId && expecteds.length == actuals.length) = true) :
    (ValueType.nominal expectedId expecteds == .nominal actualId actuals) = false := by
  rw [Bool.eq_false_iff]
  intro equal
  apply different
  have equal : (expectedId == actualId && sameAll expecteds actuals) = true := equal
  rw [and_eq_true] at equal ⊢
  exact ⟨equal.1, beq_iff_eq.mpr (ValueType.sameAll_length expecteds actuals equal.2)⟩

/-- Two sets of requirements are bound one after the other. -/
theorem requireAll_both (first second : Option (List (String × ValueType))) (substitutions : Substitutions) :
    (do
      let left ← first
      let right ← second
      return left ++ right : Option (List (String × ValueType))).bind (requireAll · substitutions) =
      (first.bind (requireAll · substitutions)).bind fun after => second.bind (requireAll · after) := by
  cases first with
  | none => rfl
  | some left =>
    cases second with
    | none => exact (Option.bind_fun_none _).symm
    | some right => exact Bindings.requireAll_append left right substitutions

mutual

/-- A pair unifies when what it requires can be bound. -/
theorem unifyType_settles (expected actual : ValueType) (substitutions : Substitutions) :
    settled (unifyType expected actual substitutions) =
      (expected.requires actual).bind (requireAll · substitutions) := by
  unfold unifyType requires
  split
  · rfl
  · next _ name _ =>
    rw [Option.bind_some, requireAll_single, require]
    cases substitutions name <;> rfl
  · next expected actual => exact unifyType_settles expected actual substitutions
  · next expectedId expectedArguments actualId actualArguments =>
    split
    · next same =>
      rw [and_eq_true] at same
      exact unifyTypes_settles expectedArguments actualArguments substitutions (beq_iff_eq.mp same.2)
    · next different =>
      rw [nominal_apart different]
      rfl
  · rfl
  · rfl
  · cases expected == actual <;> rfl

theorem unifyTypes_settles (expecteds actuals : List ValueType) (substitutions : Substitutions)
    (sizes : expecteds.length = actuals.length) :
    settled (unifyTypes expecteds actuals substitutions) =
      (requiresAll expecteds actuals).bind (requireAll · substitutions) := by
  cases expecteds with
  | nil => cases actuals <;> rfl
  | cons expected expecteds =>
    cases actuals with
    | nil => rfl
    | cons actual actuals =>
      have rest := fun after => unifyTypes_settles expecteds actuals after (Nat.succ.inj sizes)
      rw [requiresAll, requireAll_both, ← unifyType_settles expected actual substitutions, unifyTypes]
      cases unifyType expected actual substitutions with
      | mk success after =>
        cases success with
        | true => exact rest after
        | false => rfl

end

theorem unifyArguments_settles (pairs : List (ValueType × ValueType)) (substitutions : Substitutions) :
    settled (unifyArguments pairs substitutions) =
      (requiresOfPairs pairs).bind (requireAll · substitutions) := by
  induction pairs generalizing substitutions with
  | nil => rfl
  | cons pair rest ih =>
    obtain ⟨expected, actual⟩ := pair
    rw [requiresOfPairs, requireAll_both, ← unifyType_settles expected actual substitutions, unifyArguments]
    cases unifyType expected actual substitutions with
    | mk success after =>
      cases success with
      | true =>
        show settled (true && (unifyArguments rest after).1, (unifyArguments rest after).2) = _
        rw [Bool.true_and, settled, Option.bind_some, ← ih after]
      | false => rfl

/-! ## Bindings are kept -/

mutual

theorem unifyType_extends (expected actual : ValueType) (substitutions : Substitutions) :
    Bindings.Extends substitutions (unifyType expected actual substitutions).2 := by
  unfold unifyType
  split
  · exact Bindings.Extends.refl _
  · split
    · exact Bindings.Extends.refl _
    · next free => exact Bindings.Extends.insert _ free
  · next expected actual => exact unifyType_extends expected actual substitutions
  · next expectedId expectedArguments actualId actualArguments =>
    split
    · exact unifyTypes_extends expectedArguments actualArguments substitutions
    · exact Bindings.Extends.refl _
  all_goals exact Bindings.Extends.refl _

theorem unifyTypes_extends (expecteds actuals : List ValueType) (substitutions : Substitutions) :
    Bindings.Extends substitutions (unifyTypes expecteds actuals substitutions).2 := by
  cases expecteds with
  | nil => cases actuals <;> exact Bindings.Extends.refl _
  | cons expected expecteds =>
    cases actuals with
    | nil => exact Bindings.Extends.refl _
    | cons actual actuals =>
      have first := unifyType_extends expected actual substitutions
      rw [unifyTypes]
      cases step : unifyType expected actual substitutions with
      | mk success after =>
        rw [step] at first
        cases success with
        | true => exact first.trans (unifyTypes_extends expecteds actuals after)
        | false => exact first

end

/-! ## Soundness -/

theorem ValueType.acceptsUpToAny_any (type : ValueType) : type.acceptsUpToAny .any = true := by
  cases type <;> rfl

mutual

theorem ValueType.acceptsUpToAny_of_same (left right : ValueType) (same : ValueType.same left right = true) :
    left.acceptsUpToAny right = true := by
  unfold acceptsUpToAny
  split
  · rfl
  · rfl
  · next expected actual => exact ValueType.acceptsUpToAny_of_same expected actual same
  · next expectedId expectedArguments actualId actualArguments =>
    rw [ValueType.same, and_eq_true] at same
    rw [and_eq_true]
    exact ⟨same.1, ValueType.acceptUpToAny_of_same expectedArguments actualArguments same.2⟩
  · exact same

theorem ValueType.acceptUpToAny_of_same (lefts rights : List ValueType) (same : sameAll lefts rights = true) :
    acceptUpToAny lefts rights = true := by
  cases lefts with
  | nil =>
    cases rights with
    | nil => rfl
    | cons => cases same
  | cons left lefts =>
    cases rights with
    | nil => cases same
    | cons right rights =>
      rw [sameAll, and_eq_true] at same
      rw [acceptUpToAny, and_eq_true]
      exact ⟨ValueType.acceptsUpToAny_of_same left right same.1, ValueType.acceptUpToAny_of_same lefts rights same.2⟩

end

/-- Every requirement is bound to what it asks for. -/
def Meets (final : Substitutions) (requirements : List (String × ValueType)) : Prop :=
  ∀ requirement ∈ requirements, ∃ value, final requirement.1 = some value ∧ (value == requirement.2) = true

variable {final substitutions : Substitutions} {first requirements : List (String × ValueType)} {expected : ValueType}
  {pair : ValueType × ValueType} {rest pairs others : List (ValueType × ValueType)}

theorem Meets.append {second : List (String × ValueType)} (met : Meets final (first ++ second)) :
    Meets final first ∧ Meets final second :=
  ⟨fun requirement listed => met requirement (mem_append_left second listed),
    fun requirement listed => met requirement (mem_append_right first listed)⟩

/-- Equal types are basic where no rule for other types applies. -/
theorem basic_of_same {actual : ValueType} (notParameter : ∀ name, expected = .typeParameter name → False)
    (notAny : expected = .any → False) (notLists : ∀ left right, expected = .list left → actual = .list right → False)
    (notNominals : ∀ left lefts right rights, expected = .nominal left lefts → actual = .nominal right rights → False)
    (same : ValueType.same expected actual = true) : expected.basic = true := by
  cases expected with
  | any => exact (notAny rfl).elim
  | typeParameter name => exact (notParameter name rfl).elim
  | list left =>
    cases actual with
    | list right => exact (notLists left right rfl rfl).elim
    | _ => cases same
  | nominal left lefts =>
    cases actual with
    | nominal right rights => exact (notNominals left lefts right rights rfl rfl).elim
    | _ => cases same
  | _ => rfl

mutual

/-- Where everything required is bound, the instance of a type accepts the other one. -/
theorem acceptsUpToAny_of_meets (final : Substitutions) (expected actual : ValueType)
    (requirements : List (String × ValueType)) (required : expected.requires actual = some requirements)
    (met : Meets final requirements) : (substituteType final expected).acceptsUpToAny actual = true := by
  unfold requires at required
  split at required
  · exact ValueType.acceptsUpToAny_any _
  · next name actual _ =>
    cases required
    obtain ⟨value, bound, equal⟩ := met _ (mem_singleton_self _)
    rw [substituteType, bound]
    exact ValueType.acceptsUpToAny_of_same value _ equal
  · next expected actual =>
    exact acceptsUpToAny_of_meets final expected actual requirements required met
  · next expectedId expectedArguments actualId actualArguments =>
    split at required
    · next same =>
      rw [and_eq_true] at same
      rw [substituteType, acceptsUpToAny, and_eq_true]
      exact ⟨same.1, acceptUpToAny_of_meets final expectedArguments actualArguments requirements
        (beq_iff_eq.mp same.2) required met⟩
    · cases required
  · rfl
  · exact ValueType.acceptsUpToAny_any _
  · next notParameter notAny _ _ notLists notNominals =>
    split at required
    · next equal =>
      rw [substituteType_basic final (basic_of_same notParameter notAny notLists notNominals equal)]
      exact ValueType.acceptsUpToAny_of_same _ _ equal
    · cases required

theorem acceptUpToAny_of_meets (final : Substitutions) (expecteds actuals : List ValueType)
    (requirements : List (String × ValueType)) (sizes : expecteds.length = actuals.length)
    (required : requiresAll expecteds actuals = some requirements) (met : Meets final requirements) :
    acceptUpToAny (substituteTypes final expecteds) actuals = true := by
  cases expecteds with
  | nil =>
    cases actuals with
    | nil => rfl
    | cons => cases sizes
  | cons expected expecteds =>
    cases actuals with
    | nil => cases sizes
    | cons actual actuals =>
      rw [requiresAll, Option.bind_eq_bind, Option.bind_eq_some_iff] at required
      obtain ⟨first, isFirst, required⟩ := required
      rw [Option.bind_eq_some_iff] at required
      obtain ⟨rest, isRest, together⟩ := required
      cases together
      obtain ⟨metFirst, metRest⟩ := met.append
      rw [substituteTypes, acceptUpToAny, and_eq_true]
      exact ⟨acceptsUpToAny_of_meets final expected actual first isFirst metFirst,
        acceptUpToAny_of_meets final expecteds actuals rest (Nat.succ.inj sizes) isRest metRest⟩

end

mutual

/-- Without `Any` inside, agreement up to `Any` is equality. -/
theorem ValueType.same_of_acceptsUpToAny (expected actual : ValueType) (leftFree : expected.anyFree = true)
    (rightFree : actual.anyFree = true) (accepts : expected.acceptsUpToAny actual = true) :
    ValueType.same expected actual = true := by
  unfold acceptsUpToAny at accepts
  split at accepts
  · cases leftFree
  · cases rightFree
  · next expected actual => exact ValueType.same_of_acceptsUpToAny expected actual leftFree rightFree accepts
  · next expectedId expectedArguments actualId actualArguments =>
    rw [and_eq_true] at accepts
    rw [ValueType.same, and_eq_true]
    exact ⟨accepts.1, ValueType.sameAll_of_acceptUpToAny expectedArguments actualArguments leftFree rightFree accepts.2⟩
  · exact accepts

theorem ValueType.sameAll_of_acceptUpToAny (expecteds actuals : List ValueType) (leftFree : allAnyFree expecteds = true)
    (rightFree : allAnyFree actuals = true) (accepts : acceptUpToAny expecteds actuals = true) :
    sameAll expecteds actuals = true := by
  cases expecteds with
  | nil =>
    cases actuals with
    | nil => rfl
    | cons => cases accepts
  | cons expected expecteds =>
    cases actuals with
    | nil => cases accepts
    | cons actual actuals =>
      rw [allAnyFree, and_eq_true] at leftFree rightFree
      rw [acceptUpToAny, and_eq_true] at accepts
      rw [sameAll, and_eq_true]
      exact ⟨ValueType.same_of_acceptsUpToAny expected actual leftFree.1 rightFree.1 accepts.1,
        ValueType.sameAll_of_acceptUpToAny expecteds actuals leftFree.2 rightFree.2 accepts.2⟩

end

/-- What equals a type is accepted by it. -/
theorem ValueType.acceptsType_of_same (expected actual : ValueType) (same : ValueType.same expected actual = true) :
    expected.acceptsType actual = true := by
  unfold ValueType.acceptsType
  split
  · rfl
  · next expected actual => exact ValueType.acceptsType_of_same expected actual same
  · exact same

/-- A success of unification makes the declared type accept the other one, up to `Any`. -/
theorem unifyType_accepts {actual : ValueType} (unified : unifyType expected actual substitutions = (true, final)) :
    (substituteType final expected).acceptsUpToAny actual = true := by
  have met := unifyType_settles expected actual substitutions
  rw [settled_eq_some.mpr unified, eq_comm, Option.bind_eq_some_iff] at met
  obtain ⟨requirements, required, bound⟩ := met
  exact acceptsUpToAny_of_meets final expected actual requirements required fun _ listed =>
    Bindings.requireAll_binds bound listed

/-- Equal types accept the same values. -/
theorem ValueType.accepts_of_same (expected actual : ValueType) (value : Value F C)
    (same : ValueType.same expected actual = true) (accepts : actual.accepts value = true) :
    expected.accepts value = true := by
  cases actual with
  | any =>
    cases expected with
    | any => rfl
    | _ => cases same
  | typeParameter =>
    cases expected with
    | typeParameter => rfl
    | _ => cases same
  | list actual =>
    cases expected with
    | list expected =>
      cases value with
      | list =>
        rw [ValueType.accepts, all_eq_true] at accepts ⊢
        exact fun value listed => ValueType.accepts_of_same expected actual value same (accepts value listed)
      | _ => cases accepts
    | _ => cases same
  | nominal =>
    cases expected with
    | nominal =>
      cases value with
      | nominalRecord | variant => exact nominal_matches_of_same same accepts
      | _ => cases accepts
    | _ => cases same
  | _ =>
    rw [basic_same (.inr rfl) same]
    exact accepts

/-- A type accepts the values of the types it accepts. -/
theorem ValueType.accepts_of_acceptsType (expected actual : ValueType) (value : Value F C)
    (acceptsType : expected.acceptsType actual = true) (accepts : actual.accepts value = true) :
    expected.accepts value = true := by
  unfold ValueType.acceptsType at acceptsType
  split at acceptsType
  · cases value <;> rfl
  · next expected actual =>
    cases value with
    | list =>
      rw [ValueType.accepts, all_eq_true] at accepts ⊢
      exact fun value listed =>
        ValueType.accepts_of_acceptsType expected actual value acceptsType (accepts value listed)
    | _ => cases accepts
  · exact ValueType.accepts_of_same _ _ value acceptsType accepts

/-! ## Order of arguments -/

theorem requiresOfPairs_cons (required : requiresOfPairs (pair :: rest) = some requirements) :
    ∃ first more, pair.1.requires pair.2 = some first ∧ requiresOfPairs rest = some more ∧ requirements = first ++ more := by
  rw [requiresOfPairs, Option.bind_eq_bind, Option.bind_eq_some_iff] at required
  obtain ⟨first, isFirst, required⟩ := required
  rw [Option.bind_eq_some_iff] at required
  obtain ⟨more, isMore, together⟩ := required
  cases together
  exact ⟨first, more, isFirst, isMore, rfl⟩

theorem requiresOfPairs_of_cons {more : List (String × ValueType)} (isFirst : pair.1.requires pair.2 = some first)
    (isMore : requiresOfPairs rest = some more) : requiresOfPairs (pair :: rest) = some (first ++ more) := by
  rw [requiresOfPairs, isFirst, isMore]
  rfl

/-- Pairs in another order require the same in another order. -/
theorem requiresOfPairs_perm (perm : pairs.Perm others) (required : requiresOfPairs pairs = some requirements) :
    ∃ reordered, requiresOfPairs others = some reordered ∧ requirements.Perm reordered := by
  induction perm generalizing requirements with
  | nil => exact ⟨requirements, required, .refl _⟩
  | cons _ _ ih =>
    obtain ⟨first, more, isFirst, isMore, rfl⟩ := requiresOfPairs_cons required
    obtain ⟨reordered, isReordered, perm⟩ := ih isMore
    exact ⟨first ++ reordered, requiresOfPairs_of_cons isFirst isReordered, perm.append_left first⟩
  | swap =>
    obtain ⟨first, more, isFirst, isMore, rfl⟩ := requiresOfPairs_cons required
    obtain ⟨second, more, isSecond, isRest, rfl⟩ := requiresOfPairs_cons isMore
    refine ⟨second ++ (first ++ more), requiresOfPairs_of_cons isSecond (requiresOfPairs_of_cons isFirst isRest), ?_⟩
    rw [← append_assoc, ← append_assoc]
    exact perm_append_comm.append_right more
  | trans _ _ first second =>
    obtain ⟨_, isMiddle, left⟩ := first required
    obtain ⟨reordered, isReordered, right⟩ := second isMiddle
    exact ⟨reordered, isReordered, left.trans right⟩

/-- Pairs that unify in one order unify in any other, with equal bindings. -/
theorem unifyArguments_reorder (perm : pairs.Perm others) (unified : unifyArguments pairs substitutions = (true, final)) :
    ∃ other, unifyArguments others substitutions = (true, other) ∧ ∀ name, (final name == other name) = true := by
  have met := unifyArguments_settles pairs substitutions
  rw [settled_eq_some.mpr unified, eq_comm, Option.bind_eq_some_iff] at met
  obtain ⟨_, required, bound⟩ := met
  obtain ⟨_, isReordered, requirementsPerm⟩ := requiresOfPairs_perm perm required
  obtain ⟨succeeds, equal⟩ := Bindings.requireAll_perm requirementsPerm substitutions
  rw [bound, Option.isSome_some, eq_comm, Option.isSome_iff_exists] at succeeds
  obtain ⟨other, isOther⟩ := succeeds
  refine ⟨other, ?_, equal final other bound isOther⟩
  rw [← settled_eq_some, unifyArguments_settles, isReordered]
  exact isOther

/-- Whether pairs unify does not depend on their order. -/
theorem unifyArguments_success_perm (perm : pairs.Perm others) (substitutions : Substitutions) :
    (unifyArguments pairs substitutions).1 = (unifyArguments others substitutions).1 := by
  have transfer : ∀ {left right : List (ValueType × ValueType)}, left.Perm right →
      (unifyArguments left substitutions).1 = true → (unifyArguments right substitutions).1 = true := by
    intro left right perm success
    obtain ⟨_, isOther, _⟩ := unifyArguments_reorder perm (Prod.ext success rfl)
    rw [isOther]
  rw [Bool.eq_iff_iff]
  exact ⟨transfer perm, transfer perm.symm⟩

/-- Unification binds what makes the declared type accept the other one, keeps the bindings
it starts from, and gives an outcome on which the order of the pairs has no influence as
long as they unify; and acceptance of types is acceptance of their values. -/
theorem unification_sound :
    (∀ (expected actual : ValueType) (substitutions final : Substitutions),
      unifyType expected actual substitutions = (true, final) →
        (substituteType final expected).acceptsUpToAny actual = true ∧
          ((substituteType final expected).anyFree = true → actual.anyFree = true →
            (substituteType final expected).acceptsType actual = true)) ∧
    (∀ (expected actual : ValueType) (substitutions : Substitutions),
      Bindings.Extends substitutions (unifyType expected actual substitutions).2) ∧
    (∀ (pairs others : List (ValueType × ValueType)) (substitutions : Substitutions), pairs.Perm others →
      (unifyArguments pairs substitutions).1 = (unifyArguments others substitutions).1 ∧
        ((unifyArguments pairs substitutions).1 = true →
          ∀ name, ((unifyArguments pairs substitutions).2 name == (unifyArguments others substitutions).2 name) = true)) ∧
    ∀ (expected actual : ValueType) (value : Value F C),
      expected.acceptsType actual = true → actual.accepts value = true → expected.accepts value = true := by
  refine ⟨?_, unifyType_extends, ?_, ValueType.accepts_of_acceptsType⟩
  · intro expected actual substitutions final unified
    have accepts := unifyType_accepts unified
    refine ⟨accepts, fun leftFree rightFree => ?_⟩
    exact ValueType.acceptsType_of_same _ _ (ValueType.same_of_acceptsUpToAny _ _ leftFree rightFree accepts)
  · intro pairs others substitutions perm
    refine ⟨unifyArguments_success_perm perm substitutions, fun success => ?_⟩
    obtain ⟨_, isOther, equal⟩ := unifyArguments_reorder perm (Prod.ext success rfl)
    rw [isOther]
    exact equal

/-- A list of a free parameter held against a list of integers, as one of two arguments. -/
theorem integers_unification :
    (substituteType (Bindings.insert (fun _ => none) "T" .int) (.list (.typeParameter "T"))).acceptsType (.list .int) = true ∧
      (unifyArguments [(.list (.typeParameter "T"), .list .int), (.typeParameter "T", .int)] fun _ => none).1 =
        (unifyArguments [(.typeParameter "T", .int), (.list (.typeParameter "T"), .list .int)] fun _ => none).1 ∧
      (ValueType.list .any).accepts (.list [.int 1] : Value Empty Empty) = true :=
  have sound := @unification_sound Empty Empty
  ⟨(sound.1 (.list (.typeParameter "T")) (.list .int) (fun _ => none) _ rfl).2 (by decide) (by decide),
    (sound.2.2.1 _ _ (fun _ => none) (.swap _ _ [])).1,
    sound.2.2.2 (.list .any) (.list .int) (.list [.int 1]) (by decide) (by decide)⟩

/-- An integer, then a text, as two arguments of one free parameter. -/
def mismatchedPairs : List (ValueType × ValueType) :=
  [(.typeParameter "T", .int), (.typeParameter "T", .string)]

/-- Where the pairs do not unify, the binding that stays is the one that came first. -/
theorem failed_unification_keeps_the_first :
    ¬ ∀ (pairs others : List (ValueType × ValueType)) (substitutions : Substitutions), pairs.Perm others →
      (unifyArguments pairs substitutions).1 = (unifyArguments others substitutions).1 ∧
        ∀ name, ((unifyArguments pairs substitutions).2 name == (unifyArguments others substitutions).2 name) = true := by
  intro orderless
  have swapped := (orderless mismatchedPairs mismatchedPairs.reverse (fun _ => none)
    (reverse_perm mismatchedPairs).symm).2 "T"
  exact absurd swapped (by decide)

end Opaal.Runtime
