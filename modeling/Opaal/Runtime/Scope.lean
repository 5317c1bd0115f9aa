import Mathlib.Data.List.Basic
import Std.Data.ExtTreeMap
import Std.Data.ExtTreeSet
import Opaal.Runtime.Operation

/-!
# Lexical scopes

A stack of frames, each a list of named bindings.  Operations keep the stack they were
given in place and change it only where they say so; one that fails leaves the stack as
it was when it noticed.
-/

namespace Opaal.Runtime

/-- Whether a lexical binding cell may be reassigned. -/
inductive BindingMutability where
  | immutable
  | mutable
deriving DecidableEq

structure Binding (F C : Type) where
  mutability : BindingMutability
  valueType : Option ValueType
  value : Value F C

instance {F C : Type} [BEq F] [BEq C] : BEq (Binding F C) where
  beq left right := left.mutability == right.mutability && left.valueType == right.valueType && left.value == right.value

abbrev ScopeFrame (F C : Type) := List (String × Binding F C)

/-- The frames, from the innermost one out to the root. -/
structure ScopeStack (F C : Type) where
  frames : List (ScopeFrame F C)

/-- A source-independent lexical-scope operation failure. -/
inductive ScopeError where
  | duplicateBinding (name : String)
  | reservedBinding (name : String)
  | unknownBinding (name : String)
  | immutableBinding (name : String)
  | typeMismatch (expected : ValueType) (actual : String)
  | cannotPopRoot

/-- Why an operation on a stack stops: its own error, one that the evaluator finds while it
replaces an item, or a missing root frame, which the code takes as impossible. -/
inductive ScopeFailure where
  | rejected (error : ScopeError)
  | operation (error : OperationError)
  | negativeIndex (index : Int64)
  | indexOutOfRange (index : Int64) (length : Nat)
  | interrupted
  | panicked

variable {F C : Type}

/-- Operations on a stack; a failing one keeps the stack it failed with. -/
abbrev Scope (F C α : Type) := EStateM ScopeFailure (ScopeStack F C) α

/-! ## Frames -/

namespace ScopeFrame

def find (name : String) (frame : ScopeFrame F C) : Option (Binding F C) :=
  (frame.find? fun entry => entry.1 == name).map Prod.snd

/-- The first binding of that name gets another value. -/
def store (name : String) (value : Value F C) :
    ScopeFrame F C → ScopeFrame F C
  | [] => []
  | (candidate, binding) :: rest =>
    if candidate == name then (candidate, { binding with value }) :: rest
    else (candidate, binding) :: store name value rest

def erase (name : String) (frame : ScopeFrame F C) : ScopeFrame F C :=
  frame.eraseP fun entry => entry.1 == name

end ScopeFrame

/-- Puts a value into the innermost binding of a name. -/
def storeValue (name : String) (value : Value F C) :
    List (ScopeFrame F C) → List (ScopeFrame F C)
  | [] => []
  | frame :: outer =>
    if (frame.find name).isSome then frame.store name value :: outer else frame :: storeValue name value outer

/-- Drops the innermost binding of a name. -/
def eraseBinding (name : String) : List (ScopeFrame F C) → List (ScopeFrame F C)
  | [] => []
  | frame :: outer => if (frame.find name).isSome then frame.erase name :: outer else frame :: eraseBinding name outer

namespace ScopeStack

def new : ScopeStack F C := ⟨[[]]⟩

def find (stack : ScopeStack F C) (name : String) : Option (Binding F C) :=
  stack.frames.findSome? (ScopeFrame.find name)

/-- A by-value capture of the visible scope with every binding frozen immutable. -/
def capturedSnapshot (stack : ScopeStack F C) : ScopeStack F C :=
  ⟨stack.frames.map fun frame => frame.map fun (name, binding) => (name, { binding with mutability := .immutable })⟩

/-- The visible bindings by name; inner frames come last, so they shadow outer ones. -/
def capsuleBindings (stack : ScopeStack F C) : Std.ExtTreeMap String (Binding F C) :=
  stack.frames.reverse.flatten.foldl (fun visible entry => visible.insert entry.1 entry.2) ∅

end ScopeStack

/-! ## Operations -/

def reject {α : Type} (error : ScopeError) : Scope F C α := throw (.rejected error)

/-- A declared type has to accept the value. -/
def checkAccepts (valueType : Option ValueType) (value : Value F C) : Scope F C Unit :=
  match valueType with
  | none => return
  | some expected => if expected.accepts value then return else reject (.typeMismatch expected value.familyName)

def pushFrame : Scope F C Unit := modify fun stack => ⟨[] :: stack.frames⟩

def popFrame : Scope F C Unit := do
  let stack ← get
  if stack.frames.length = 1 then reject .cannotPopRoot
  else set (ScopeStack.mk stack.frames.tail)

def declareTyped (name : String) (mutability : BindingMutability) (value : Value F C)
    (valueType : Option ValueType) : Scope F C Unit := do
  match (← get).frames with
  | [] => throw .panicked
  | current :: outer =>
    if (current.find name).isSome then reject (.duplicateBinding name)
    else
      checkAccepts valueType value
      set (ScopeStack.mk ((current ++ [(name, ⟨mutability, valueType, value⟩)]) :: outer))

def declare (name : String) (mutability : BindingMutability) (value : Value F C) :
    Scope F C Unit :=
  declareTyped name mutability value none

/-- The binding an assignment would change. -/
def assignable (name : String) : Scope F C (Binding F C) := do
  match (← get).find name with
  | none => reject (.unknownBinding name)
  | some binding => if binding.mutability = .immutable then reject (.immutableBinding name) else return binding

def assign (name : String) (value : Value F C) : Scope F C Unit := do
  let binding ← assignable name
  checkAccepts binding.valueType value
  modify fun stack => ⟨storeValue name value stack.frames⟩

/-- Stores a list whose original slots and replacement were already validated. -/
def assignPrevalidatedList (name : String) (items : List (Value F C)) : Scope F C Unit := do
  let _ ← assignable name
  modify fun stack => ⟨storeValue name (.list items) stack.frames⟩

/-- Removes the innermost visible binding of a name and returns its value. -/
def remove (name : String) : Scope F C (Option (Value F C)) := do
  match (← get).find name with
  | none => return none
  | some binding =>
    modify fun stack => ⟨eraseBinding name stack.frames⟩
    return some binding.value

def declareAll (bindings : List (String × Binding F C)) : Scope F C Unit :=
  bindings.forM fun (name, binding) => declareTyped name binding.mutability binding.value binding.valueType

/-- A stack with the given bindings in its root frame. -/
def fromCapsuleBindings (bindings : List (String × Binding F C)) :
    Except ScopeFailure (ScopeStack F C) :=
  match declareAll bindings ScopeStack.new with
  | .ok _ stack => .ok stack
  | .error failure _ => .error failure

/-! ## Replacing an item of a list -/

mutual

def substituteType (substitutions : String → Option ValueType) : ValueType → ValueType
  | .typeParameter name => (substitutions name).getD (.typeParameter name)
  | .list element => .list (substituteType substitutions element)
  | .nominal id arguments => .nominal id (substituteTypes substitutions arguments)
  | valueType => valueType

def substituteTypes (substitutions : String → Option ValueType) : List ValueType → List ValueType
  | [] => []
  | argument :: arguments => substituteType substitutions argument :: substituteTypes substitutions arguments

end

/-- The type an item of a list binding is checked against: that of the elements as the
evaluator's type arguments make it. -/
def itemType (typeArguments : String → Option ValueType) : Option ValueType → Option ValueType
  | some (.list element) => some (substituteType typeArguments element)
  | _ => none

def checkedPosition (index : Int64) (length : Nat) : Scope F C Nat :=
  if index < 0 then throw (.negativeIndex index)
  else if index.toInt.toNat < length then return index.toInt.toNat
  else throw (.indexOutOfRange index length)

/-- The names of bindings that are not lexical. -/
def isDynamicBinding (name : String) : Bool := name == "status"

/-- The evaluator's assignment to an item of a list, once the index and the replacement are
values.  `affordable` stands for the cancellation and budget checks while the list is copied,
which all come before the stack is changed. -/
def indexedAssignment (typeArguments : String → Option ValueType) (name : String)
    (index value : Value F C) (affordable : Bool) : Scope F C Unit := do
  if isDynamicBinding name then reject (.immutableBinding name)
  else
    let binding ← assignable name
    match binding.value, index with
    | .list items, .int position =>
      let position ← checkedPosition position items.length
      checkAccepts (itemType typeArguments binding.valueType) value
      if affordable then assignPrevalidatedList name (items.set position value)
      else throw .interrupted
    | .list items, index =>
      throw (.operation (.unsupportedOperands "[]" [(Value.list items).familyName, index.familyName]))
    | original, _ => throw (.operation (.unsupportedOperands "indexed assignment" [original.familyName]))

/-! ## Capsule deltas -/

section Delta

variable [BEq F] [BEq C]

/-- What a delta does about one name. -/
inductive Change (F C : Type) where
  | keep
  | assign (value : Value F C)
  | replace (binding : Option (Binding F C))

def change (base updated : Option (Binding F C)) : Change F C :=
  if base == updated then .keep
  else
    match base, updated with
    | some before, some after =>
      if before.mutability = after.mutability ∧ before.valueType == after.valueType then .assign after.value
      else .replace (some after)
    | _, _ => .replace updated

def applyChange (name : String) : Change F C → Scope F C Unit
  | .keep => return
  | .assign value => assign name value
  | .replace binding => do
    let _ ← remove name
    match binding with
    | some binding => declareTyped name binding.mutability binding.value binding.valueType
    | none => return

/-- The names of either side, in order. -/
def changedNames (base updated : ScopeStack F C) : List String :=
  (Std.ExtTreeSet.ofList (base.capsuleBindings.keys ++ updated.capsuleBindings.keys)).toList

def changeOf (base updated : ScopeStack F C) (name : String) : Change F C :=
  change base.capsuleBindings[name]? updated.capsuleBindings[name]?

/-- The changes go in one by one; the first that fails ends the delta. -/
def applyCapsuleDelta (base updated : ScopeStack F C) : Scope F C Unit :=
  (changedNames base updated).forM fun name => applyChange name (changeOf base updated name)

/-- A finished foreground job: its delta goes into a copy, which replaces the scope when all
of it went in. -/
def applyForegroundCompletion (base updated : ScopeStack F C) : Scope F C Unit := do
  let scope ← get
  match applyCapsuleDelta base updated scope with
  | .ok _ pending => set pending
  | .error failure _ => throw failure

end Delta

end Opaal.Runtime
