import Mathlib.Algebra.Group.Int.Defs
import Mathlib.Algebra.Group.Nat.Defs
import Mathlib.Data.Rat.Defs

/-!
# JSON documents

The value of a JSON text.  A number is an integer of at most 64 bits or a finite
floating-point number; the members of an object are kept in the order of their keys.
-/

namespace Opaal.Json

/-- An integer that fits a signed or an unsigned 64-bit number. -/
structure Integer where
  value : Int
  lower : -2 ^ 63 ≤ value
  upper : value < 2 ^ 64
deriving DecidableEq

/-- A floating-point number is its value: the sign of a zero is seen by nobody. -/
inductive Number where
  | integer (value : Integer)
  | float (value : Rat)
deriving DecidableEq

inductive Tree where
  | null
  | bool (value : Bool)
  | number (value : Number)
  | string (value : String)
  | array (items : List Tree)
  | object (members : List (String × Tree))

abbrev Members := List (String × Tree)

mutual

def decideTrees : (first second : Tree) → Decidable (first = second)
  | .null, .null => isTrue rfl
  | .bool first, .bool second => decidable_of_iff (first = second) (by simp)
  | .number first, .number second => decidable_of_iff (first = second) (by simp)
  | .string first, .string second => decidable_of_iff (first = second) (by simp)
  | .array first, .array second =>
    have := decideItems first second
    decidable_of_iff (first = second) (by simp)
  | .object first, .object second =>
    have := decideMembers first second
    decidable_of_iff (first = second) (by simp)
  | .null, .bool _ | .null, .number _ | .null, .string _ | .null, .array _ | .null, .object _ => isFalse (by simp)
  | .bool _, .null | .bool _, .number _ | .bool _, .string _ | .bool _, .array _ | .bool _, .object _ =>
    isFalse (by simp)
  | .number _, .null | .number _, .bool _ | .number _, .string _ | .number _, .array _ | .number _, .object _ =>
    isFalse (by simp)
  | .string _, .null | .string _, .bool _ | .string _, .number _ | .string _, .array _ | .string _, .object _ =>
    isFalse (by simp)
  | .array _, .null | .array _, .bool _ | .array _, .number _ | .array _, .string _ | .array _, .object _ =>
    isFalse (by simp)
  | .object _, .null | .object _, .bool _ | .object _, .number _ | .object _, .string _ | .object _, .array _ =>
    isFalse (by simp)

def decideItems : (first second : List Tree) → Decidable (first = second)
  | [], [] => isTrue rfl
  | [], _ :: _ | _ :: _, [] => isFalse (by simp)
  | first :: firsts, second :: seconds =>
    have := decideTrees first second
    have := decideItems firsts seconds
    decidable_of_iff (first = second ∧ firsts = seconds) (by simp)

def decideMembers : (first second : List (String × Tree)) → Decidable (first = second)
  | [], [] => isTrue rfl
  | [], _ :: _ | _ :: _, [] => isFalse (by simp)
  | (firstKey, first) :: firsts, (secondKey, second) :: seconds =>
    have := decideTrees first second
    have := decideMembers firsts seconds
    decidable_of_iff ((firstKey = secondKey ∧ first = second) ∧ firsts = seconds) (by simp)

end

instance : DecidableEq Tree := decideTrees

namespace Tree

def ofNat (value : Nat) (bound : value < 2 ^ 64) : Tree :=
  .number (.integer ⟨value, by omega, by omega⟩)

def asStr : Tree → Option String
  | .string value => some value
  | _ => none

def asBool : Tree → Option Bool
  | .bool value => some value
  | _ => none

def asArray : Tree → Option (List Tree)
  | .array items => some items
  | _ => none

def asObject : Tree → Option Members
  | .object members => some members
  | _ => none

def asI64 : Tree → Option Int
  | .number (.integer value) => if value.value < 2 ^ 63 then some value.value else none
  | _ => none

def asU64 : Tree → Option Nat
  | .number (.integer value) => if 0 ≤ value.value then some value.value.toNat else none
  | _ => none

def isNull : Tree → Bool
  | .null => true
  | _ => false

def isString : Tree → Bool
  | .string _ => true
  | _ => false

def isNumber : Tree → Bool
  | .number _ => true
  | _ => false

def isArray : Tree → Bool
  | .array _ => true
  | _ => false

def isObject : Tree → Bool
  | .object _ => true
  | _ => false

theorem eq_object {tree : Tree} {members : Members} (isObject : tree.asObject = some members) :
    tree = .object members := by
  cases tree <;> cases isObject
  rfl

theorem eq_string {tree : Tree} {value : String} (isString : tree.asStr = some value) : tree = .string value := by
  cases tree <;> cases isString
  rfl

end Tree

/-! ## Members -/

namespace Members

def get? (members : Members) (key : String) : Option Tree := members.lookup key

def containsKey (members : Members) (key : String) : Bool := (members.get? key).isSome

/-- A member is put in its place among the others or replaces the one it has the key of. -/
def insert (key : String) (value : Tree) : Members → Members
  | [] => [(key, value)]
  | (other, held) :: members =>
    if key = other then (key, value) :: members
    else if key < other then (key, value) :: (other, held) :: members
    else (other, held) :: insert key value members

theorem get?_insert_of_ne {key name : String} (different : name ≠ key) (value : Tree) (members : Members) :
    get? (insert key value members) name = get? members name := by
  have other : (name == key) = false := beq_false_of_ne different
  unfold get?
  induction members with
  | nil => simp [insert, List.lookup_cons, other]
  | cons member members ih =>
    obtain ⟨held, tree⟩ := member
    unfold insert
    split
    · next same =>
      subst same
      simp [List.lookup_cons, other]
    · split
      · simp [List.lookup_cons, other]
      · simp [List.lookup_cons, ih]

end Members

end Opaal.Json
