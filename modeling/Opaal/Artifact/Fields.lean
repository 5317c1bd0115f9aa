import Mathlib.Data.Finset.Basic
import Opaal.Json.Tree
import Opaal.Machine.Stateful

/-!
# Fields of workflow artifacts

The checked access to the fields of a JSON object that every validator of artifacts and
journals goes through.  A refusal is an error of the artifact; an `expect` that fails ends
the process and is told apart from it.
-/

namespace Opaal.Json.Tree

/-- The member of an object; anything else has none. -/
def get? (tree : Tree) (name : String) : Option Tree := tree.asObject.bind (·.get? name)

/-- `value[name]`: a member that is not there reads as `null`. -/
def index (tree : Tree) (name : String) : Tree := (tree.get? name).getD .null

end Opaal.Json.Tree

namespace Opaal.Workflow

open Opaal.Json (Tree Members)
open Opaal.Machine (bind_ok)

inductive Fault where
  | error (code message : String)
  | panic (message : String)
deriving DecidableEq

abbrev Checked := Except Fault

/-- `Option::expect` -/
def expect {α : Type} (value : Option α) (message : String) : Checked α :=
  match value with
  | some value => .ok value
  | none => .error (.panic message)

def journalCorrupt {α : Type} (message : String) : Checked α := .error (.error "JOURNAL003" message)

def invalid {α : Type} (message : String) : Checked α := .error (.error "ARTIFACT007" message)

/-- `?` after a check that yields nothing -/
def refuseIf (refused : Bool) (message : String) : Checked Unit :=
  if refused then journalCorrupt message else .ok ()

def maxU64 : Nat := 2 ^ 64 - 1

/-- `u64::checked_add` -/
def checkedAdd (left right : Nat) : Option Nat := if left + right ≤ maxU64 then some (left + right) else none

def required (object : Members) (name : String) : Checked Tree :=
  match object.get? name with
  | some value => .ok value
  | none => invalid ("missing field `" ++ name ++ "`")

def asObject (value : Tree) (context : String) : Checked Members :=
  match value.asObject with
  | some object => .ok object
  | none => invalid (context ++ " must be an object")

/-- A field that has to be of one of the kinds of values. -/
def requiredAs {α : Type} (read : Tree → Option α) (kind : String) (object : Members) (name : String) : Checked α := do
  let value ← required object name
  match read value with
  | some read => .ok read
  | none => invalid ("`" ++ name ++ "` must be " ++ kind)

def requiredString : Members → String → Checked String := requiredAs Tree.asStr "a string"

def requiredU64 : Members → String → Checked Nat := requiredAs Tree.asU64 "a non-negative integer"

def requiredBool : Members → String → Checked Bool := requiredAs Tree.asBool "a boolean"

def requiredArray : Members → String → Checked (List Tree) := requiredAs Tree.asArray "an array"

def isLowerHexDigit (character : Char) : Bool := character.isDigit || ('a' ≤ character && character ≤ 'f')

/-- `str::strip_prefix`, on the characters -/
def stripPrefix? : (start text : List Char) → Option (List Char)
  | [], text => some text
  | _ :: _, [] => none
  | first :: start, character :: text => if first = character then stripPrefix? start text else none

def isDigest (value : String) : Bool :=
  (stripPrefix? "sha256:".toList value.toList).any fun hex => hex.length = 64 && hex.all isLowerHexDigit

def validateDigest (value : String) : Checked Unit :=
  if isDigest value then .ok () else invalid "digest must be sha256 plus 64 lowercase hexadecimal digits"

def requiredDigest (object : Members) (name : String) : Checked String := do
  let value ← requiredString object name
  validateDigest value
  return value

/-! ## What a check that passes has read -/

variable {α β : Type} {object : Members} {name : String}

theorem expect_ok {value : Option α} {message : String} {result : α} (passed : expect value message = .ok result) :
    value = some result := by
  cases value with
  | none => cases passed
  | some =>
    cases passed
    rfl

theorem required_ok {value : Tree} (passed : required object name = .ok value) : object.get? name = some value := by
  unfold required at passed
  cases held : object.get? name with
  | none => rw [held] at passed; cases passed
  | some =>
    rw [held] at passed
    cases passed
    rfl

theorem requiredAs_ok {read : Tree → Option α} {kind : String} {value : α}
    (passed : requiredAs read kind object name = .ok value) :
    ∃ tree, object.get? name = some tree ∧ read tree = some value := by
  obtain ⟨tree, found, passed⟩ := bind_ok passed
  refine ⟨tree, required_ok found, ?_⟩
  cases isRead : read tree with
  | none => rw [isRead] at passed; cases passed
  | some =>
    rw [isRead] at passed
    cases passed
    rfl

theorem refuseIf_ok {refused : Bool} {message : String} (passed : refuseIf refused message = .ok ()) :
    refused = false := by
  cases refused with
  | false => rfl
  | true => cases passed

theorem checkedAdd_eq_some {left right total : Nat} (added : checkedAdd left right = some total) :
    total = left + right := by
  unfold checkedAdd at added
  split at added
  · exact (Option.some.inj added).symm
  · cases added

/-- A field that was required as a string is what indexing the object reads. -/
theorem requiredString_index {value : String} (passed : requiredString object name = .ok value) :
    (Tree.index (.object object) name).asStr = some value := by
  obtain ⟨_, found, isRead⟩ := requiredAs_ok passed
  simp [Tree.index, Tree.get?, Tree.asObject, found, isRead]

theorem requiredU64_index {value : Nat} (passed : requiredU64 object name = .ok value) :
    (Tree.index (.object object) name).asU64 = some value := by
  obtain ⟨_, found, isRead⟩ := requiredAs_ok passed
  simp [Tree.index, Tree.get?, Tree.asObject, found, isRead]

theorem required_index {value : Tree} (passed : required object name = .ok value) :
    Tree.index (.object object) name = value := by
  simp [Tree.index, Tree.get?, Tree.asObject, required_ok passed]

end Opaal.Workflow
