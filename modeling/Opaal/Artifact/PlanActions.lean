import Opaal.Graph.Preorder
import Opaal.Order.Entries
import Opaal.Artifact.Artifact

/-!
# The actions of a plan

A plan lists its actions in the order in which the dependencies of the selected action are
walked depth first, and asks for the authority that the actions ask for.
-/

namespace Opaal.Workflow

open Opaal.Graph
open Opaal.Json (Tree Members)
open Opaal.Order
open Opaal.Text (bytes)

/-! ## Keys -/

def requiredObject (object : Members) (name : String) : Checked Members := do
  asObject (← required object name) name

/-- `object[name]` of a map: a member that is not there is a panic. -/
def member (object : Members) (name : String) : Checked Tree := expect (object.get? name) "no entry found for key"

/-- Keys are compared byte by byte. -/
def KeyLt (left right : List UInt8) : Prop := left.map UInt8.toNat < right.map UInt8.toNat

instance (left right : List UInt8) : Decidable (KeyLt left right) := inferInstanceAs (Decidable (_ < _))

def authorityKey (toWriter : String → List UInt8) (value : Tree) : Checked (List UInt8) := do
  let object ← asObject value "authority entry"
  let effect ← requiredString object "effect"
  let scope ← required object "scope"
  return bytes effect.toList ++ 0 :: (← writeCanonicalJson toWriter scope)

def stringKey (value : Tree) : Checked (List UInt8) :=
  match value.asStr with
  | some text => .ok (bytes text.toList)
  | none => invalid "array entry must be a string"

def requireOrderedUniqueFrom (context : String) (key : Tree → Checked (List UInt8)) : Option (List UInt8) → List Tree → Checked Unit
  | _, [] => .ok ()
  | previous, value :: values => do
    let current ← key value
    if previous.any fun previous => ¬ KeyLt previous current then invalid (context ++ " are not strictly sorted and unique")
    requireOrderedUniqueFrom context key (some current) values

def requireOrderedUnique (values : List Tree) (context : String) (key : Tree → Checked (List UInt8)) : Checked Unit :=
  requireOrderedUniqueFrom context key none values

def isGranted (request : Tree) : Bool :=
  match (request.index "verdict").asStr with
  | some verdict => verdict == "granted-enforced" || verdict == "granted-unenforced"
  | none => false

/-! ## The walk over dependencies -/

/-- The sets of nodes that are being visited and were visited, and the nodes in the order
in which they were entered. -/
structure Visit where
  visiting : List String
  visited : List String
  traversal : List String

def Visit.start : Visit := ⟨[], [], []⟩

def Visit.enter (visit : Visit) (node : String) : Visit :=
  { visit with visiting := node :: visit.visiting, traversal := visit.traversal ++ [node] }

def Visit.leave (visit : Visit) (node : String) : Visit :=
  { visit with visiting := visit.visiting.erase node, visited := node :: visit.visited }

/-- The dependencies by their ordinals; every node has one. -/
def byOrdinal (ordinals : List (String × Nat)) (dependencies : List String) : List String :=
  dependencies.insertionSort fun first second => (ordinals.lookup first).getD 0 ≤ (ordinals.lookup second).getD 0

/-- The room left is 65 less the depth of the source, which it counts down. -/
def visitActionGraph (nodes : List (String × List String)) (ordinals : List (String × Nat)) : Nat → String → Visit → Checked Visit
  | room, node, visit =>
    if node ∈ visit.visited then .ok visit
    else if node ∈ visit.visiting then invalid "plan action dependency graph is cyclic"
    else
      match room with
      | 0 => invalid "plan action dependency depth exceeds 64"
      | room + 1 => do
        let dependencies ← expect (nodes.lookup node) "no entry found for key"
        let visit ← (byOrdinal ordinals dependencies).foldlM (fun visit dependency =>
          visitActionGraph nodes ordinals room dependency visit) (visit.enter node)
        return visit.leave node

/-! ## Validation -/

/-- What is gathered from the actions. -/
structure Gathered where
  nodes : List (String × List String)
  ordinals : List (String × Nat)
  actionIds : List String
  union : List (List UInt8 × Tree)

def Gathered.empty : Gathered := ⟨[], [], [], []⟩

def readOutcomeClass (outcome : Tree) (message : String) : Checked String := do
  requiredString (← expect outcome.asObject message) "class"

/-- Whether a class of outcome is not the one that goes with being executable. -/
def disagrees (executable : Bool) (outcomeClass : String) : Bool :=
  (executable && outcomeClass != "success") || (!executable && outcomeClass != "refused")

def refuse (refused : Bool) (message : String) : Checked Unit := if refused then invalid message else .ok ()

def gatherRequest (toWriter : String → List UInt8) (union : List (List UInt8 × Tree)) (request : Tree) :
    Checked (List (List UInt8 × Tree)) := do
  return assign (← authorityKey toWriter request, request) union

def gatherAction (toWriter : String → List UInt8) (gathered : Gathered) (ordinal : Nat) (action : Tree) : Checked Gathered := do
  let action ← asObject action "action node"
  let given ← requiredU64 action "ordinal"
  refuse (given != ordinal) "action ordinals are not contiguous from zero"
  let nodeId ← requiredString action "id"
  let actionId ← requiredString action "action_id"
  refuse (gathered.actionIds.contains actionId) "plan contains a duplicate action identity"
  let requests ← requiredArray action "requests"
  requireOrderedUnique requests "action requests" (authorityKey toWriter)
  let actionClass ← readOutcomeClass (← member action "outcome") "validated action outcome is an object"
  refuse (disagrees (requests.all isGranted) actionClass) "action outcome disagrees with its authority requests"
  let union ← requests.foldlM (gatherRequest toWriter) gathered.union
  let dependencies ← requiredArray action "dependencies"
  requireOrderedUnique dependencies "action dependencies" stringKey
  let dependencies ← dependencies.mapM fun dependency => expect dependency.asStr "validated dependency is an id"
  return {
    nodes := assign (nodeId, dependencies) gathered.nodes
    ordinals := assign (nodeId, ordinal) gathered.ordinals
    actionIds := actionId :: gathered.actionIds
    union }

def gatherActions (toWriter : String → List UInt8) : Nat → List Tree → Gathered → Checked Gathered
  | _, [], gathered => .ok gathered
  | ordinal, action :: actions, gathered => do
    gatherActions toWriter (ordinal + 1) actions (← gatherAction toWriter gathered ordinal action)

/-- The values of a map in the order of its keys. -/
def intoValues (union : List (List UInt8 × Tree)) : List Tree :=
  (union.insertionSort fun first second => ¬ KeyLt second.1 first.1).map Prod.snd

/-- A node that depends on itself or on what is no node.  The source goes over the nodes in the
order of their names, which the one refusal does not show. -/
def unresolved (nodes : List (String × List String)) : Bool :=
  nodes.any fun entry => entry.2.any fun dependency => dependency == entry.1 || (nodes.lookup dependency).isNone

def isSelected (root task : Members) : Checked Bool := do
  if (← member root "action_id") != (← member task "action_id") then return false
  return (← member root "contract_digest") == (← member task "contract_digest")

def namesOneSecret (object : Members) : Checked Bool := do
  return decide ((← requiredArray object "secrets").length ≤ 1)

def isExecutable (object : Members) (requests actions : List Tree) : Checked Bool :=
  if requests.all isGranted && actions.all fun action => ((action.index "outcome").index "class").asStr == some "success" then
    namesOneSecret object
  else .ok false

def maxDependencyDepth : Nat := 64

def validatePlanActions (toWriter : String → List UInt8) (object : Members) : Checked Unit := do
  let actions ← requiredArray object "actions"
  refuse actions.isEmpty "plan must contain its selected action"
  let task ← requiredObject object "task"
  let authority ← requiredObject object "authority"
  let gathered ← gatherActions toWriter 0 actions .empty
  let root ← expect ((actions.headD .null).asObject) "validated action node is an object"
  refuse (!(← isSelected root task)) "plan root action disagrees with the selected task"
  refuse (unresolved gathered.nodes) "action dependency is self-referential or absent"
  let rootId ← requiredString root "id"
  let visit ← visitActionGraph gathered.nodes gathered.ordinals maxDependencyDepth rootId .start
  refuse (visit.visited.length != gathered.nodes.length) "plan contains an action outside the selected closure"
  let declaredOrder ← actions.mapM fun action => do requiredString (← asObject action "action node") "id"
  refuse (visit.traversal != declaredOrder) "plan actions are not in depth-first dependency order"
  let requests ← requiredArray authority "requests"
  refuse (requests != intoValues gathered.union) "plan authority requests disagree with the action closure"
  let executable ← isExecutable object requests actions
  let outcomeClass ← readOutcomeClass (← member object "outcome") "validated outcome is an object"
  refuse (disagrees executable outcomeClass) "plan outcome disagrees with its requests and action outcomes"

end Opaal.Workflow
